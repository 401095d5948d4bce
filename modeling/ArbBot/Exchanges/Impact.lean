import ArbBot.Exchanges.Gateway
import ArbBot.Lib.Ladder
import ArbBot.Lib.Loop

/-!
# The walk over an order book is a fill of a price ladder

`validLevels` is the price ladder that the source sees in a side of an order book: levels that are
too short, that do not convert or that have a price or a size that is not positive are left out.
`impactPriceForQuote_average` says what the walk returns: the size that the target notional buys on
that ladder and the average price of this fill, or zeros. `DepthOf` is the relation between a
snapshot and the order book that its depth fields come from, and `fetchOne_depthOf` says that
`fetchOne` establishes it.
-/

namespace ArbBot

open Ladder

/-- A level with a positive price and a positive size, or `none`. -/
def readLevel : Level → Option (ℚ × ℚ)
  | .num price :: .num qty :: _ => if price ≤ 0 ∨ qty ≤ 0 then none else some (price, qty)
  | _ => none

/-- The price ladder of a side of an order book. -/
def validLevels (levels : List Level) : List (ℚ × ℚ) := levels.filterMap readLevel

lemma readLevel_pos {level l} (e : readLevel level = some l) : 0 < l.1 ∧ 0 < l.2 := by
  unfold readLevel at e
  split at e
  · split at e
    case isTrue => cases e
    case isFalse h =>
      cases e
      exact ⟨not_le.1 fun hp => h (.inl hp), not_le.1 fun hq => h (.inr hq)⟩
  · cases e

lemma validLevels_sized (levels : List Level) : Sized (validLevels levels) := fun _ hl => by
  obtain ⟨_, _, e⟩ := List.mem_filterMap.1 hl
  exact (readLevel_pos e).2

lemma validLevels_priced (levels : List Level) : Priced (validLevels levels) := fun _ hl => by
  obtain ⟨_, _, e⟩ := List.mem_filterMap.1 hl
  exact (readLevel_pos e).1

lemma toFloat_eq_ok {c : Cell} {x} (e : c.toFloat = .ok x) : (c = .none ∧ x = 0) ∨ c = .num x := by
  cases c with
  | none => cases e; exact .inl ⟨rfl, rfl⟩
  | num y => cases e; exact .inr rfl
  | unreadable => cases e

/-- What the walk reads off a level that has two cells. -/
lemma readLevel_of_toFloat {c₀ c₁ : Cell} {price qty} (cells)
    (hprice : c₀.toFloat = .ok price) (hqty : c₁.toFloat = .ok qty) :
    readLevel (c₀ :: c₁ :: cells) = if price ≤ 0 ∨ qty ≤ 0 then none else some (price, qty) := by
  rcases toFloat_eq_ok hprice with ⟨rfl, rfl⟩ | rfl
  · simp [readLevel]
  · rcases toFloat_eq_ok hqty with ⟨rfl, rfl⟩ | rfl
    · simp [readLevel]
    · rfl

/-- One level of the walk: it is skipped, or it is taken as far as the target allows. -/
lemma walkLevels_cons {target level levels quote base r}
    (e : walkLevels target (level :: levels) quote base = .ok r) (short : quote < target) :
    (readLevel level = none ∧ walkLevels target levels quote base = .ok r) ∨
    ∃ price qty, readLevel level = some (price, qty) ∧
      ((target - quote ≤ price * qty ∧ r = (target, base + (target - quote) / price)) ∨
        (price * qty < target - quote ∧
          walkLevels target levels (quote + price * qty) (base + qty) = .ok r)) := by
  rcases level with _ | ⟨c₀, _ | ⟨c₁, cells⟩⟩
  · exact .inl ⟨rfl, e⟩
  · exact .inl ⟨by cases c₀ <;> rfl, e⟩
  · obtain ⟨price, hprice, e⟩ := Loop.bind_eq_ok.1 e
    obtain ⟨qty, hqty, e⟩ := Loop.bind_eq_ok.1 e
    have hread := readLevel_of_toFloat cells hprice hqty
    split at e
    case isTrue bad => exact .inl ⟨by rw [hread, if_pos bad], e⟩
    case isFalse good =>
      rw [if_neg good] at hread
      have hp : 0 < price := not_le.1 fun h => good (.inl h)
      rw [if_neg (not_le.2 (sub_pos.2 short))] at e
      refine .inr ⟨price, qty, hread, ?_⟩
      rcases le_or_gt (target - quote) (price * qty) with reached | left
      · dsimp only at e
        rw [min_eq_right reached, add_sub_cancel, if_pos le_rfl] at e
        cases e
        exact .inl ⟨reached, rfl⟩
      · dsimp only at e
        rw [min_eq_left left.le, if_neg (by linarith), mul_div_cancel_left₀ qty hp.ne'] at e
        exact .inr ⟨left, e⟩

/-- The walk buys on the price ladder what the rest of the target buys. -/
lemma walkLevels_eq {target levels quote base r}
    (e : walkLevels target levels quote base = .ok r) (short : quote < target) :
    r = (quote + min (target - quote) (total (validLevels levels)),
      base + bought (validLevels levels) (target - quote)) := by
  induction levels generalizing quote base with
  | nil =>
    cases e
    have hle : 0 ≤ target - quote := sub_nonneg.2 short.le
    simp [validLevels, total, bought, hle]
  | cons level levels ih =>
    rcases walkLevels_cons e short with ⟨skip, e⟩ | ⟨price, qty, read, ⟨reached, rfl⟩ | ⟨left, e⟩⟩
    · rw [validLevels, List.filterMap_cons_none skip]
      exact ih e short
    · have hrest := total_nonneg (validLevels_sized levels) (validLevels_priced levels)
      have hvalid : validLevels (level :: levels) = (price, qty) :: validLevels levels :=
        List.filterMap_cons_some read
      rw [hvalid, total_cons, bought, if_pos reached, min_eq_left (by linarith), add_sub_cancel]
    · have hvalid : validLevels (level :: levels) = (price, qty) :: validLevels levels :=
        List.filterMap_cons_some read
      rw [ih e (by linarith), hvalid, total_cons, bought, if_neg (not_le.2 left), ← sub_sub,
        add_assoc, ← min_add_add_left, add_sub_cancel, add_assoc]

/-- The walk returns zeros, or for a positive target the average price of what it buys. -/
lemma impactPriceForQuote_cases {levels target r} (e : impactPriceForQuote levels target = .ok r) :
    r = (0, 0) ∨ 0 < target ∧ 0 < bought (validLevels levels) target ∧
      r = (min target (total (validLevels levels)) / bought (validLevels levels) target,
        bought (validLevels levels) target) := by
  unfold impactPriceForQuote at e
  split at e
  case isTrue => cases e; exact .inl rfl
  case isFalse neg =>
    have pos : 0 < target := not_le.1 neg
    obtain ⟨r, walk, e⟩ := Loop.bind_eq_ok.1 e
    have hr := walkLevels_eq walk pos
    rw [sub_zero, zero_add, zero_add] at hr
    subst hr
    dsimp only at e
    split at e
    case isTrue => cases e; exact .inl rfl
    case isFalse some => cases e; exact .inr ⟨pos, not_le.1 some, rfl⟩

/-- Depth fields that are worth something: the average price of a fill of the ladder. -/
structure Average (levels : List (ℚ × ℚ)) (price base : ℚ) : Prop where
  base_pos : 0 < base
  base_le : base ≤ depth levels
  average : price * base = cost levels base

/-- The walk returns an average price, or zeros. -/
theorem impactPriceForQuote_average {levels target price base}
    (e : impactPriceForQuote levels target = .ok (price, base)) :
    (price = 0 ∧ base = 0) ∨ Average (validLevels levels) price base := by
  rcases impactPriceForQuote_cases e with zero | ⟨pos, some, r⟩
  · exact .inl (Prod.mk.inj zero)
  · cases r
    refine .inr ⟨some, bought_le_depth (validLevels_sized _) (validLevels_priced _) _, ?_⟩
    rw [div_mul_cancel₀ _ some.ne',
      cost_bought (validLevels_sized _) (validLevels_priced _) pos]

/-! ## Snapshots -/

/-- A price and a base quantity that come from a side of an order book, or are missing. -/
def SideOf (levels : List Level) (price base : ℚ) : Prop :=
  (∃ target, impactPriceForQuote levels target = .ok (price, base)) ∨ (price = 0 ∧ base = 0)

/-- The depth fields of a snapshot come from an order book. -/
structure DepthOf (book : OrderBook) (snap : TickerSnapshot) : Prop where
  ask : SideOf book.asks snap.askDepthPrice snap.askDepthBase
  bid : SideOf book.bids snap.bidDepthPrice snap.bidDepthBase

/-- A side with a positive price carries the average price of a fill. -/
lemma SideOf.average {levels price base} (side : SideOf levels price base) (pos : 0 < price) :
    Average (validLevels levels) price base := by
  cases side with
  | inl h =>
    obtain ⟨target, e⟩ := h
    cases impactPriceForQuote_average e with
    | inl zero => exact absurd zero.1 pos.ne'
    | inr average => exact average
  | inr zero => exact absurd zero.1 pos.ne'

/-- A side that `depthOf` returns: what the walk over some levels returns, or nothing. -/
def Walked (cfg : BotConfig) (levels : List Level) (side : ℚ × ℚ) : Prop :=
  impactPriceForQuote levels cfg.orderbookImpactNotionalUsdt = .ok side ∨ side = (0, 0)

/-- Both sides that `depthOf` returns come from one order book. -/
lemma depthOf_walked (cfg client symbol) :
    ∃ book, (client.fetchOrderBook symbol = .ok book ∨ book = ⟨[], []⟩) ∧
      Walked cfg book.asks (depthOf cfg client symbol).1 ∧
      Walked cfg book.bids (depthOf cfg client symbol).2 := by
  unfold depthOf
  split
  case isFalse => exact ⟨⟨[], []⟩, .inr rfl, .inr rfl, .inr rfl⟩
  case isTrue =>
    split
    case h_1 => exact ⟨⟨[], []⟩, .inr rfl, .inr rfl, .inr rfl⟩
    case h_2 book hbook =>
      refine ⟨book, .inl hbook, ?_⟩
      split
      case h_1 => exact ⟨.inr rfl, .inr rfl⟩
      case h_2 ask hask =>
        split
        case h_1 => exact ⟨.inl hask, .inr rfl⟩
        case h_2 bid hbid => exact ⟨.inl hask, .inl hbid⟩

lemma Walked.sideOf {cfg levels side} (walked : Walked cfg levels side) :
    SideOf levels side.1 side.2 := by
  cases walked with
  | inl e => exact .inl ⟨_, e⟩
  | inr zero =>
    rw [zero]
    exact .inr ⟨rfl, rfl⟩

lemma snapshotOf_depthOf (cfg client exchangeName symbol quote) :
    ∃ book, (client.fetchOrderBook symbol = .ok book ∨ book = ⟨[], []⟩) ∧
      DepthOf book (snapshotOf cfg client exchangeName symbol quote) := by
  obtain ⟨book, hbook, ask, bid⟩ := depthOf_walked cfg client symbol
  exact ⟨book, hbook, ask.sideOf, bid.sideOf⟩

/-- The depth fields of a fetched snapshot come from the order book that the client delivers. -/
theorem fetchOne_depthOf {cfg client wsRow clock exchangeName symbol snap}
    (e : fetchOne cfg client wsRow clock exchangeName symbol = some snap) :
    ∃ book, (client.fetchOrderBook symbol = .ok book ∨ book = ⟨[], []⟩) ∧ DepthOf book snap := by
  unfold fetchOne at e
  split at e
  · cases e
  · cases e; exact snapshotOf_depthOf ..
  · split at e
    · cases e
    · cases e
    · cases e; exact snapshotOf_depthOf ..

end ArbBot
