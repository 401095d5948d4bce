import ArbBot.Exchanges.Impact

/-!
# The walk over an order book, exactly

On levels that are made of numbers the walk cannot fail, and it is the greedy fill of the price
ladder of the valid levels: `walkLevels_skip` and `walkLevels_take` are its two steps, and
`impactPriceForQuote_eq` is its value. `impactPriceForQuote_greedy` collects what this says about the
price and the quantity returned, about levels that do not count, about levels behind the target, and
about a larger target.
-/

namespace ArbBot

open Ladder

/-- The level is made of numbers and missing values. -/
def Legible (level : Level) : Prop := ∀ c ∈ level, c ≠ .unreadable

instance : DecidablePred Legible := fun level =>
  inferInstanceAs (Decidable (∀ c ∈ level, c ≠ .unreadable))

lemma toFloat_of_legible {c : Cell} (h : c ≠ .unreadable) : ∃ x, c.toFloat = .ok x := by
  cases c with
  | none => exact ⟨0, rfl⟩
  | num x => exact ⟨x, rfl⟩
  | unreadable => exact absurd rfl h

/-! ## The steps of the walk -/

/-- A level that is not valid is skipped. -/
lemma walkLevels_skip {level : Level} (legible : Legible level) (skip : readLevel level = none)
    (target levels quote base) :
    walkLevels target (level :: levels) quote base = walkLevels target levels quote base := by
  rcases level with _ | ⟨c₀, _ | ⟨c₁, cells⟩⟩
  · rfl
  · cases c₀ <;> rfl
  · obtain ⟨price, hprice⟩ := toFloat_of_legible (legible c₀ (by simp))
    obtain ⟨qty, hqty⟩ := toFloat_of_legible (legible c₁ (by simp))
    rw [readLevel_of_toFloat cells hprice hqty] at skip
    rw [walkLevels, hprice, hqty]
    refine if_pos ?_
    by_contra good
    rw [if_neg good] at skip
    cases skip

/-- A valid level is taken, as far as the target allows. -/
lemma walkLevels_take {level : Level} {price qty target quote : ℚ}
    (read : readLevel level = some (price, qty)) (short : quote < target) (levels base) :
    walkLevels target (level :: levels) quote base =
      if target - quote ≤ price * qty then .ok (target, base + (target - quote) / price)
      else walkLevels target levels (quote + price * qty) (base + qty) := by
  obtain ⟨hp, hq⟩ := readLevel_pos read
  unfold readLevel at read
  split at read
  case h_2 => cases read
  case h_1 =>
    split at read
    case isTrue => cases read
    case isFalse good =>
      cases read
      have remain : ¬target - quote ≤ 0 := not_le.2 (sub_pos.2 short)
      refine (if_neg good).trans ((if_neg remain).trans ?_)
      dsimp only
      rcases le_or_gt (target - quote) (price * qty) with reached | left
      · rw [min_eq_right reached, add_sub_cancel, if_pos le_rfl, if_pos reached]
        rfl
      · rw [min_eq_left left.le, mul_div_cancel_left₀ _ hp.ne', if_neg (by linarith),
          if_neg (not_le.2 left)]

/-- On legible levels the walk returns. -/
lemma walkLevels_total {target levels quote} (legible : ∀ level ∈ levels, Legible level)
    (short : quote < target) (base) : ∃ r, walkLevels target levels quote base = .ok r := by
  induction levels generalizing quote base with
  | nil => exact ⟨_, rfl⟩
  | cons level levels ih =>
    obtain ⟨here, rest⟩ := List.forall_mem_cons.1 legible
    cases read : readLevel level with
    | none =>
      rw [walkLevels_skip here read]
      exact ih rest short base
    | some l =>
      rw [walkLevels_take read short]
      split
      case isTrue => exact ⟨_, rfl⟩
      case isFalse left => exact ih rest (by linarith) _

/-- Levels behind the target are not looked at. -/
lemma walkLevels_append {target levels quote} (legible : ∀ level ∈ levels, Legible level)
    (short : quote < target) (reached : target - quote ≤ total (validLevels levels)) (base more) :
    walkLevels target (levels ++ more) quote base = walkLevels target levels quote base := by
  induction levels generalizing quote base with
  | nil =>
    have : target - quote ≤ 0 := reached
    linarith
  | cons level levels ih =>
    obtain ⟨here, rest⟩ := List.forall_mem_cons.1 legible
    rw [List.cons_append]
    cases read : readLevel level with
    | none =>
      rw [validLevels, List.filterMap_cons_none read] at reached
      rw [walkLevels_skip here read, walkLevels_skip here read]
      exact ih rest short reached base
    | some l =>
      rw [validLevels, List.filterMap_cons_some read, total_cons] at reached
      rw [walkLevels_take read short, walkLevels_take read short]
      split
      case isTrue => rfl
      case isFalse left =>
        refine ih rest (by linarith) ?_ _
        change _ ≤ total (levels.filterMap readLevel)
        linarith

/-! ## Its value -/

/-- What the walk returns is the average price of what the target buys, and how much that is. -/
lemma impactPriceForQuote_eq {levels target} (legible : ∀ level ∈ levels, Legible level)
    (pos : 0 < target) :
    impactPriceForQuote levels target = .ok (if validLevels levels = [] then (0, 0) else
      (min target (total (validLevels levels)) / bought (validLevels levels) target,
        bought (validLevels levels) target)) := by
  obtain ⟨r, walk⟩ := walkLevels_total legible pos 0
  have hr := walkLevels_eq walk pos
  rw [sub_zero, zero_add, zero_add] at hr
  have walked : impactPriceForQuote levels target =
      if r.2 ≤ 0 then .ok (0, 0) else .ok (r.1 / r.2, r.2) := by
    rw [impactPriceForQuote, if_neg (not_le.2 pos), walk]
    rfl
  rw [walked, hr]
  by_cases none : validLevels levels = []
  · rw [none, if_pos rfl]
    exact if_pos le_rfl
  · rw [if_neg none]
    exact if_neg (not_le.2 (bought_pos (validLevels_sized _) (validLevels_priced _) pos none))

/-- The price and the base quantity that a greedy fill of the target gives. -/
structure GreedyFill (levels : List (ℚ × ℚ)) (target price base : ℚ) : Prop where
  missing : (price = 0 ∧ base = 0) ↔ levels = []
  value : price * base = min target (total levels)
  fill : levels ≠ [] → ∃ consumed, Fill levels consumed ∧ consumed ≠ [] ∧ depth consumed = base ∧
    total consumed = price * base ∧ (∃ l ∈ consumed, l.1 ≤ price) ∧ ∃ l ∈ consumed, price ≤ l.1

/-- Spending a positive budget on a ladder is a greedy fill. -/
lemma greedyFill {levels : List (ℚ × ℚ)} {target} (sized : Sized levels) (priced : Priced levels)
    (pos : 0 < target) (ne : levels ≠ []) :
    GreedyFill levels target (min target (total levels) / bought levels target)
      (bought levels target) := by
  have hbase := bought_pos sized priced pos ne
  have hvalue : min target (total levels) / bought levels target * bought levels target =
      min target (total levels) := div_mul_cancel₀ _ hbase.ne'
  refine ⟨iff_of_false (fun zero => hbase.ne' zero.2) ne, hvalue, fun _ => ?_⟩
  have fill := fill_taken priced pos
  have hdepth := depth_taken levels target
  have htotal := total_taken sized priced pos
  obtain ⟨lo, hlo, cheap⟩ := exists_le_average (fill.sized sized) (taken_ne_nil ne target)
  obtain ⟨hi, hhi, dear⟩ := exists_average_le (fill.sized sized) (taken_ne_nil ne target)
  rw [hdepth, htotal] at cheap dear
  exact ⟨_, fill, taken_ne_nil ne target, hdepth, htotal.trans hvalue.symm,
    ⟨lo, hlo, (le_div_iff₀ hbase).2 cheap⟩, ⟨hi, hhi, (div_le_iff₀ hbase).2 dear⟩⟩

/-- Of two budgets, the larger one buys no cheaper on rising prices. -/
lemma average_le_average {levels : List (ℚ × ℚ)} {t t' : ℚ} (sized : Sized levels)
    (priced : Priced levels) (asc : Ascending levels) (ht : 0 < t) (h : t ≤ t') (ne : levels ≠ []) :
    min t (total levels) / bought levels t ≤ min t' (total levels) / bought levels t' := by
  have ht' := ht.trans_le h
  rw [div_le_div_iff₀ (bought_pos sized priced ht ne) (bought_pos sized priced ht' ne),
    ← cost_bought sized priced ht, ← cost_bought sized priced ht']
  exact cost_mul_le sized asc (bought_nonneg sized priced ht.le) (bought_mono sized priced h)
    (bought_le_depth sized priced t')

/-- Of two budgets, the larger one sells no dearer on falling prices. -/
lemma average_ge_average {levels : List (ℚ × ℚ)} {t t' : ℚ} (sized : Sized levels)
    (priced : Priced levels) (desc : Descending levels) (ht : 0 < t) (h : t ≤ t') (ne : levels ≠ []) :
    min t' (total levels) / bought levels t' ≤ min t (total levels) / bought levels t := by
  have ht' := ht.trans_le h
  rw [div_le_div_iff₀ (bought_pos sized priced ht' ne) (bought_pos sized priced ht ne),
    ← cost_bought sized priced ht, ← cost_bought sized priced ht']
  exact mul_cost_le sized desc (bought_nonneg sized priced ht.le) (bought_mono sized priced h)
    (bought_le_depth sized priced t')

/-- The order-book walk fills greedily and exactly. On legible levels and a positive target it returns
a price and a base quantity, which are those of a greedy fill of the valid levels; levels that are not
valid change nothing, nor do levels behind the target; and a larger target gives no lower price on
rising prices and no higher one on falling prices. -/
theorem impactPriceForQuote_greedy {levels target} (legible : ∀ level ∈ levels, Legible level)
    (pos : 0 < target) :
    ∃ price base, impactPriceForQuote levels target = .ok (price, base) ∧
      GreedyFill (validLevels levels) target price base ∧
      (∀ levels', (∀ level ∈ levels', Legible level) → validLevels levels' = validLevels levels →
        impactPriceForQuote levels' target = .ok (price, base)) ∧
      (target ≤ total (validLevels levels) → ∀ more,
        impactPriceForQuote (levels ++ more) target = .ok (price, base)) ∧
      ∀ target', target ≤ target' → ∃ price' base',
        impactPriceForQuote levels target' = .ok (price', base') ∧
        (Ascending (validLevels levels) → price ≤ price') ∧
        (Descending (validLevels levels) → price' ≤ price) := by
  have value := impactPriceForQuote_eq legible pos
  have same : ∀ levels', (∀ level ∈ levels', Legible level) →
      validLevels levels' = validLevels levels →
      impactPriceForQuote levels' target = impactPriceForQuote levels target := fun levels' h e => by
    rw [impactPriceForQuote_eq h pos, e, value]
  have behind : target ≤ total (validLevels levels) → ∀ more,
      impactPriceForQuote (levels ++ more) target = impactPriceForQuote levels target :=
    fun reached more => by
      rw [impactPriceForQuote, impactPriceForQuote,
        walkLevels_append legible pos (by rwa [sub_zero])]
  have sized := validLevels_sized levels
  have priced := validLevels_priced levels
  by_cases none : validLevels levels = []
  · rw [if_pos none] at value
    have missing : GreedyFill (validLevels levels) target 0 0 := by
      refine ⟨iff_of_true ⟨rfl, rfl⟩ none, ?_, fun ne => absurd none ne⟩
      rw [none, zero_mul]
      exact (min_eq_right pos.le).symm
    refine ⟨0, 0, value, missing, fun levels' h e => (same levels' h e).trans value,
      fun reached more => (behind reached more).trans value, fun target' h => ⟨0, 0, ?_, ?_⟩⟩
    · rw [impactPriceForQuote_eq legible (pos.trans_le h), if_pos none]
    · exact ⟨fun _ => le_rfl, fun _ => le_rfl⟩
  · rw [if_neg none] at value
    refine ⟨_, _, value, greedyFill sized priced pos none,
      fun levels' h e => (same levels' h e).trans value,
      fun reached more => (behind reached more).trans value, fun target' h => ?_⟩
    have larger := impactPriceForQuote_eq legible (pos.trans_le h)
    rw [if_neg none] at larger
    exact ⟨_, _, larger, fun asc => average_le_average sized priced asc pos h none,
      fun desc => average_ge_average sized priced desc pos h none⟩

/-- A side of an order book with a level that is too short and one without a price. -/
def sampleAsks : List Level :=
  [[.num 100, .num 1], [.num 100], [.none, .num 2], [.num 101, .num 2]]

/-- A target of 150 takes the first level and a part of the last one. -/
theorem impactPriceForQuote_greedy_sample :
    ∃ price base, impactPriceForQuote sampleAsks 150 = .ok (price, base) ∧
      GreedyFill (validLevels sampleAsks) 150 price base := by
  obtain ⟨price, base, e, fill, _⟩ :=
    @impactPriceForQuote_greedy sampleAsks 150 (by decide) (by norm_num)
  exact ⟨price, base, e, fill⟩

end ArbBot
