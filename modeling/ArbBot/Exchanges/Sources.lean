import ArbBot.Engine.Inversion
import ArbBot.Exchanges.Impact
import ArbBot.Exchanges.Streams

/-!
# Where a snapshot comes from

`_fetch_one` takes its quote from the WebSocket row of the symbol, if the row is usable, and else from
the REST ticker. `wsQuote_eq_some` and `restQuote_eq_some` are the inversions of the two sources, and
`fetchOne_eq_some` puts them together. `fetchOne_wellFormed` says what the engine may rely on:
positive prices, one source for price and time, and depth fields that are both there or both missing.

The gateway and the engine judge the age of a row by two different limits. `keepsMarket_iff` says
exactly when this costs a market that the REST ticker alone would have kept: when the row is young
enough to be used and too old to be scanned.
-/

namespace ArbBot

open Ladder

/-! ## The two sources -/

/-- The gateway uses the row: it is young enough, with two positive prices. -/
structure Usable (cfg : BotConfig) (now : ℚ) (row : WsRow) (bid ask : ℚ) (ts : ℤ) : Prop where
  bid_eq : row.bid = .num bid
  ask_eq : row.ask = .num ask
  ts_eq : row.timestampMs.toInt 0 = .ok ts
  bid_pos : 0 < bid
  ask_pos : 0 < ask
  young : clockMs now - ts ≤ cfg.websocketStaleMs

/-- The ticker reads as the quote: two positive prices, the volumes, and the time. -/
structure Reads (ticker : Ticker) (now : ℚ) (quote : Quote) : Prop where
  bid_eq : ticker.bid = .num quote.bid
  ask_eq : ticker.ask = .num quote.ask
  bidVolume_eq : ticker.bidVolume.toFloat = .ok quote.bidVolume
  askVolume_eq : ticker.askVolume.toFloat = .ok quote.askVolume
  ts_eq : ticker.timestamp.toInt (clockMs now) = .ok quote.timestampMs
  bid_pos : 0 < quote.bid
  ask_pos : 0 < quote.ask
  source : quote.source = .rest

lemma eq_num_of_toFloat {c : Cell} {x : ℚ} (e : c.toFloat = .ok x) (pos : 0 < x) : c = .num x := by
  rcases toFloat_eq_ok e with ⟨_, rfl⟩ | h
  · exact absurd pos (lt_irrefl 0)
  · exact h

/-- Inversion of the WebSocket source. -/
lemma wsQuote_eq_some {cfg now wsRow quote} :
    wsQuote cfg now wsRow = .ok (some quote) ↔ ∃ row bid ask ts, wsRow = some row ∧
      Usable cfg now row bid ask ts ∧ quote = ⟨bid, ask, 0, 0, ts, .ws⟩ := by
  constructor
  · intro e
    cases wsRow with
    | none => cases e
    | some row =>
      obtain ⟨ts, hts, e⟩ := Loop.bind_eq_ok.1 e
      split at e
      case isFalse => cases e
      case isTrue young =>
        obtain ⟨bid, hbid, e⟩ := Loop.bind_eq_ok.1 e
        obtain ⟨ask, hask, e⟩ := Loop.bind_eq_ok.1 e
        split at e
        case isFalse => cases e
        case isTrue pos =>
          cases e
          exact ⟨row, bid, ask, ts, rfl, ⟨eq_num_of_toFloat hbid pos.1, eq_num_of_toFloat hask pos.2,
            hts, pos.1, pos.2, young⟩, rfl⟩
  · rintro ⟨row, bid, ask, ts, rfl, usable, rfl⟩
    refine Loop.bind_eq_ok.2 ⟨ts, usable.ts_eq, ?_⟩
    rw [if_pos usable.young, usable.bid_eq, usable.ask_eq]
    exact if_pos ⟨usable.bid_pos, usable.ask_pos⟩

/-- Inversion of the REST source. -/
lemma restQuote_eq_some {client now symbol quote} :
    restQuote client now symbol = .ok (some quote) ↔
      ∃ ticker, client.fetchTicker symbol = .ok ticker ∧ Reads ticker now quote := by
  constructor
  · intro e
    obtain ⟨ticker, hticker, e⟩ := Loop.bind_eq_ok.1 e
    obtain ⟨bid, hbid, e⟩ := Loop.bind_eq_ok.1 e
    obtain ⟨ask, hask, e⟩ := Loop.bind_eq_ok.1 e
    split at e
    case isTrue => cases e
    case isFalse pos =>
      obtain ⟨bidVolume, hbidVolume, e⟩ := Loop.bind_eq_ok.1 e
      obtain ⟨askVolume, haskVolume, e⟩ := Loop.bind_eq_ok.1 e
      obtain ⟨ts, hts, e⟩ := Loop.bind_eq_ok.1 e
      cases e
      have bid_pos : 0 < bid := not_le.1 fun h => pos (.inl h)
      have ask_pos : 0 < ask := not_le.1 fun h => pos (.inr h)
      exact ⟨ticker, hticker, eq_num_of_toFloat hbid bid_pos, eq_num_of_toFloat hask ask_pos,
        hbidVolume, haskVolume, hts, bid_pos, ask_pos, rfl⟩
  · rintro ⟨ticker, hticker, reads⟩
    have pos : ¬(quote.bid ≤ 0 ∨ quote.ask ≤ 0) :=
      not_or.2 ⟨not_le.2 reads.bid_pos, not_le.2 reads.ask_pos⟩
    obtain ⟨bid, ask, bidVolume, askVolume, ts, source⟩ := quote
    obtain ⟨hbid, hask, hbidVolume, haskVolume, hts, _, _, hsource⟩ := reads
    subst hsource
    refine Loop.bind_eq_ok.2 ⟨ticker, hticker, Loop.bind_eq_ok.2 ⟨bid, ?_, Loop.bind_eq_ok.2
      ⟨ask, ?_, (if_neg pos).trans ?_⟩⟩⟩
    · rw [hbid]; rfl
    · rw [hask]; rfl
    · exact Loop.bind_eq_ok.2 ⟨bidVolume, hbidVolume, Loop.bind_eq_ok.2 ⟨askVolume, haskVolume,
        Loop.bind_eq_ok.2 ⟨ts, hts, rfl⟩⟩⟩

/-- Inversion of `_fetch_one`. -/
lemma fetchOne_eq_some {cfg client wsRow clock exchangeName symbol snap} :
    fetchOne cfg client wsRow clock exchangeName symbol = some snap ↔
      ∃ quote, snap = snapshotOf cfg client exchangeName symbol quote ∧
        (wsQuote cfg (clock 0) wsRow = .ok (some quote) ∨
          wsQuote cfg (clock 0) wsRow = .ok none ∧
            restQuote client (clock 1) symbol = .ok (some quote)) := by
  unfold fetchOne
  cases wsQuote cfg (clock 0) wsRow with
  | error => simp
  | ok ws =>
    cases ws with
    | some quote => simp [eq_comm]
    | none =>
      cases restQuote client (clock 1) symbol with
      | error => simp
      | ok rest =>
        cases rest with
        | none => simp
        | some quote => simp [eq_comm]

/-! ## What the engine may rely on -/

/-- Price and base quantity of a side are both there or both missing, and within the notional. -/
structure SoundSide (notional price base : ℚ) : Prop where
  both : 0 < price ↔ 0 < base
  within : 0 < price → price * base ≤ notional

lemma soundSide_missing (notional) : SoundSide notional 0 0 :=
  ⟨Iff.rfl, fun h => absurd h (lt_irrefl 0)⟩

/-- What the walk over one side of a book returns is sound. -/
lemma impactPriceForQuote_sound {levels target price base}
    (e : impactPriceForQuote levels target = .ok (price, base)) : SoundSide target price base := by
  rcases impactPriceForQuote_cases e with zero | ⟨pos, some, r⟩
  · cases zero
    exact soundSide_missing target
  · cases r
    have ne : validLevels levels ≠ [] := fun none => some.ne' (by rw [none]; rfl)
    have hquote : 0 < min target (total (validLevels levels)) :=
      lt_min pos (total_pos (validLevels_sized _) (validLevels_priced _) ne)
    refine ⟨iff_of_true (div_pos hquote some) some, fun _ => ?_⟩
    rw [div_mul_cancel₀ _ some.ne']
    exact min_le_left _ _

lemma Walked.sound {cfg levels side} (walked : Walked cfg levels side) :
    SoundSide cfg.orderbookImpactNotionalUsdt side.1 side.2 := by
  cases walked with
  | inl e => exact impactPriceForQuote_sound e
  | inr zero =>
    rw [zero]
    exact soundSide_missing _

/-- Both sides of the depth are sound, whatever the book and wherever reading it fails. -/
lemma depthOf_sound (cfg client symbol) :
    SoundSide cfg.orderbookImpactNotionalUsdt (depthOf cfg client symbol).1.1
        (depthOf cfg client symbol).1.2 ∧
      SoundSide cfg.orderbookImpactNotionalUsdt (depthOf cfg client symbol).2.1
        (depthOf cfg client symbol).2.2 := by
  obtain ⟨_, _, ask, bid⟩ := depthOf_walked cfg client symbol
  exact ⟨ask.sound, bid.sound⟩

/-- Prices and time of the snapshot come from one source, which is the source that it names. -/
inductive SingleSourced (cfg : BotConfig) (client : Client) (wsRow : Option WsRow) (clock : ℕ → ℚ)
    (symbol : String) (snap : TickerSnapshot) : Prop where
  | ws {row} (stored : wsRow = some row)
      (usable : Usable cfg (clock 0) row snap.bid snap.ask snap.timestampMs)
      (source : snap.marketDataSource = .ws)
  | rest {ticker} (answered : client.fetchTicker symbol = .ok ticker)
      (bid_eq : ticker.bid = .num snap.bid) (ask_eq : ticker.ask = .num snap.ask)
      (ts_eq : ticker.timestamp.toInt (clockMs (clock 1)) = .ok snap.timestampMs)
      (source : snap.marketDataSource = .rest)

/-- A snapshot that the engine can work with. -/
structure WellFormed (cfg : BotConfig) (client : Client) (wsRow : Option WsRow) (clock : ℕ → ℚ)
    (symbol : String) (snap : TickerSnapshot) : Prop where
  bid_pos : 0 < snap.bid
  ask_pos : 0 < snap.ask
  sourced : SingleSourced cfg client wsRow clock symbol snap
  ws_iff : snap.marketDataSource = .ws ↔
    ∃ row bid ask ts, wsRow = some row ∧ Usable cfg (clock 0) row bid ask ts
  asks : SoundSide cfg.orderbookImpactNotionalUsdt snap.askDepthPrice snap.askDepthBase
  bids : SoundSide cfg.orderbookImpactNotionalUsdt snap.bidDepthPrice snap.bidDepthBase

/-- Every snapshot handed to the engine is well formed and single-sourced, whatever the WebSocket row,
the ticker and the order book hold, and wherever reading them fails. -/
theorem fetchOne_wellFormed {cfg client wsRow clock exchangeName symbol snap}
    (e : fetchOne cfg client wsRow clock exchangeName symbol = some snap) :
    WellFormed cfg client wsRow clock symbol snap := by
  obtain ⟨quote, rfl, h⟩ := fetchOne_eq_some.1 e
  obtain ⟨asks, bids⟩ := depthOf_sound cfg client symbol
  rcases h with h | ⟨unused, h⟩
  · obtain ⟨row, bid, ask, ts, stored, usable, rfl⟩ := wsQuote_eq_some.1 h
    exact ⟨usable.bid_pos, usable.ask_pos, .ws stored usable rfl,
      iff_of_true rfl ⟨row, bid, ask, ts, stored, usable⟩, asks, bids⟩
  · obtain ⟨ticker, answered, reads⟩ := restQuote_eq_some.1 h
    refine ⟨reads.bid_pos, reads.ask_pos, .rest answered reads.bid_eq reads.ask_eq reads.ts_eq
      reads.source, iff_of_false ?_ ?_, asks, bids⟩
    · change quote.source ≠ .ws
      rw [reads.source]
      exact fun h => by cases h
    · -- a usable row would have been used
      rintro ⟨row, bid, ask, ts, stored, usable⟩
      have used := wsQuote_eq_some.2 ⟨row, bid, ask, ts, stored, usable, rfl⟩
      rw [unused] at used
      cases used

/-- A client with one ticker and one order book. -/
def sampleClient : Client where
  fetchTicker _ := .ok
    { bid := .num 100, ask := .num 101, bidVolume := .num 5, askVolume := .none
      timestamp := .num 10000 }
  fetchOrderBook _ := .ok
    { asks := [[.num 101, .num 1], [.unreadable, .num 1]], bids := [[.num 100, .num 2]] }

/-- A row that is two seconds old and one whose ask is missing: the first is used, the second is
not. -/
theorem fetchOne_wellFormed_sample :
    ∃ snap snap',
      WellFormed defaultConfig sampleClient (some ⟨.num 99, .num 100, .num 8000⟩) (fun _ => 10)
        "BTC/USDT" snap ∧
      WellFormed defaultConfig sampleClient (some ⟨.num 99, .none, .num 8000⟩) (fun _ => 10)
        "BTC/USDT" snap' ∧
      snap.marketDataSource = .ws ∧ snap'.marketDataSource = .rest := by
  have used : (fetchOne defaultConfig sampleClient (some ⟨.num 99, .num 100, .num 8000⟩)
      (fun _ => 10) "binance" "BTC/USDT").map (·.marketDataSource) = some .ws := by
    decide +kernel
  have unused : (fetchOne defaultConfig sampleClient (some ⟨.num 99, .none, .num 8000⟩)
      (fun _ => 10) "binance" "BTC/USDT").map (·.marketDataSource) = some .rest := by
    decide +kernel
  obtain ⟨snap, e, source⟩ := Option.map_eq_some_iff.1 used
  obtain ⟨snap', e', source'⟩ := Option.map_eq_some_iff.1 unused
  exact ⟨snap, snap', fetchOne_wellFormed e, fetchOne_wellFormed e', source, source'⟩

/-! ## Two limits for the age of a row -/

/-- The snapshot passes the staleness test of `find_opportunities`. -/
def PassesStaleness (cfg : BotConfig) (nowMs : ℤ) (snap : TickerSnapshot) : Prop :=
  nowMs - snap.timestampMs ≤ cfg.maxDataAgeMs

instance (cfg : BotConfig) (nowMs : ℤ) : DecidablePred (PassesStaleness cfg nowMs) := fun _ =>
  inferInstanceAs (Decidable (_ ≤ _))

/-- The scan takes up the snapshots that pass. -/
lemma freshRow_eq_some {cfg nowMs symbol bySymbol snap} :
    OpportunityEngine.freshRow cfg nowMs symbol bySymbol = some snap ↔
      bySymbol.get? symbol = some snap ∧ PassesStaleness cfg nowMs snap := by
  simp only [OpportunityEngine.freshRow, Option.filter_eq_some_iff, decide_eq_true_eq,
    PassesStaleness]

/-- A market that the REST ticker alone keeps is kept with the row at hand, when both are fetched and
scanned at `now`. -/
def KeepsMarket (cfg : BotConfig) (client : Client) (row : WsRow) (now : ℚ)
    (exchangeName symbol : String) : Prop :=
  ∀ snap, fetchOne cfg client none (fun _ => now) exchangeName symbol = some snap →
    PassesStaleness cfg (clockMs now) snap →
    ∃ snap', fetchOne cfg client (some row) (fun _ => now) exchangeName symbol = some snap' ∧
      PassesStaleness cfg (clockMs now) snap'

/-- The client answers with a ticker that is fresh enough for the engine. -/
def FreshTicker (cfg : BotConfig) (client : Client) (now : ℚ) (symbol : String) : Prop :=
  ∃ ticker quote, client.fetchTicker symbol = .ok ticker ∧ Reads ticker now quote ∧
    clockMs now - quote.timestampMs ≤ cfg.maxDataAgeMs

lemma pyInt_intCast (ts : ℤ) : pyInt ts = ts := by
  unfold pyInt
  split
  · exact Int.floor_intCast ts
  · exact Int.ceil_intCast ts

lemma toInt_intCast (ts : ℤ) : (Cell.num ts).toInt 0 = .ok ts := by
  rw [Cell.toInt, pyInt_intCast]
  split
  case isTrue h => rw [Int.cast_eq_zero.1 h]
  case isFalse => rfl

/-- A row of a stream is used exactly when it is young enough, with two positive prices. -/
lemma wsQuote_toWsRow (cfg now) (row : StreamRow) :
    wsQuote cfg now (some row.toWsRow) = .ok
      (if clockMs now - row.timestampMs ≤ cfg.websocketStaleMs ∧ 0 < row.bid ∧ 0 < row.ask
        then some ⟨row.bid, row.ask, 0, 0, row.timestampMs, .ws⟩ else none) := by
  by_cases used : clockMs now - row.timestampMs ≤ cfg.websocketStaleMs ∧ 0 < row.bid ∧ 0 < row.ask
  · rw [if_pos used]
    exact wsQuote_eq_some.2 ⟨_, row.bid, row.ask, row.timestampMs, rfl,
      ⟨rfl, rfl, toInt_intCast _, used.2.1, used.2.2, used.1⟩, rfl⟩
  · rw [if_neg used]
    refine Loop.bind_eq_ok.2 ⟨row.timestampMs, toInt_intCast _, ?_⟩
    split
    case isTrue young => exact if_neg fun pos => used ⟨young, pos⟩
    case isFalse => rfl

/-- Without a row the snapshot is the one of the ticker. -/
lemma fetchOne_rest {cfg client now exchangeName symbol snap} :
    fetchOne cfg client none (fun _ => now) exchangeName symbol = some snap ↔
      ∃ ticker quote, client.fetchTicker symbol = .ok ticker ∧ Reads ticker now quote ∧
        snap = snapshotOf cfg client exchangeName symbol quote := by
  rw [fetchOne_eq_some]
  constructor
  · rintro ⟨quote, hsnap, h | ⟨_, h⟩⟩
    · cases h
    · obtain ⟨ticker, answered, reads⟩ := restQuote_eq_some.1 h
      exact ⟨ticker, quote, answered, reads, hsnap⟩
  · rintro ⟨ticker, quote, answered, reads, hsnap⟩
    exact ⟨quote, hsnap, .inr ⟨rfl, restQuote_eq_some.2 ⟨ticker, answered, reads⟩⟩⟩

/-- When a row costs a market. A market that a fresh ticker keeps is kept with the row at hand exactly
when the row is not used, being too old for the gateway or without two positive prices, or is young
enough for the engine too. -/
theorem keepsMarket_iff (cfg client now exchangeName symbol) (row : StreamRow) :
    KeepsMarket cfg client row.toWsRow now exchangeName symbol ↔
      (FreshTicker cfg client now symbol → clockMs now - row.timestampMs ≤ cfg.websocketStaleMs →
        0 < row.bid → 0 < row.ask → clockMs now - row.timestampMs ≤ cfg.maxDataAgeMs) := by
  have hws := wsQuote_toWsRow cfg now row
  constructor
  · rintro keeps ⟨ticker, quote, answered, reads, fresh⟩ young hbid hask
    obtain ⟨snap, e, passes⟩ := keeps _ (fetchOne_rest.2 ⟨ticker, quote, answered, reads, rfl⟩) fresh
    rw [if_pos ⟨young, hbid, hask⟩] at hws
    rw [fetchOne, hws] at e
    cases e
    exact passes
  · intro limits snap e passes
    obtain ⟨ticker, quote, answered, reads, rfl⟩ := fetchOne_rest.1 e
    split at hws
    case isTrue used =>
      refine ⟨_, fetchOne_eq_some.2 ⟨_, rfl, .inl hws⟩, ?_⟩
      exact limits ⟨ticker, quote, answered, reads, passes⟩ used.1 used.2.1 used.2.2
    case isFalse =>
      have rest := restQuote_eq_some.2 ⟨ticker, answered, reads⟩
      exact ⟨_, fetchOne_eq_some.2 ⟨quote, rfl, .inr ⟨hws, rest⟩⟩, passes⟩

/-- When the gateway is no more patient than the engine, no row costs a market. -/
lemma keepsMarket_of_limits {cfg : BotConfig} (h : cfg.websocketStaleMs ≤ cfg.maxDataAgeMs)
    (client now exchangeName symbol) (row : StreamRow) :
    KeepsMarket cfg client row.toWsRow now exchangeName symbol :=
  (keepsMarket_iff ..).2 fun _ young _ _ => young.trans h

/-- A row of five seconds ago, at ten seconds. -/
def oldRow : StreamRow := ⟨99, 100, 5000⟩

/-- The default limits are 6000 ms for the gateway and 3500 ms for the engine: a row that is 5000 ms
old replaces a fresh ticker and is then dropped as stale. -/
theorem row_costs_market :
    0 < defaultConfig.websocketStaleMs ∧ 0 < defaultConfig.maxDataAgeMs ∧
      ¬KeepsMarket defaultConfig sampleClient oldRow.toWsRow 10 "binance" "BTC/USDT" := by
  refine ⟨by decide, by decide, fun keeps => ?_⟩
  have rest : (fetchOne defaultConfig sampleClient none (fun _ => 10) "binance" "BTC/USDT").map
      (fun snap => decide (PassesStaleness defaultConfig (clockMs 10) snap)) = some true := by
    decide +kernel
  have ws : (fetchOne defaultConfig sampleClient (some oldRow.toWsRow) (fun _ => 10) "binance"
      "BTC/USDT").map (fun snap => decide (PassesStaleness defaultConfig (clockMs 10) snap)) =
      some false := by
    decide +kernel
  obtain ⟨snap, e, passes⟩ := Option.map_eq_some_iff.1 rest
  obtain ⟨snap', e', passes'⟩ := keeps snap e (of_decide_eq_true passes)
  rw [e', Option.map_some, decide_eq_true passes'] at ws
  cases ws

end ArbBot
