import ArbBot.Exchanges.Fetch

/-!
# What a fetch returns, under any interleaving

The rows of a stream are written by its thread and read by the jobs of a fetch, in any order. Seen from
outside there is a history of events, and a job should depend on the last row that the history has
stored for its exchange and symbol, and on nothing else of it: `lastRow` reads that row off the
history, and `wsRow_run` is the simulation, by induction from the end of the history. `gateway_feeds`
is what every job returns. `stored_pos` is the invariant of the rows.

`keys_fetched_sublist` says what the jobs return under which keys, so that `fetch_all_tickers` builds
a market in which the order of completion is not visible (`fetchAllTickers_order_blind`).
-/

namespace ArbBot

open OpportunityEngine

/-! ## Histories -/

/-- What an event stores in the rows of an exchange: a key and a row. -/
def GatewayEvent.stored (exchangeName : String) : GatewayEvent → Option (String × StreamRow)
  | .binance now data =>
    if exchangeName = "binance" then (binanceMessage now data).toOption.join else none
  | .bybit now message =>
    if exchangeName = "bybit" then (bybitMessage now message).toOption.join else none
  | .fetch _ _ _ _ => none

lemma GatewayEvent.stored_binance (exchangeName now data) :
    (GatewayEvent.binance now data).stored exchangeName =
      if exchangeName = "binance" then (binanceMessage now data).toOption.join else none := rfl

lemma GatewayEvent.stored_bybit (exchangeName now message) :
    (GatewayEvent.bybit now message).stored exchangeName =
      if exchangeName = "bybit" then (bybitMessage now message).toOption.join else none := rfl

/-- The last row that a history stores for an exchange and a symbol. -/
def lastRow (exchangeName symbol : String) (events : List GatewayEvent) : Option StreamRow :=
  ((events.filterMap (·.stored exchangeName)).filter (·.1 = symbol)).getLast?.map Prod.snd

/-- The gateway has a stream for the exchange. -/
def Streamed (enableWebsocketMarketData : Bool) (clients : List String) (exchangeName : String) :
    Prop :=
  enableWebsocketMarketData = true ∧ exchangeName ∈ clients ∧
    (exchangeName = "binance" ∨ exchangeName = "bybit")

instance (enable : Bool) (clients : List String) (exchangeName : String) :
    Decidable (Streamed enable clients exchangeName) :=
  inferInstanceAs (Decidable (_ ∧ _))

lemma lastRow_concat_none {exchangeName symbol : String} {events : List GatewayEvent}
    {event : GatewayEvent} (h : event.stored exchangeName = none) :
    lastRow exchangeName symbol (events ++ [event]) = lastRow exchangeName symbol events := by
  simp [lastRow, List.filterMap_append, h]

lemma lastRow_concat_some {exchangeName symbol key : String} {row : StreamRow}
    {events : List GatewayEvent} {event : GatewayEvent}
    (h : event.stored exchangeName = some (key, row)) :
    lastRow exchangeName symbol (events ++ [event]) =
      if symbol = key then some row else lastRow exchangeName symbol events := by
  by_cases same : symbol = key
  · subst same
    simp [lastRow, List.filterMap_append, h]
  · simp [lastRow, List.filterMap_append, h, same, Ne.symm same]

/-- A message in the rows. -/
lemma get?_store (rows : StreamRows) (written : Written) (symbol : String) :
    (store rows written).get? symbol =
      match written.toOption.join with
      | none => rows.get? symbol
      | some (key, row) => if symbol = key then some row else rows.get? symbol := by
  cases written with
  | error e => rfl
  | ok w =>
    cases w with
    | none => rfl
    | some stored => exact OrdDict.get?_set rows stored.1 symbol stored.2

namespace Gateway

/-- The gateway holds, for every stream, the rows that the history has stored. -/
def Holds (enable : Bool) (clients : List String) (events : List GatewayEvent) (g : Gateway) : Prop :=
  ∀ exchangeName symbol, (g.rowsFor exchangeName).map (·.get? symbol) =
    if Streamed enable clients exchangeName then some (lastRow exchangeName symbol events) else none

lemma holds_init (enable clients) : Holds enable clients [] (init enable clients) := by
  intro exchangeName symbol
  unfold rowsFor
  split
  case isTrue binance =>
    subst binance
    by_cases run : enable = true ∧ "binance" ∈ clients
    · simp [init, Streamed, run, lastRow]
    · rw [if_neg fun h => run ⟨h.1, h.2.1⟩]
      simp [init, run]
  case isFalse other =>
    split
    case isTrue bybit =>
      subst bybit
      by_cases run : enable = true ∧ "bybit" ∈ clients
      · simp [init, Streamed, run, lastRow]
      · rw [if_neg fun h => run ⟨h.1, h.2.1⟩]
        simp [init, run]
    case isFalse another =>
      rw [if_neg fun h => h.2.2.elim other another]
      rfl

/-- One more message of a stream: its rows are written, and the other rows stay. -/
lemma Holds.message {enable clients events g g'} {event : GatewayEvent} {name : String}
    {written : Written} (h : Holds enable clients events g)
    (own : event.stored name = written.toOption.join)
    (others : ∀ exchangeName, exchangeName ≠ name → event.stored exchangeName = none ∧
      g'.rowsFor exchangeName = g.rowsFor exchangeName)
    (rows : g'.rowsFor name = (g.rowsFor name).map (store · written)) :
    Holds enable clients (events ++ [event]) g' := by
  intro exchangeName symbol
  by_cases same : exchangeName = name
  · subst same
    have before := h exchangeName symbol
    rw [rows, Option.map_map]
    cases hrows : g.rowsFor exchangeName with
    | none =>
      rw [hrows, Option.map_none] at before
      split at before
      case isTrue => cases before
      case isFalse off => rw [if_neg off]; rfl
    | some held =>
      rw [hrows, Option.map_some] at before
      split at before
      case isFalse => cases before
      case isTrue on =>
        have before := Option.some.inj before
        rw [if_pos on, Option.map_some, Function.comp_apply, get?_store]
        cases hw : written.toOption.join with
        | none => rw [lastRow_concat_none (own.trans hw)]; exact congrArg some before
        | some stored =>
          obtain ⟨key, row⟩ := stored
          rw [lastRow_concat_some (own.trans hw), ← before]
  · obtain ⟨silent, kept⟩ := others exchangeName same
    rw [kept, h exchangeName symbol, lastRow_concat_none silent]

/-- The gateway keeps up with its history. -/
lemma Holds.next {cfg enable clients events g} (h : Holds enable clients events g)
    (event : GatewayEvent) :
    Holds enable clients (events ++ [event]) ((machine cfg).next g event) := by
  cases event with
  | binance now data =>
    have own := (GatewayEvent.stored_binance "binance" now data).trans (if_pos rfl)
    refine h.message own (fun exchangeName ne => ⟨?_, ?_⟩) rfl
    · rw [GatewayEvent.stored_binance, if_neg ne]
    · simp [rowsFor, ne, Machine.next, machine, step]
  | bybit now message =>
    have own := (GatewayEvent.stored_bybit "bybit" now message).trans (if_pos rfl)
    refine h.message own (fun exchangeName ne => ⟨?_, ?_⟩) rfl
    · rw [GatewayEvent.stored_bybit, if_neg ne]
    · simp [rowsFor, ne, Machine.next, machine, step]
  | fetch name symbol client clock =>
    intro exchangeName symbol'
    rw [lastRow_concat_none (by rfl)]
    exact h exchangeName symbol'

lemma holds_run (cfg enable clients) (events : List GatewayEvent) :
    Holds enable clients events ((machine cfg).run (init enable clients) events) := by
  induction events using List.reverseRecOn with
  | nil => exact holds_init enable clients
  | append_singleton events event ih =>
    rw [Machine.run_concat]
    exact ih.next event

/-- The row that a job reads. -/
theorem wsRow_run (cfg enable clients) (events : List GatewayEvent) (exchangeName symbol) :
    ((machine cfg).run (init enable clients) events).wsRow exchangeName symbol =
      if Streamed enable clients exchangeName
      then (lastRow exchangeName symbol events).map StreamRow.toWsRow else none := by
  have held := holds_run cfg enable clients events exchangeName symbol
  unfold wsRow
  cases hrows : ((machine cfg).run (init enable clients) events).rowsFor exchangeName with
  | none =>
    rw [hrows] at held
    split at held
    case isTrue => cases held
    case isFalse off => rw [if_neg off]; rfl
  | some rows =>
    rw [hrows] at held
    split at held
    case isFalse => cases held
    case isTrue on =>
      have held : rows.get? symbol = lastRow exchangeName symbol events := Option.some.inj held
      rw [if_pos on, Option.bind_some, held]

end Gateway

/-! ## The rows -/

/-- The last lines of both message handlers. -/
lemma written_pos {bid ask : ℚ} {ts : Except PyError ℤ} {key key' : String} {row : StreamRow}
    (h : (if bid ≤ 0 ∨ ask ≤ 0 then return none
      else do
        let ts ← ts
        return some (key, ⟨bid, ask, ts⟩) : Written) = .ok (some (key', row))) :
    0 < row.bid ∧ 0 < row.ask := by
  split at h
  case isTrue => cases h
  case isFalse pos =>
    obtain ⟨ts, _, h⟩ := Loop.bind_eq_ok.1 h
    simp only [pure, Except.pure, Except.ok.injEq, Option.some.injEq, Prod.mk.injEq] at h
    rw [← h.2]
    exact ⟨not_le.1 fun h => pos (.inl h), not_le.1 fun h => pos (.inr h)⟩

/-- What a message stores has two positive prices. -/
lemma stored_pos {exchangeName key : String} {row : StreamRow} {event : GatewayEvent}
    (h : event.stored exchangeName = some (key, row)) : 0 < row.bid ∧ 0 < row.ask := by
  have written : ∀ {w : Written}, w.toOption.join = some (key, row) → w = .ok (some (key, row)) := by
    intro w e
    cases w with
    | error => cases e
    | ok stored => exact congrArg Except.ok e
  cases event with
  | fetch => cases h
  | binance now data =>
    rw [GatewayEvent.stored_binance] at h
    split at h
    case isFalse => cases h
    case isTrue =>
      have h := written h
      unfold binanceMessage at h
      dsimp only at h
      split at h
      case isTrue => cases h
      case isFalse =>
        obtain ⟨bid, _, h⟩ := Loop.bind_eq_ok.1 h
        obtain ⟨ask, _, h⟩ := Loop.bind_eq_ok.1 h
        exact written_pos h
  | bybit now message =>
    rw [GatewayEvent.stored_bybit] at h
    split at h
    case isFalse => cases h
    case isTrue =>
      have h := written h
      unfold bybitMessage at h
      split at h
      · cases h
      · dsimp only at h
        split at h
        case isTrue => cases h
        case isFalse =>
          split at h
          · obtain ⟨bid, _, h⟩ := Loop.bind_eq_ok.1 h
            obtain ⟨ask, _, h⟩ := Loop.bind_eq_ok.1 h
            exact written_pos h
          · cases h

lemma lastRow_pos {exchangeName symbol : String} {events : List GatewayEvent} {row : StreamRow}
    (h : lastRow exchangeName symbol events = some row) : 0 < row.bid ∧ 0 < row.ask := by
  obtain ⟨⟨key, row'⟩, last, rfl⟩ := Option.map_eq_some_iff.1 h
  obtain ⟨mem, _⟩ := List.mem_filter.1 (List.mem_of_getLast? last)
  obtain ⟨event, _, stored⟩ := List.mem_filterMap.1 mem
  exact stored_pos stored

/-! ## The jobs -/

/-- The row that a job uses: the last one stored, if its exchange has a stream and it is young
enough. -/
def freshFeed (cfg : BotConfig) (enable : Bool) (clients : List String) (events : List GatewayEvent)
    (exchangeName symbol : String) (now : ℚ) : Option StreamRow :=
  if Streamed enable clients exchangeName then
    (lastRow exchangeName symbol events).filter fun row =>
      clockMs now - row.timestampMs ≤ cfg.websocketStaleMs
  else none

/-- With a positive row at hand, a job uses it exactly when it is young enough, and else asks the
client. -/
lemma fetchOne_feed (cfg client) (row : Option StreamRow)
    (pos : ∀ r ∈ row, 0 < r.bid ∧ 0 < r.ask) (clock exchangeName symbol) :
    fetchOne cfg client (row.map StreamRow.toWsRow) clock exchangeName symbol =
      match row.filter fun r => clockMs (clock 0) - r.timestampMs ≤ cfg.websocketStaleMs with
      | some r => some (snapshotOf cfg client exchangeName symbol
          ⟨r.bid, r.ask, 0, 0, r.timestampMs, .ws⟩)
      | none => fetchOne cfg client none clock exchangeName symbol := by
  cases row with
  | none => rfl
  | some r =>
    have used := wsQuote_toWsRow cfg (clock 0) r
    rw [Option.map_some]
    by_cases young : clockMs (clock 0) - r.timestampMs ≤ cfg.websocketStaleMs
    · rw [if_pos ⟨young, pos r rfl⟩] at used
      simp only [Option.filter, young, decide_true, if_true, fetchOne, used]
    · rw [if_neg fun h => young h.1] at used
      simp only [Option.filter, young, decide_false, Bool.false_eq_true, if_false, fetchOne, used]
      rfl

/-- What a job returns, however the messages of the two streams and the jobs interleave. Where the
exchange has a stream and the last row that was stored for the symbol is young enough, the snapshot
carries the prices and the time of exactly this row; else it is what the client answers, and the
streams have no part in it. -/
theorem gateway_feeds (cfg : BotConfig) (enable : Bool) (clients : List String)
    (events : List GatewayEvent) (exchangeName symbol : String) (client : Client) (clock : ℕ → ℚ) :
    (Gateway.machine cfg).out ((Gateway.machine cfg).run (Gateway.init enable clients) events)
        (.fetch exchangeName symbol client clock) =
      some (match freshFeed cfg enable clients events exchangeName symbol (clock 0) with
        | some row => some (snapshotOf cfg client exchangeName symbol
            ⟨row.bid, row.ask, 0, 0, row.timestampMs, .ws⟩)
        | none => fetchOne cfg client none clock exchangeName symbol) := by
  have read := Gateway.wsRow_run cfg enable clients events exchangeName symbol
  change some (fetchOne cfg client (Gateway.wsRow _ exchangeName symbol) clock exchangeName symbol) =
    some _
  rw [read, freshFeed]
  split
  case isTrue =>
    rw [fetchOne_feed cfg client _ (fun row h => lastRow_pos h)]
  case isFalse => rfl

/-! ## The market of a fetch -/

/-- A snapshot is stored under the exchange and the symbol of its job. -/
lemma fetchOne_key {cfg client wsRow clock exchangeName symbol snap}
    (h : fetchOne cfg client wsRow clock exchangeName symbol = some snap) :
    keyOf snap = (exchangeName, symbol) := by
  obtain ⟨quote, rfl, _⟩ := fetchOne_eq_some.1 h
  rfl

lemma fetched_fetch (cfg) (g : Gateway) (exchangeName symbol client clock)
    (events : List GatewayEvent) :
    Gateway.fetched cfg g (.fetch exchangeName symbol client clock :: events) =
      fetchOne cfg client (g.wsRow exchangeName symbol) clock exchangeName symbol ::
        Gateway.fetched cfg g events := rfl

/-- The keys of what the jobs return are among the jobs. -/
lemma keys_fetched_sublist (cfg g) (events : List GatewayEvent) :
    ((Gateway.fetched cfg g events).reduceOption.map keyOf).Sublist
      (events.filterMap GatewayEvent.job) := by
  induction events generalizing g with
  | nil => exact List.Sublist.refl []
  | cons event events ih =>
    cases event with
    | binance => exact ih _
    | bybit => exact ih _
    | fetch exchangeName symbol client clock =>
      have job : (GatewayEvent.fetch exchangeName symbol client clock).job =
          some (exchangeName, symbol) := rfl
      rw [fetched_fetch, List.filterMap_cons_some job]
      cases h : fetchOne cfg client (g.wsRow exchangeName symbol) clock exchangeName symbol with
      | none =>
        rw [List.reduceOption_cons_of_none]
        exact (ih g).cons _
      | some snap =>
        rw [List.reduceOption_cons_of_some, List.map_cons, fetchOne_key h]
        exact (ih g).cons_cons _

/-- The jobs of distinct clients and symbols return distinct keys, in whatever order they complete. -/
lemma distinct_of_jobs {cfg g} {clients symbols : List String} {events : List GatewayEvent}
    {completed : List (Option TickerSnapshot)} (distinct : clients.Nodup ∧ symbols.Nodup)
    (jobs : (events.filterMap GatewayEvent.job).Perm (jobsOf clients symbols))
    (h : completed.Perm (Gateway.fetched cfg g events)) :
    (completed.reduceOption.map keyOf).Nodup := by
  have submitted : (events.filterMap GatewayEvent.job).Nodup :=
    jobs.nodup_iff.2 (distinct.1.product distinct.2)
  have returned := (keys_fetched_sublist cfg g events).nodup submitted
  have same : completed.reduceOption.Perm (Gateway.fetched cfg g events).reduceOption :=
    h.filterMap id
  exact (same.map keyOf).nodup_iff.2 returned

/-- In whatever order the jobs of distinct clients and symbols complete, the market reads the same. -/
lemma readsSame_of_jobs {cfg g} {clients symbols : List String} {events : List GatewayEvent}
    {completed completed' : List (Option TickerSnapshot)} (distinct : clients.Nodup ∧ symbols.Nodup)
    (jobs : (events.filterMap GatewayEvent.job).Perm (jobsOf clients symbols))
    (h : completed.Perm (Gateway.fetched cfg g events))
    (h' : completed'.Perm (Gateway.fetched cfg g events)) :
    ReadsSame (fetchAllTickers clients completed) (fetchAllTickers clients completed') := by
  have one := distinct_of_jobs distinct jobs h
  have two := distinct_of_jobs distinct jobs h'
  refine ⟨?_, fun exchange symbol => Option.ext fun snap => ?_⟩
  · rw [fetchAllTickers, fetchAllTickers, keys_foldl_collect, keys_foldl_collect]
  · rw [snapshotAt_fetchAllTickers one, snapshotAt_fetchAllTickers two, (h.trans h'.symm).mem_iff]

/-- The snapshots of a fetch come from its clients. -/
lemma client_of_jobs {cfg g} {clients symbols : List String} {events : List GatewayEvent}
    {completed : List (Option TickerSnapshot)} (distinct : clients.Nodup ∧ symbols.Nodup)
    (jobs : (events.filterMap GatewayEvent.job).Perm (jobsOf clients symbols))
    (h : completed.Perm (Gateway.fetched cfg g events)) :
    ∀ snap ∈ snapshotsOf (fetchAllTickers clients completed), snap.exchange ∈ clients := by
  intro snap mem
  obtain ⟨exchange, symbol, stored⟩ := mem_snapshotsOf.1 mem
  obtain ⟨client, _, key⟩ := (snapshotAt_fetchAllTickers (distinct_of_jobs distinct jobs h)).1 stored
  have name : snap.exchange = exchange := congrArg Prod.fst key
  rw [name]
  exact client

/-- Markets that read the same have the same source counts. -/
lemma sourceCounts_congr {market market' : Market} (same : ReadsSame market market') :
    sourceCounts market = sourceCounts market' := by
  rw [sourceCounts_eq, sourceCounts_eq, countsOf_perm (snapshotsOf_perm same)]

/-- The order in which the jobs complete is not visible. For the jobs of distinct clients and symbols,
interleaved with messages in any way, two orders of completion build markets that list the same
exchanges in the same order and store the same snapshots; every engine, at every clock, makes the same
of both, and the source counts are the same. -/
theorem fetchAllTickers_order_blind {cfg g} {clients symbols : List String}
    {events : List GatewayEvent} {completed completed' : List (Option TickerSnapshot)}
    (distinct : clients.Nodup ∧ symbols.Nodup)
    (jobs : (events.filterMap GatewayEvent.job).Perm (jobsOf clients symbols))
    (h : completed.Perm (Gateway.fetched cfg g events))
    (h' : completed'.Perm (Gateway.fetched cfg g events)) :
    ReadsSame (fetchAllTickers clients completed) (fetchAllTickers clients completed') ∧
    (∀ settings engine clock,
      findOpportunities settings engine (fetchAllTickers clients completed) clock =
        findOpportunities settings engine (fetchAllTickers clients completed') clock) ∧
    sourceCounts (fetchAllTickers clients completed) =
      sourceCounts (fetchAllTickers clients completed') ∧
    (clients ⊆ cfg.exchanges → sourceCountsByExchange cfg (fetchAllTickers clients completed) =
      sourceCountsByExchange cfg (fetchAllTickers clients completed')) := by
  have same := readsSame_of_jobs distinct jobs h h'
  have client := client_of_jobs distinct jobs h
  exact ⟨same, findOpportunities_congr same, sourceCounts_congr same,
    fun known => sourceCountsByExchange_congr same fun snap mem => known (client snap mem)⟩

/-- A fetch of two exchanges, with a message of Bybit in between. -/
def sampleFetch : List GatewayEvent :=
  [.fetch "binance" "BTC/USDT" sampleClient fun _ => 10,
    .bybit 10 ⟨"orderbook.1.BTCUSDT", some ⟨"BTCUSDT", [[.num 99]], [[.num 100]], .num 9000⟩, .none⟩,
    .fetch "bybit" "BTC/USDT" sampleClient fun _ => 10]

/-- The second exchange may well complete first. -/
theorem fetchAllTickers_order_blind_sample :
    let g := Gateway.init true ["binance", "bybit"]
    let completed := Gateway.fetched defaultConfig g sampleFetch
    completed ≠ completed.reverse ∧
      ReadsSame (fetchAllTickers ["binance", "bybit"] completed)
        (fetchAllTickers ["binance", "bybit"] completed.reverse) := by
  refine ⟨by decide +kernel, (@fetchAllTickers_order_blind defaultConfig
    (Gateway.init true ["binance", "bybit"]) ["binance", "bybit"] ["BTC/USDT"] sampleFetch _ _
    ⟨by decide, by decide⟩ ?_ (List.Perm.refl _) (List.reverse_perm _)).1⟩
  exact List.Perm.refl [("binance", "BTC/USDT"), ("bybit", "BTC/USDT")]

end ArbBot
