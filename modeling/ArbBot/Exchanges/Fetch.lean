import ArbBot.Engine.Filters
import ArbBot.Exchanges.Sources
import Mathlib.Data.List.ReduceOption

/-!
# The gateway

Port of `ExchangeGateway` of `src/exchanges.py`: the clients that it builds and the streams that it
holds, and `fetch_all_tickers`. A stream runs in its own thread, and every fetch of a snapshot is a job of its own
in a thread pool, so messages and jobs interleave freely: `machine` takes them one by one, in any order.
What the jobs return is collected as they complete, which is yet another order.

`snapshotAt_fetchAllTickers` says what the collected market stores, in a form that does not mention
the order. `fetchAllTickers_order_blind` is the consequence: the scan and the source counts of the main
loop do not depend on which job completes first.
-/

namespace ArbBot

open OpportunityEngine

/-! ## Clients and streams -/

/-- The body of the loop of `_init_clients`. The module `ccxt` may have no attribute of that name; what the
call of the attribute gives is a client, or an exception where the attribute is no class. -/
def initClient {C : Type} (ccxt : String → Option (Except PyError C)) (clients : OrdDict String C)
    (exchangeName : String) : Except PyError (OrdDict String C) :=
  match ccxt exchangeName with
  | none => .ok clients
  | some called => called.map (clients.set exchangeName)

/-- `_init_clients`. -/
def initClients {C : Type} (ccxt : String → Option (Except PyError C)) (exchanges : List String) :
    Except PyError (OrdDict String C) :=
  exchanges.foldlM (initClient ccxt) .empty

section
variable {C : Type} {ccxt : String → Option (Except PyError C)} {exchanges : List String}
  {clients : OrdDict String C}

lemma initClient_eq_ok {clients' : OrdDict String C} {exchangeName : String} :
    initClient ccxt clients exchangeName = .ok clients' ↔
      (ccxt exchangeName = none ∧ clients' = clients) ∨
      ∃ client, ccxt exchangeName = some (.ok client) ∧ clients' = clients.set exchangeName client := by
  unfold initClient
  cases ccxt exchangeName with
  | none => simp [eq_comm]
  | some called =>
    cases called with
    | error e => simp [Except.map]
    | ok client => simp [Except.map, eq_comm]

/-- The clients are those of the configured exchanges. -/
lemma get?_initClients (e : initClients ccxt exchanges = .ok clients) {exchange : String} {client : C} :
    clients.get? exchange = some client ↔ exchange ∈ exchanges ∧ ccxt exchange = some (.ok client) := by
  refine Loop.foldlM_inv (I := fun entered (clients : OrdDict String C) => ∀ exchange client,
    clients.get? exchange = some client ↔ exchange ∈ entered ∧ ccxt exchange = some (.ok client))
    (fun exchange client => ?_) ?_ e exchange client
  · exact iff_of_false nofun fun held => List.not_mem_nil held.1
  · intro pre name post clients clients' _ held step exchange client
    rw [List.mem_append, List.mem_singleton, or_and_right, ← held]
    rcases initClient_eq_ok.1 step with ⟨none, rfl⟩ | ⟨called, answer, rfl⟩
    · refine ⟨.inl, fun known => known.resolve_right ?_⟩
      rintro ⟨rfl, answer⟩
      rw [none] at answer
      cases answer
    · rw [OrdDict.get?_set]
      split
      case isTrue same =>
        subst same
        constructor
        · intro h
          cases h
          exact .inr ⟨rfl, answer⟩
        · rintro (known | ⟨_, known⟩)
          · have known := ((held exchange client).1 known).2
            rw [answer] at known
            cases known
            rfl
          · rw [answer] at known
            cases known
            rfl
      case isFalse other => exact ⟨.inl, fun known => known.resolve_right fun h => other h.1⟩

/-- The exchanges that have a client are configured ones. -/
lemma initClients_subset (e : initClients ccxt exchanges = .ok clients) : clients.keys ⊆ exchanges := by
  intro exchange held
  obtain ⟨client, held⟩ := OrdDict.mem_keys.1 held
  exact ((get?_initClients e).1 held).1

end

/-- The rows of the two streams, where they have been started. -/
structure Gateway where
  binanceWs : Option StreamRows
  bybitWs : Option StreamRows

/-- A message on a stream, received at a clock reading, or the run of a job. -/
inductive GatewayEvent where
  | binance (now : ℚ) (data : BookTicker)
  | bybit (now : ℚ) (message : BybitMessage)
  | fetch (exchangeName symbol : String) (client : Client) (clock : ℕ → ℚ)

namespace Gateway

/-- `__init__`, for the exchanges that have a client. -/
def init (enableWebsocketMarketData : Bool) (clients : List String) : Gateway where
  binanceWs := if enableWebsocketMarketData ∧ "binance" ∈ clients then some .empty else none
  bybitWs := if enableWebsocketMarketData ∧ "bybit" ∈ clients then some .empty else none

/-- The rows from which `_fetch_one` gets the row of a symbol. -/
def rowsFor (g : Gateway) (exchangeName : String) : Option StreamRows :=
  if exchangeName = "binance" then g.binanceWs
  else if exchangeName = "bybit" then g.bybitWs
  else none

/-- `ws_row`. -/
def wsRow (g : Gateway) (exchangeName symbol : String) : Option WsRow :=
  ((g.rowsFor exchangeName).bind fun rows => rows.get? symbol).map StreamRow.toWsRow

/-- A message is consumed by its stream; a job reads the row of its symbol and fetches. -/
def step (cfg : BotConfig) (g : Gateway) : GatewayEvent → Gateway × Option (Option TickerSnapshot)
  | .binance now data =>
    ({ g with binanceWs := g.binanceWs.map (binanceConsume · (now, data)) }, none)
  | .bybit now message =>
    ({ g with bybitWs := g.bybitWs.map (bybitConsume · (now, message)) }, none)
  | .fetch exchangeName symbol client clock =>
    (g, some (fetchOne cfg client (g.wsRow exchangeName symbol) clock exchangeName symbol))

/-- The gateway with a fixed configuration. -/
def machine (cfg : BotConfig) : Machine Gateway GatewayEvent (Option (Option TickerSnapshot)) :=
  ⟨step cfg⟩

/-- What the jobs of a list of events return. -/
def fetched (cfg : BotConfig) (g : Gateway) (events : List GatewayEvent) :
    List (Option TickerSnapshot) :=
  ((machine cfg).outs g events).reduceOption

end Gateway

/-- The exchange and the symbol of a job. -/
def GatewayEvent.job : GatewayEvent → Option (String × String)
  | .fetch exchangeName symbol _ _ => some (exchangeName, symbol)
  | .binance _ _ => none
  | .bybit _ _ => none

/-! ## `fetch_all_tickers` -/

/-- The jobs that `fetch_all_tickers` submits. -/
def jobsOf (clients symbols : List String) : List (String × String) :=
  clients ×ˢ symbols

/-- The body of the loop over the completed jobs; the exchange of a snapshot has a client. -/
def collect (results : Market) : Option TickerSnapshot → Market
  | none => results
  | some snapshot => results.modify snapshot.exchange fun bySymbol =>
      bySymbol.set snapshot.symbol snapshot

/-- `results` before the loop. -/
def emptyResults (clients : List String) : Market :=
  clients.foldl (fun results exchangeName => results.set exchangeName .empty) .empty

/-- `fetch_all_tickers`, from what its jobs return, in the order in which they complete. -/
def fetchAllTickers (clients : List String) (completed : List (Option TickerSnapshot)) : Market :=
  completed.foldl collect (emptyResults clients)

/-- How many snapshots come from each source (`source_counts`). -/
structure SourceCounts where
  ws : ℕ
  rest : ℕ
  deriving DecidableEq, Repr

/-- Count one more snapshot. -/
def SourceCounts.add (counts : SourceCounts) : MarketDataSource → SourceCounts
  | .ws => { counts with ws := counts.ws + 1 }
  | .rest => { counts with rest := counts.rest + 1 }

/-- All snapshots of a market, in the order of the loops of the source. -/
def snapshotsOf (market : Market) : List TickerSnapshot :=
  market.values.flatMap OrdDict.values

/-- `source_counts`. -/
def sourceCounts (market : Market) : SourceCounts :=
  (snapshotsOf market).foldl (fun counts snap => counts.add snap.marketDataSource) ⟨0, 0⟩

/-- `source_counts_by_exchange`. -/
def sourceCountsByExchange (cfg : BotConfig) (market : Market) : OrdDict String SourceCounts :=
  (snapshotsOf market).foldl (fun counts snap =>
      counts.set snap.exchange ((counts.getD snap.exchange ⟨0, 0⟩).add snap.marketDataSource))
    (cfg.exchanges.foldl (fun counts ex => counts.set ex ⟨0, 0⟩) .empty)

/-! ## What the market stores -/

/-- The exchange and the symbol under which a snapshot is stored. -/
def keyOf (snap : TickerSnapshot) : String × String := (snap.exchange, snap.symbol)

lemma mem_keys_emptyResults {clients : List String} {exchange} :
    exchange ∈ (emptyResults clients).keys ↔ exchange ∈ clients := by
  rw [OrdDict.mem_keys, emptyResults, OrdDict.get?_foldl_set]
  split
  case isTrue h => simp [h]
  case isFalse h => simp [h]

lemma snapshotAt_emptyResults (clients : List String) (exchange symbol) :
    snapshotAt (emptyResults clients) exchange symbol = none := by
  rw [snapshotAt, emptyResults, OrdDict.get?_foldl_set]
  split
  · rfl
  · rfl

lemma keys_collect (results : Market) (c) : (collect results c).keys = results.keys := by
  cases c with
  | none => rfl
  | some snap => exact OrdDict.keys_modify ..

lemma keys_foldl_collect (results : Market) (completed : List (Option TickerSnapshot)) :
    (completed.foldl collect results).keys = results.keys := by
  induction completed generalizing results with
  | nil => rfl
  | cons c completed ih => rw [List.foldl_cons, ih, keys_collect]

/-- The market after one more job. -/
lemma snapshotAt_collect (results : Market) (snap exchange symbol) :
    snapshotAt (collect results (some snap)) exchange symbol =
      if exchange ∈ results.keys ∧ keyOf snap = (exchange, symbol) then some snap
      else snapshotAt results exchange symbol := by
  unfold snapshotAt
  rw [collect, OrdDict.get?_modify]
  by_cases hex : exchange = snap.exchange
  · subst hex
    rw [if_pos rfl]
    cases hget : results.get? snap.exchange with
    | none =>
      have absent : snap.exchange ∉ results.keys := fun h => by
        obtain ⟨_, h⟩ := OrdDict.mem_keys.1 h
        rw [hget] at h
        cases h
      rw [if_neg fun h => absent h.1]
      rfl
    | some bySymbol =>
      have present := OrdDict.mem_keys_of_get? hget
      simp only [Option.map_some, Option.bind_some, OrdDict.get?_set, keyOf, present, true_and,
        Prod.mk.injEq, eq_comm]
  · rw [if_neg hex, if_neg]
    rintro ⟨_, h⟩
    exact hex (congrArg Prod.fst h).symm

/-- The market after some jobs of distinct keys: what they returned, where the exchange has a client,
and else what was there before. -/
lemma snapshotAt_foldl_collect {results : Market} {completed : List (Option TickerSnapshot)}
    (distinct : (completed.reduceOption.map keyOf).Nodup) {exchange symbol snap} :
    snapshotAt (completed.foldl collect results) exchange symbol = some snap ↔
      (exchange ∈ results.keys ∧ some snap ∈ completed ∧ keyOf snap = (exchange, symbol)) ∨
      snapshotAt results exchange symbol = some snap ∧
        ¬(exchange ∈ results.keys ∧ ∃ snap', some snap' ∈ completed ∧
          keyOf snap' = (exchange, symbol)) := by
  induction completed generalizing results with
  | nil => simp
  | cons c completed ih =>
    rw [List.foldl_cons]
    cases c with
    | none =>
      rw [List.reduceOption_cons_of_none] at distinct
      rw [show collect results none = results from rfl, ih distinct]
      simp
    | some first =>
      rw [List.reduceOption_cons_of_some, List.map_cons, List.nodup_cons] at distinct
      have others : ∀ other, some other ∈ completed → keyOf other ≠ keyOf first :=
        fun other mem e => distinct.1 (e ▸ List.mem_map_of_mem (List.reduceOption_mem_iff.2 mem))
      rw [ih distinct.2, keys_collect, snapshotAt_collect]
      by_cases hkey : exchange ∈ results.keys ∧ keyOf first = (exchange, symbol)
      · -- written by the first job, and by none after it
        rw [if_pos hkey]
        have none_after : ¬∃ snap', some snap' ∈ completed ∧ keyOf snap' = (exchange, symbol) :=
          fun ⟨other, mem, e⟩ => others other mem (e.trans hkey.2.symm)
        grind
      · rw [if_neg hkey]
        grind

/-- What the collected market stores, whatever the order of completion. -/
theorem snapshotAt_fetchAllTickers {clients : List String}
    {completed : List (Option TickerSnapshot)}
    (distinct : (completed.reduceOption.map keyOf).Nodup) {exchange symbol snap} :
    snapshotAt (fetchAllTickers clients completed) exchange symbol = some snap ↔
      exchange ∈ clients ∧ some snap ∈ completed ∧ keyOf snap = (exchange, symbol) := by
  rw [fetchAllTickers, snapshotAt_foldl_collect distinct, snapshotAt_emptyResults,
    mem_keys_emptyResults]
  simp

/-! ## Markets that read the same -/

/-- Two markets list the same exchanges in the same order, and store the same snapshots. -/
structure ReadsSame (market market' : Market) : Prop where
  keys : market.keys = market'.keys
  snapshots : ∀ exchange symbol,
    snapshotAt market exchange symbol = snapshotAt market' exchange symbol

/-- What the exchanges hold for a symbol, in the order of the market. -/
lemma map_get?_values (market : Market) (symbol : String) :
    market.values.map (·.get? symbol) = market.keys.map (snapshotAt market · symbol) := by
  rw [OrdDict.values, OrdDict.keys, List.map_map, List.map_map]
  refine List.map_congr_left fun e he => ?_
  rw [Function.comp_apply, Function.comp_apply, snapshotAt, OrdDict.get?_of_mem he]
  rfl

lemma gatherRows_congr {market market' : Market} (same : ReadsSame market market') (cfg nowMs symbol)
    (rejections) :
    gatherRows cfg nowMs symbol market rejections =
      gatherRows cfg nowMs symbol market' rejections := by
  have held : market.values.map (·.get? symbol) = market'.values.map (·.get? symbol) := by
    rw [map_get?_values, map_get?_values, same.keys]
    exact List.map_congr_left fun exchange _ => same.snapshots exchange symbol
  unfold gatherRows
  generalize market.values = held₁ at held ⊢
  generalize market'.values = held₂ at held ⊢
  generalize (([], rejections) : List TickerSnapshot × OrdDict RejectReason ℕ) = gathered
  induction held₁ generalizing held₂ gathered with
  | nil =>
    rw [List.map_nil, eq_comm, List.map_eq_nil_iff] at held
    rw [held]
  | cons bySymbol held₁ ih =>
    cases held₂ with
    | nil => cases held
    | cons bySymbol' held₂ =>
      rw [List.map_cons, List.map_cons, List.cons.injEq] at held
      have head : gatherRow cfg nowMs symbol gathered bySymbol =
          gatherRow cfg nowMs symbol gathered bySymbol' := by
        rw [gatherRow, gatherRow, held.1]
      rw [List.foldl_cons, List.foldl_cons, head]
      exact ih _ held.2 _

/-- A scan sees nothing of a market but what it reads. -/
lemma findOpportunities_congr {market market' : Market} (same : ReadsSame market market')
    (cfg engine clock) :
    findOpportunities cfg engine market clock = findOpportunities cfg engine market' clock := by
  have hsymbol : scanSymbol cfg market clock = scanSymbol cfg market' clock := by
    funext scan symbol
    unfold scanSymbol
    rw [gatherRows_congr same]
  have hmarket : scanMarket cfg engine market clock = scanMarket cfg engine market' clock := by
    unfold scanMarket
    rw [hsymbol]
  unfold findOpportunities
  rw [hmarket]

/-- What a market stores is what it holds. -/
lemma mem_snapshotsOf {market : Market} {snap} :
    snap ∈ snapshotsOf market ↔ ∃ exchange symbol, snapshotAt market exchange symbol = some snap := by
  constructor
  · intro mem
    obtain ⟨bySymbol, hby, hsnap⟩ := List.mem_flatMap.1 mem
    obtain ⟨⟨exchange, _⟩, hex, rfl⟩ := List.mem_map.1 hby
    obtain ⟨⟨symbol, _⟩, hsymbol, rfl⟩ := List.mem_map.1 hsnap
    exact ⟨exchange, symbol, Option.bind_eq_some_iff.2
      ⟨_, OrdDict.get?_of_mem hex, OrdDict.get?_of_mem hsymbol⟩⟩
  · rintro ⟨exchange, symbol, stored⟩
    obtain ⟨bySymbol, hex, hsymbol⟩ := Option.bind_eq_some_iff.1 stored
    exact List.mem_flatMap.2 ⟨bySymbol, List.mem_map.2 ⟨_, OrdDict.mem_of_get? hex, rfl⟩,
      List.mem_map.2 ⟨_, OrdDict.mem_of_get? hsymbol, rfl⟩⟩

/-! ## Source counts -/

/-- The source counts of some snapshots. -/
def countsOf (snaps : List TickerSnapshot) : SourceCounts where
  ws := snaps.countP fun snap => snap.marketDataSource = .ws
  rest := snaps.countP fun snap => snap.marketDataSource = .rest

/-- Two source counts together. -/
def SourceCounts.plus (a b : SourceCounts) : SourceCounts := ⟨a.ws + b.ws, a.rest + b.rest⟩

lemma countsOf_cons (snap) (snaps : List TickerSnapshot) (counts : SourceCounts) :
    counts.plus (countsOf (snap :: snaps)) = (counts.add snap.marketDataSource).plus (countsOf snaps) := by
  cases h : snap.marketDataSource with
  | ws => simp [countsOf, SourceCounts.plus, SourceCounts.add, h, add_assoc, add_comm]
  | rest => simp [countsOf, SourceCounts.plus, SourceCounts.add, h, add_assoc, add_comm]

lemma sourceCounts_eq (market : Market) : sourceCounts market = countsOf (snapshotsOf market) := by
  suffices h : ∀ (snaps : List TickerSnapshot) (counts : SourceCounts),
      snaps.foldl (fun counts snap => counts.add snap.marketDataSource) counts =
        counts.plus (countsOf snaps) from (h _ _).trans (by simp [SourceCounts.plus])
  intro snaps
  induction snaps with
  | nil => intro counts; rfl
  | cons snap snaps ih => intro counts; rw [List.foldl_cons, ih, countsOf_cons]

/-- The counts of an exchange, while the snapshots are counted. -/
lemma getD_countByExchange (snaps : List TickerSnapshot) (counts : OrdDict String SourceCounts) (ex) :
    (snaps.foldl (fun counts snap => counts.set snap.exchange
        ((counts.getD snap.exchange ⟨0, 0⟩).add snap.marketDataSource)) counts).getD ex ⟨0, 0⟩ =
      (counts.getD ex ⟨0, 0⟩).plus (countsOf (snaps.filter (·.exchange = ex))) := by
  induction snaps generalizing counts with
  | nil => rfl
  | cons snap snaps ih =>
    rw [List.foldl_cons, ih, OrdDict.getD_set, List.filter_cons]
    by_cases h : ex = snap.exchange
    · subst h
      rw [if_pos rfl, if_pos (decide_eq_true rfl), countsOf_cons]
    · rw [if_neg h, if_neg (by simpa using Ne.symm h)]

lemma keys_countByExchange {snaps : List TickerSnapshot} {counts : OrdDict String SourceCounts}
    (known : ∀ snap ∈ snaps, snap.exchange ∈ counts.keys) :
    (snaps.foldl (fun counts snap => counts.set snap.exchange
        ((counts.getD snap.exchange ⟨0, 0⟩).add snap.marketDataSource)) counts).keys =
      counts.keys := by
  induction snaps generalizing counts with
  | nil => rfl
  | cons snap snaps ih =>
    have head := OrdDict.keys_set_of_mem ((counts.getD snap.exchange ⟨0, 0⟩).add
      snap.marketDataSource) (known snap List.mem_cons_self)
    rw [List.foldl_cons, ih, head]
    intro other mem
    rw [head]
    exact known other (List.mem_cons_of_mem _ mem)

/-- The counts before the first snapshot. -/
def zeroCounts (cfg : BotConfig) : OrdDict String SourceCounts :=
  cfg.exchanges.foldl (fun counts ex => counts.set ex ⟨0, 0⟩) .empty

lemma mem_keys_zeroCounts {cfg : BotConfig} {ex} : ex ∈ (zeroCounts cfg).keys ↔ ex ∈ cfg.exchanges := by
  rw [OrdDict.mem_keys, zeroCounts, OrdDict.get?_foldl_set]
  split
  case isTrue h => simp [h]
  case isFalse h => simp [h]

lemma getD_zeroCounts (cfg : BotConfig) (ex) : (zeroCounts cfg).getD ex ⟨0, 0⟩ = ⟨0, 0⟩ := by
  rw [OrdDict.getD, zeroCounts, OrdDict.get?_foldl_set]
  split
  · rfl
  · rfl

/-- The counts of an exchange are those of its snapshots. -/
lemma getD_sourceCountsByExchange (cfg : BotConfig) (market : Market) (ex) :
    (sourceCountsByExchange cfg market).getD ex ⟨0, 0⟩ =
      countsOf ((snapshotsOf market).filter (·.exchange = ex)) := by
  rw [sourceCountsByExchange, getD_countByExchange]
  change ((zeroCounts cfg).getD ex ⟨0, 0⟩).plus _ = _
  rw [getD_zeroCounts]
  simp [SourceCounts.plus]

/-- The exchanges that are counted are the configured ones. -/
lemma keys_sourceCountsByExchange {cfg : BotConfig} {market : Market}
    (configured : ∀ snap ∈ snapshotsOf market, snap.exchange ∈ cfg.exchanges) :
    (sourceCountsByExchange cfg market).keys = (zeroCounts cfg).keys :=
  keys_countByExchange fun snap mem => mem_keys_zeroCounts.2 (configured snap mem)

/-- Markets that read the same hold the same snapshots. -/
lemma snapshotsOf_perm {market market' : Market} (same : ReadsSame market market') :
    (snapshotsOf market).Perm (snapshotsOf market') := by
  have held : ∀ market : Market, snapshotsOf market =
      market.keys.flatMap fun ex => (market.getD ex .empty).values := by
    intro market
    rw [snapshotsOf, OrdDict.values, OrdDict.keys, List.flatMap_map, List.flatMap_map]
    refine List.flatMap_congr fun e he => ?_
    rw [OrdDict.getD, OrdDict.get?_of_mem he]
    rfl
  rw [held, held, same.keys]
  refine List.Perm.flatMap_left _ fun ex mem => OrdDict.values_perm fun symbol => ?_
  have stored := same.snapshots ex symbol
  obtain ⟨bySymbol', h'⟩ := OrdDict.mem_keys.1 mem
  obtain ⟨bySymbol, h⟩ := OrdDict.mem_keys.1 (same.keys ▸ mem)
  simpa [snapshotAt, OrdDict.getD, h, h'] using stored

lemma countsOf_perm {snaps snaps' : List TickerSnapshot} (h : snaps.Perm snaps') :
    countsOf snaps = countsOf snaps' := by
  rw [countsOf, countsOf, h.countP_eq, h.countP_eq]

/-- Markets of configured exchanges that read the same have the same counts. -/
lemma sourceCountsByExchange_congr {cfg : BotConfig} {market market' : Market}
    (same : ReadsSame market market')
    (configured : ∀ snap ∈ snapshotsOf market, snap.exchange ∈ cfg.exchanges) :
    sourceCountsByExchange cfg market = sourceCountsByExchange cfg market' := by
  have held := snapshotsOf_perm same
  have keys := keys_sourceCountsByExchange configured
  have keys' := keys_sourceCountsByExchange fun snap mem => configured snap (held.mem_iff.2 mem)
  refine OrdDict.ext_of_keys (keys.trans keys'.symm) fun ex mem => ?_
  rw [OrdDict.get?_of_mem_keys mem ⟨0, 0⟩, OrdDict.get?_of_mem_keys (by rwa [keys', ← keys]) ⟨0, 0⟩,
    getD_sourceCountsByExchange, getD_sourceCountsByExchange, countsOf_perm (held.filter _)]

end ArbBot
