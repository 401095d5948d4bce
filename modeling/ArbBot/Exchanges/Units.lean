import ArbBot.Engine.Units
import ArbBot.Exchanges.Fetch

/-!
# Market data in another unit of money

The gateway on answers and messages with their prices in another unit, one old unit being `k` new ones.
A walk over an order book takes the same quantities (`walkLevels_inUnit`), a job returns the same
snapshot and a message writes the same row in the new unit (`fetchOne_inUnit`, `Gateway.step_inUnit`),
and so the market that is collected is the same in the new unit (`fetchAllTickers_inUnit`).
-/

namespace ArbBot

/-! ## Answers and messages -/

/-- The value, with money in another unit. -/
def Cell.inUnit (k : ℚ) : Cell → Cell
  | .none => .none
  | .num x => .num (k * x)
  | .unreadable => .unreadable

/-- The level, with its price in another unit. -/
def Level.inUnit (k : ℚ) : Level → Level
  | [] => []
  | price :: rest => price.inUnit k :: rest

/-- The order book, with prices in another unit. -/
def OrderBook.inUnit (k : ℚ) (book : OrderBook) : OrderBook where
  asks := book.asks.map (Level.inUnit k)
  bids := book.bids.map (Level.inUnit k)

/-- The ticker, with prices in another unit. -/
def Ticker.inUnit (k : ℚ) (ticker : Ticker) : Ticker :=
  { ticker with bid := ticker.bid.inUnit k, ask := ticker.ask.inUnit k }

/-- The row, with prices in another unit. -/
def WsRow.inUnit (k : ℚ) (row : WsRow) : WsRow :=
  { row with bid := row.bid.inUnit k, ask := row.ask.inUnit k }

/-- The row of a stream, with prices in another unit. -/
def StreamRow.inUnit (k : ℚ) (row : StreamRow) : StreamRow :=
  { row with bid := k * row.bid, ask := k * row.ask }

/-- The client, answering in another unit. -/
def Client.inUnit (k : ℚ) (client : Client) : Client where
  fetchTicker symbol := (client.fetchTicker symbol).map (Ticker.inUnit k)
  fetchOrderBook symbol := (client.fetchOrderBook symbol).map (OrderBook.inUnit k)

/-- The message, with prices in another unit. -/
def BookTicker.inUnit (k : ℚ) (data : BookTicker) : BookTicker :=
  { data with bid := data.bid.inUnit k, ask := data.ask.inUnit k }

/-- The message, with prices in another unit. -/
def BybitMessage.inUnit (k : ℚ) (m : BybitMessage) : BybitMessage :=
  { m with
    data := m.data.map fun data => { data with
      bids := data.bids.map (Level.inUnit k)
      asks := data.asks.map (Level.inUnit k) } }

/-- The event, with prices in another unit. -/
def GatewayEvent.inUnit (k : ℚ) : GatewayEvent → GatewayEvent
  | .binance now data => .binance now (data.inUnit k)
  | .bybit now message => .bybit now (message.inUnit k)
  | .fetch exchangeName symbol client clock => .fetch exchangeName symbol (client.inUnit k) clock

/-- The quote, with prices in another unit. -/
def Quote.inUnit (k : ℚ) (quote : Quote) : Quote :=
  { quote with bid := k * quote.bid, ask := k * quote.ask }

/-- The gateway, with prices in another unit. -/
def Gateway.inUnit (k : ℚ) (g : Gateway) : Gateway where
  binanceWs := g.binanceWs.map (OrdDict.mapVal (StreamRow.inUnit k))
  bybitWs := g.bybitWs.map (OrdDict.mapVal (StreamRow.inUnit k))

/-- A side of the depth, with its price in another unit. -/
def sideInUnit (k : ℚ) (side : ℚ × ℚ) : ℚ × ℚ := (k * side.1, side.2)

/-! ## Order books -/

variable {k : ℚ}

lemma toFloat_inUnit (k : ℚ) (c : Cell) : (c.inUnit k).toFloat = c.toFloat.map (k * ·) := by
  cases c with
  | none => exact congrArg Except.ok (mul_zero k).symm
  | num x => rfl
  | unreadable => rfl

/-- The walk takes the same quantities. -/
lemma walkLevels_inUnit (pos : 0 < k) (target : ℚ) (levels : List Level) (quote base : ℚ) :
    walkLevels (k * target) (levels.map (Level.inUnit k)) (k * quote) base =
      (walkLevels target levels quote base).map (sideInUnit k) := by
  induction levels generalizing quote base with
  | nil => rfl
  | cons level levels ih =>
    match level with
    | [] => exact ih quote base
    | [_] => exact ih quote base
    | c₀ :: c₁ :: cells =>
      show walkLevels _ ((c₀.inUnit k :: c₁ :: cells) :: levels.map (Level.inUnit k)) _ _ = _
      rw [walkLevels, walkLevels, toFloat_inUnit]
      cases c₀.toFloat with
      | error e => rfl
      | ok price =>
        cases c₁.toFloat with
        | error e => rfl
        | ok qty =>
          have skipped : k * price ≤ 0 ∨ qty ≤ 0 ↔ price ≤ 0 ∨ qty ≤ 0 :=
            or_congr_left (nonpos_inUnit pos)
          have remain : k * target - k * quote = k * (target - quote) := (mul_sub ..).symm
          have take : min (k * price * qty) (k * (target - quote)) =
              k * min (price * qty) (target - quote) := by
            rw [mul_assoc, mul_min_of_nonneg _ _ pos.le]
          show ite _ _ _ = Except.map _ (ite _ _ _)
          dsimp only
          rw [remain, take, mul_div_mul_left _ _ pos.ne', ← mul_add, apply_ite (Except.map _),
            apply_ite (Except.map _), apply_ite (Except.map _)]
          refine if_congr skipped (ih quote base) (if_congr (nonpos_inUnit pos) rfl ?_)
          exact if_congr (mul_le_mul_iff_right₀ pos) rfl (ih _ _)

lemma impactPriceForQuote_inUnit (pos : 0 < k) (levels : List Level) (target : ℚ) :
    impactPriceForQuote (levels.map (Level.inUnit k)) (k * target) =
      (impactPriceForQuote levels target).map (sideInUnit k) := by
  have walk := walkLevels_inUnit pos target levels 0 0
  have nothing : sideInUnit k (0, 0) = (0, 0) := by rw [sideInUnit, mul_zero]
  rw [mul_zero] at walk
  rw [impactPriceForQuote, impactPriceForQuote, apply_ite (Except.map _), walk]
  refine if_congr (nonpos_inUnit pos) (congrArg Except.ok nothing.symm) ?_
  cases walkLevels target levels 0 0 with
  | error e => rfl
  | ok taken =>
    obtain ⟨quote, base⟩ := taken
    show ite _ _ _ = Except.map _ (ite _ _ _)
    rw [apply_ite (Except.map _)]
    refine if_congr Iff.rfl (congrArg Except.ok nothing.symm) (congrArg Except.ok ?_)
    rw [sideInUnit, mul_div_assoc]

/-- The depth of a market. -/
lemma depthOf_inUnit (pos : 0 < k) (cfg : BotConfig) (client : Client) (symbol : String) :
    depthOf (cfg.inUnit k) (client.inUnit k) symbol =
      (sideInUnit k (depthOf cfg client symbol).1, sideInUnit k (depthOf cfg client symbol).2) := by
  have nothing : sideInUnit k (0, 0) = (0, 0) := by rw [sideInUnit, mul_zero]
  have walk := fun levels => impactPriceForQuote_inUnit pos levels cfg.orderbookImpactNotionalUsdt
  unfold depthOf
  rw [show (cfg.inUnit k).enableOrderbookDepth = cfg.enableOrderbookDepth from rfl]
  cases cfg.enableOrderbookDepth with
  | false => exact Prod.ext nothing.symm nothing.symm
  | true =>
    simp only [if_true, Client.inUnit]
    cases client.fetchOrderBook symbol with
    | error e => exact Prod.ext nothing.symm nothing.symm
    | ok book =>
      simp only [Except.map, OrderBook.inUnit, BotConfig.inUnit, walk]
      cases impactPriceForQuote book.asks cfg.orderbookImpactNotionalUsdt with
      | error e => exact Prod.ext nothing.symm nothing.symm
      | ok ask =>
        cases impactPriceForQuote book.bids cfg.orderbookImpactNotionalUsdt with
        | error e => exact Prod.ext rfl nothing.symm
        | ok bid => rfl

/-! ## Jobs -/

lemma wsQuote_inUnit (pos : 0 < k) (cfg : BotConfig) (now : ℚ) (row : Option WsRow) :
    wsQuote (cfg.inUnit k) now (row.map (WsRow.inUnit k)) =
      (wsQuote cfg now row).map (Option.map (Quote.inUnit k)) := by
  cases row with
  | none => rfl
  | some row =>
    rw [Option.map_some, wsQuote, wsQuote, WsRow.inUnit, toFloat_inUnit, toFloat_inUnit]
    cases row.timestampMs.toInt 0 with
    | error e => rfl
    | ok wsTs =>
      show ite _ _ _ = Except.map _ (ite _ _ _)
      rw [apply_ite (Except.map _)]
      refine if_congr Iff.rfl ?_ rfl
      cases row.bid.toFloat with
      | error e => rfl
      | ok bid =>
        cases row.ask.toFloat with
        | error e => rfl
        | ok ask =>
          have positive : 0 < k * bid ∧ 0 < k * ask ↔ 0 < bid ∧ 0 < ask :=
            and_congr (mul_pos_iff_of_pos_left pos) (mul_pos_iff_of_pos_left pos)
          show ite _ _ _ = Except.map _ (ite _ _ _)
          rw [apply_ite (Except.map _)]
          exact if_congr positive rfl rfl

lemma restQuote_inUnit (pos : 0 < k) (client : Client) (now : ℚ) (symbol : String) :
    restQuote (client.inUnit k) now symbol =
      (restQuote client now symbol).map (Option.map (Quote.inUnit k)) := by
  rw [restQuote, restQuote,
    show (client.inUnit k).fetchTicker symbol = (client.fetchTicker symbol).map (Ticker.inUnit k) from rfl]
  cases client.fetchTicker symbol with
  | error e => rfl
  | ok ticker =>
    show Except.bind (ticker.bid.inUnit k).toFloat _ = Except.map _ (Except.bind ticker.bid.toFloat _)
    rw [toFloat_inUnit]
    cases ticker.bid.toFloat with
    | error e => rfl
    | ok bid =>
      show Except.bind (ticker.ask.inUnit k).toFloat _ = Except.map _ (Except.bind ticker.ask.toFloat _)
      rw [toFloat_inUnit]
      cases ticker.ask.toFloat with
      | error e => rfl
      | ok ask =>
        have refused : k * bid ≤ 0 ∨ k * ask ≤ 0 ↔ bid ≤ 0 ∨ ask ≤ 0 :=
          or_congr (nonpos_inUnit pos) (nonpos_inUnit pos)
        show ite _ _ _ = Except.map _ (ite _ _ _)
        rw [apply_ite (Except.map _)]
        refine if_congr refused rfl ?_
        show Except.bind ticker.bidVolume.toFloat _ = Except.map _ (Except.bind ticker.bidVolume.toFloat _)
        cases ticker.bidVolume.toFloat with
        | error e => rfl
        | ok bidVolume =>
          show Except.bind ticker.askVolume.toFloat _ =
            Except.map _ (Except.bind ticker.askVolume.toFloat _)
          cases ticker.askVolume.toFloat with
          | error e => rfl
          | ok askVolume =>
            show Except.bind (ticker.timestamp.toInt _) _ =
              Except.map _ (Except.bind (ticker.timestamp.toInt _) _)
            cases ticker.timestamp.toInt (clockMs now) with
            | error e => rfl
            | ok timestampMs => rfl

lemma snapshotOf_inUnit (pos : 0 < k) (cfg : BotConfig) (client : Client) (exchangeName symbol : String)
    (quote : Quote) :
    snapshotOf (cfg.inUnit k) (client.inUnit k) exchangeName symbol (quote.inUnit k) =
      (snapshotOf cfg client exchangeName symbol quote).inUnit k := by
  rw [snapshotOf, depthOf_inUnit pos]
  rfl

/-- A job in another unit of money. -/
lemma fetchOne_inUnit (pos : 0 < k) (cfg : BotConfig) (client : Client) (wsRow : Option WsRow)
    (clock : ℕ → ℚ) (exchangeName symbol : String) :
    fetchOne (cfg.inUnit k) (client.inUnit k) (wsRow.map (WsRow.inUnit k)) clock exchangeName symbol =
      (fetchOne cfg client wsRow clock exchangeName symbol).map (TickerSnapshot.inUnit k) := by
  unfold fetchOne
  rw [wsQuote_inUnit pos, restQuote_inUnit pos]
  cases wsQuote cfg (clock 0) wsRow with
  | error e => rfl
  | ok quote =>
    cases quote with
    | some quote => exact congrArg some (snapshotOf_inUnit pos ..)
    | none =>
      cases restQuote client (clock 1) symbol with
      | error e => rfl
      | ok quote =>
        cases quote with
        | none => rfl
        | some quote => exact congrArg some (snapshotOf_inUnit pos ..)

/-! ## Messages -/

/-- What a message writes, in another unit. -/
def Written.inUnit (k : ℚ) (written : Written) : Written :=
  written.map (Option.map (Prod.map id (StreamRow.inUnit k)))

lemma store_inUnit (k : ℚ) (rows : StreamRows) (written : Written) :
    store (rows.mapVal (StreamRow.inUnit k)) (written.inUnit k) =
      (store rows written).mapVal (StreamRow.inUnit k) := by
  cases written with
  | error e => rfl
  | ok written =>
    cases written with
    | none => rfl
    | some entry => exact OrdDict.set_mapVal rows entry.1 entry.2

/-- The end of a message, once its prices are found: both must be positive, and its time readable. -/
lemma written_inUnit (pos : 0 < k) (key : String) (bidCell askCell : Cell) (time : Except PyError ℤ) :
    (do
      let bid ← (bidCell.inUnit k).toFloat
      let ask ← (askCell.inUnit k).toFloat
      if bid ≤ 0 ∨ ask ≤ 0 then return none
      else
        let ts ← time
        return some (key, ⟨bid, ask, ts⟩) : Written) =
      Written.inUnit k (do
        let bid ← bidCell.toFloat
        let ask ← askCell.toFloat
        if bid ≤ 0 ∨ ask ≤ 0 then return none
        else
          let ts ← time
          return some (key, ⟨bid, ask, ts⟩)) := by
  rw [toFloat_inUnit, toFloat_inUnit]
  cases bidCell.toFloat with
  | error e => rfl
  | ok bid =>
    cases askCell.toFloat with
    | error e => rfl
    | ok ask =>
      have refused : k * bid ≤ 0 ∨ k * ask ≤ 0 ↔ bid ≤ 0 ∨ ask ≤ 0 :=
        or_congr (nonpos_inUnit pos) (nonpos_inUnit pos)
      show ite _ _ _ = Except.map _ (ite _ _ _)
      rw [apply_ite (Except.map _)]
      refine if_congr refused rfl ?_
      cases time with
      | error e => rfl
      | ok ts => rfl

lemma binanceMessage_inUnit (pos : 0 < k) (now : ℚ) (data : BookTicker) :
    binanceMessage now (data.inUnit k) = Written.inUnit k (binanceMessage now data) := by
  unfold binanceMessage
  dsimp only [BookTicker.inUnit]
  rw [apply_ite (Written.inUnit k)]
  exact if_congr Iff.rfl rfl (written_inUnit pos ..)

lemma bybitMessage_inUnit (pos : 0 < k) (now : ℚ) (m : BybitMessage) :
    bybitMessage now (m.inUnit k) = Written.inUnit k (bybitMessage now m) := by
  obtain ⟨topic, data, ts⟩ := m
  cases data with
  | none => rfl
  | some data =>
    obtain ⟨symbol, bids, asks, dataTs⟩ := data
    unfold bybitMessage
    dsimp only [BybitMessage.inUnit, Option.map_some, bybitSymbol]
    rw [apply_ite (Written.inUnit k)]
    refine if_congr Iff.rfl rfl ?_
    -- without a price on top of both sides, nothing is written
    cases bids with
    | nil => rfl
    | cons bidLevel bids =>
      cases bidLevel with
      | nil => rfl
      | cons topBid _ =>
        cases asks with
        | nil => rfl
        | cons askLevel asks =>
          cases askLevel with
          | nil => rfl
          | cons topAsk _ => exact written_inUnit pos ..

/-! ## The gateway -/

lemma wsRow_inUnit (k : ℚ) (g : Gateway) (exchangeName symbol : String) :
    (g.inUnit k).wsRow exchangeName symbol = (g.wsRow exchangeName symbol).map (WsRow.inUnit k) := by
  have rows : (g.inUnit k).rowsFor exchangeName =
      (g.rowsFor exchangeName).map (OrdDict.mapVal (StreamRow.inUnit k)) := by
    rw [Gateway.rowsFor, Gateway.rowsFor, apply_ite (Option.map _), apply_ite (Option.map _)]
    rfl
  rw [Gateway.wsRow, Gateway.wsRow, rows]
  cases g.rowsFor exchangeName with
  | none => rfl
  | some stored =>
    show Option.map _ ((stored.mapVal (StreamRow.inUnit k)).get? symbol) = _
    rw [OrdDict.get?_mapVal]
    show _ = Option.map _ (Option.map _ (stored.get? symbol))
    rw [Option.map_map, Option.map_map]
    rfl

namespace Gateway

/-- A fresh gateway holds no rows, in either unit. -/
lemma init_inUnit (k : ℚ) (enableWebsocketMarketData : Bool) (clients : List String) :
    (init enableWebsocketMarketData clients).inUnit k = init enableWebsocketMarketData clients := by
  rw [init, inUnit, apply_ite (Option.map _), apply_ite (Option.map _)]
  rfl

/-- An event at the gateway, in both units. -/
lemma step_inUnit (pos : 0 < k) (cfg : BotConfig) (g : Gateway) (event : GatewayEvent) :
    (machine (cfg.inUnit k)).next (g.inUnit k) (event.inUnit k) = ((machine cfg).next g event).inUnit k ∧
      (machine (cfg.inUnit k)).out (g.inUnit k) (event.inUnit k) =
        ((machine cfg).out g event).map (Option.map (TickerSnapshot.inUnit k)) := by
  cases event with
  | binance now data =>
    refine ⟨?_, rfl⟩
    have message : (fun rows => binanceConsume rows (now, data.inUnit k)) ∘
          OrdDict.mapVal (StreamRow.inUnit k) =
        OrdDict.mapVal (StreamRow.inUnit k) ∘ fun rows => binanceConsume rows (now, data) := by
      funext rows
      show store _ (binanceMessage now (data.inUnit k)) = _
      rw [binanceMessage_inUnit pos, store_inUnit]
      rfl
    show Gateway.mk (Option.map _ (Option.map _ g.binanceWs)) _ =
      Gateway.mk (Option.map _ (Option.map _ g.binanceWs)) _
    rw [Option.map_map, Option.map_map, message]
    rfl
  | bybit now m =>
    refine ⟨?_, rfl⟩
    have message : (fun rows => bybitConsume rows (now, m.inUnit k)) ∘
          OrdDict.mapVal (StreamRow.inUnit k) =
        OrdDict.mapVal (StreamRow.inUnit k) ∘ fun rows => bybitConsume rows (now, m) := by
      funext rows
      show store _ (bybitMessage now (m.inUnit k)) = _
      rw [bybitMessage_inUnit pos, store_inUnit]
      rfl
    show Gateway.mk _ (Option.map _ (Option.map _ g.bybitWs)) =
      Gateway.mk _ (Option.map _ (Option.map _ g.bybitWs))
    rw [Option.map_map, Option.map_map, message]
    rfl
  | fetch exchangeName symbol client clock =>
    refine ⟨rfl, congrArg some ?_⟩
    rw [wsRow_inUnit]
    exact fetchOne_inUnit pos ..

/-- A run of the gateway, in both units. -/
lemma run_inUnit (pos : 0 < k) (cfg : BotConfig) (g : Gateway) (events : List GatewayEvent) :
    fetched (cfg.inUnit k) (g.inUnit k) (events.map (GatewayEvent.inUnit k)) =
        (fetched cfg g events).map (Option.map (TickerSnapshot.inUnit k)) ∧
      (machine (cfg.inUnit k)).run (g.inUnit k) (events.map (GatewayEvent.inUnit k)) =
        ((machine cfg).run g events).inUnit k := by
  have follows : ∀ g g' event, g' = g.inUnit k →
      (machine (cfg.inUnit k)).next g' (event.inUnit k) = ((machine cfg).next g event).inUnit k ∧
        (machine (cfg.inUnit k)).out g' (event.inUnit k) =
          ((machine cfg).out g event).map (Option.map (TickerSnapshot.inUnit k)) :=
    fun g g' event same => same ▸ step_inUnit pos cfg g event
  obtain ⟨outs, run⟩ := Machine.outs_hom (R := fun g g' : Gateway => g' = g.inUnit k) follows rfl events
  refine ⟨?_, run⟩
  rw [fetched, outs, fetched]
  exact List.reduceOption_map

end Gateway

/-! ## The market -/

lemma job_inUnit (k : ℚ) (event : GatewayEvent) : (event.inUnit k).job = event.job := by
  cases event <;> rfl

/-- The market that is collected, in both units. -/
lemma fetchAllTickers_inUnit (k : ℚ) (clients : List String)
    (completed : List (Option TickerSnapshot)) :
    fetchAllTickers clients (completed.map (Option.map (TickerSnapshot.inUnit k))) =
      (fetchAllTickers clients completed).inUnit k := by
  have added : ∀ (results : Market) (ex : String),
      (results.inUnit k).set ex .empty = Market.inUnit k (results.set ex .empty) :=
    fun results ex => OrdDict.set_mapVal results ex .empty
  have empty : emptyResults clients = (emptyResults clients).inUnit k := by
    show clients.foldl _ (Market.inUnit k .empty) = Market.inUnit k (clients.foldl _ .empty)
    exact List.foldl_hom (Market.inUnit k) added
  have collected : ∀ (results : Market) (snapshot : Option TickerSnapshot),
      collect (results.inUnit k) (snapshot.map (TickerSnapshot.inUnit k)) =
        (collect results snapshot).inUnit k := by
    intro results snapshot
    cases snapshot with
    | none => rfl
    | some snapshot =>
      exact OrdDict.modify_mapVal _ _ fun bySymbol => OrdDict.set_mapVal bySymbol _ snapshot
  rw [fetchAllTickers, List.foldl_map, empty]
  exact List.foldl_hom (Market.inUnit k) collected

lemma snapshotsOf_inUnit (k : ℚ) (market : Market) :
    snapshotsOf (market.inUnit k) = (snapshotsOf market).map (TickerSnapshot.inUnit k) := by
  rw [snapshotsOf, Market.inUnit, OrdDict.values_mapVal, List.flatMap_map, snapshotsOf, List.map_flatMap]
  exact List.flatMap_congr fun bySymbol _ => OrdDict.values_mapVal bySymbol

lemma sourceCounts_inUnit (k : ℚ) (market : Market) :
    sourceCounts (market.inUnit k) = sourceCounts market := by
  rw [sourceCounts, snapshotsOf_inUnit, List.foldl_map]
  rfl

lemma sourceCountsByExchange_inUnit (k : ℚ) (cfg : BotConfig) (market : Market) :
    sourceCountsByExchange (cfg.inUnit k) (market.inUnit k) = sourceCountsByExchange cfg market := by
  rw [sourceCountsByExchange, snapshotsOf_inUnit, List.foldl_map]
  rfl

end ArbBot
