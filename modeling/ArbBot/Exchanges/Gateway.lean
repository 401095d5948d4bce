import ArbBot.Models

/-!
# Market data

Port of `src/exchanges.py`: the walk over an order book that prices a target notional
(`_impact_price_for_quote`) and the snapshot of one market (`_fetch_one`). What the exchange client
answers is a parameter: an answer is a value or an exception, and a value is as loose as the source
allows, since it may be missing and `float` may fail on it. `_fetch_one` catches every exception, so
which one is raised does not matter.
-/

namespace ArbBot

/-- A value in an answer: missing, a number, or something that does not convert to a number. -/
inductive Cell where
  | none
  | num (x : ℚ)
  | unreadable
  deriving DecidableEq, Repr

namespace Cell

/-- `float(x or 0.0)`. -/
def toFloat : Cell → Except PyError ℚ
  | .none => .ok 0
  | .num x => .ok x
  | .unreadable => .error .valueError

/-- `int(x or default)`. -/
def toInt (default : ℤ) : Cell → Except PyError ℤ
  | .none => .ok default
  | .num x => .ok (if x = 0 then default else pyInt x)
  | .unreadable => .error .valueError

end Cell

/-- One level of an order book, as the client delivers it. -/
abbrev Level := List Cell

/-- `client.fetch_order_book(symbol)`. -/
structure OrderBook where
  asks : List Level
  bids : List Level

/-- `client.fetch_ticker(symbol)`. -/
structure Ticker where
  bid : Cell
  ask : Cell
  bidVolume : Cell
  askVolume : Cell
  timestamp : Cell

/-- A row that a WebSocket stream holds for a symbol. -/
structure WsRow where
  bid : Cell
  ask : Cell
  timestampMs : Cell

/-- What a client answers about a symbol. -/
structure Client where
  fetchTicker : String → Except PyError Ticker
  fetchOrderBook : String → Except PyError OrderBook

/-! ## The walk over an order book -/

/-- The loop of `_impact_price_for_quote`, from `total_quote` and `total_base`. -/
def walkLevels (targetQuote : ℚ) : List Level → ℚ → ℚ → Except PyError (ℚ × ℚ)
  | [], totalQuote, totalBase => .ok (totalQuote, totalBase)
  | (c₀ :: c₁ :: _) :: levels, totalQuote, totalBase => do
    let price ← c₀.toFloat
    let qty ← c₁.toFloat
    if price ≤ 0 ∨ qty ≤ 0 then walkLevels targetQuote levels totalQuote totalBase
    else
      let remainQuote := targetQuote - totalQuote
      if remainQuote ≤ 0 then return (totalQuote, totalBase)
      else
        let takeQuote := min (price * qty) remainQuote
        let totalQuote := totalQuote + takeQuote
        let totalBase := totalBase + takeQuote / price
        if targetQuote ≤ totalQuote then return (totalQuote, totalBase)
        else walkLevels targetQuote levels totalQuote totalBase
  | _ :: levels, totalQuote, totalBase => walkLevels targetQuote levels totalQuote totalBase

/-- `_impact_price_for_quote`: the average price and the base quantity. -/
def impactPriceForQuote (levels : List Level) (targetQuote : ℚ) : Except PyError (ℚ × ℚ) :=
  if targetQuote ≤ 0 then .ok (0, 0)
  else do
    let (totalQuote, totalBase) ← walkLevels targetQuote levels 0 0
    if totalBase ≤ 0 then return (0, 0)
    else return (totalQuote / totalBase, totalBase)

/-! ## `_fetch_one` -/

/-- The top of the book that a snapshot carries, with its time and its source. -/
structure Quote where
  bid : ℚ
  ask : ℚ
  bidVolume : ℚ
  askVolume : ℚ
  timestampMs : ℤ
  source : MarketDataSource

/-- The WebSocket row, where it is used (`ws_used`). -/
def wsQuote (cfg : BotConfig) (now : ℚ) : Option WsRow → Except PyError (Option Quote)
  | none => return none
  | some row => do
    let wsTs ← row.timestampMs.toInt 0
    if clockMs now - wsTs ≤ cfg.websocketStaleMs then
      let bid ← row.bid.toFloat
      let ask ← row.ask.toFloat
      if 0 < bid ∧ 0 < ask then return some ⟨bid, ask, 0, 0, wsTs, .ws⟩ else return none
    else return none

/-- The REST ticker, where both its prices are positive. -/
def restQuote (client : Client) (now : ℚ) (symbol : String) : Except PyError (Option Quote) := do
  let ticker ← client.fetchTicker symbol
  let bid ← ticker.bid.toFloat
  let ask ← ticker.ask.toFloat
  if bid ≤ 0 ∨ ask ≤ 0 then return none
  else
    let bidVolume ← ticker.bidVolume.toFloat
    let askVolume ← ticker.askVolume.toFloat
    let timestampMs ← ticker.timestamp.toInt (clockMs now)
    return some ⟨bid, ask, bidVolume, askVolume, timestampMs, .rest⟩

/-- Price and base quantity of the ask and of the bid side. An exception leaves the sides that are
not written yet at zero. -/
def depthOf (cfg : BotConfig) (client : Client) (symbol : String) : (ℚ × ℚ) × (ℚ × ℚ) :=
  if cfg.enableOrderbookDepth then
    match client.fetchOrderBook symbol with
    | .error _ => ((0, 0), (0, 0))
    | .ok book =>
      match impactPriceForQuote book.asks cfg.orderbookImpactNotionalUsdt with
      | .error _ => ((0, 0), (0, 0))
      | .ok ask =>
        match impactPriceForQuote book.bids cfg.orderbookImpactNotionalUsdt with
        | .error _ => (ask, (0, 0))
        | .ok bid => (ask, bid)
  else ((0, 0), (0, 0))

/-- The snapshot of a quote, with its depth fields. -/
def snapshotOf (cfg : BotConfig) (client : Client) (exchangeName symbol : String) (quote : Quote) :
    TickerSnapshot :=
  let depth := depthOf cfg client symbol
  { exchange := exchangeName
    symbol
    bid := quote.bid
    ask := quote.ask
    bidVolume := quote.bidVolume
    askVolume := quote.askVolume
    timestampMs := quote.timestampMs
    bidDepthPrice := depth.2.1
    askDepthPrice := depth.1.1
    bidDepthBase := depth.2.2
    askDepthBase := depth.1.2
    marketDataSource := quote.source }

/-- `_fetch_one`, where `wsRow` is the row that the stream of this exchange holds for the symbol and
`clock` gives the reading at the staleness test and the one for a ticker without a time. -/
def fetchOne (cfg : BotConfig) (client : Client) (wsRow : Option WsRow) (clock : ℕ → ℚ)
    (exchangeName symbol : String) : Option TickerSnapshot :=
  match wsQuote cfg (clock 0) wsRow with
  | .error _ => none
  | .ok (some quote) => some (snapshotOf cfg client exchangeName symbol quote)
  | .ok none =>
    match restQuote client (clock 1) symbol with
    | .error _ => none
    | .ok none => none
    | .ok (some quote) => some (snapshotOf cfg client exchangeName symbol quote)

end ArbBot
