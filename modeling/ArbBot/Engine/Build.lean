import ArbBot.Models

/-!
# From a pair of snapshots to an opportunity

Port of `_build_opportunity` of `src/opportunity.py` and of its helpers. For an ordered pair of
snapshots, one to buy from and one to sell to, the engine first updates the slippage averages of the
two exchanges (`updateSlippages`). Then it settles the prices, fees, slippages and sizes of the two
legs (`Legs`, one definition for each style and maker side), and filters (`assemble`). The only
division that can fail is the one by `net_buy`, which needs negative fees.

Averages are read after the update; the clock is read once, for a pair that passes all filters.
-/

namespace ArbBot

/-- `min_nonzero`. -/
def minNonzero (values : List ℚ) : ℚ := (values.filter (0 < ·)).min?.getD 0

/-- The minimum is one of the positive values, if there are any. -/
lemma minNonzero_cases (values : List ℚ) :
    (minNonzero values = 0 ∧ ∀ v ∈ values, v ≤ 0) ∨
      (0 < minNonzero values ∧ ∀ v ∈ values, 0 < v → minNonzero values ≤ v) := by
  unfold minNonzero
  cases e : (values.filter (0 < ·)).min? with
  | none =>
    have none := List.filter_eq_nil_iff.1 (List.min?_eq_none_iff.1 e)
    exact .inl ⟨rfl, fun v hv => not_lt.1 fun h => none v hv (decide_eq_true h)⟩
  | some m =>
    obtain ⟨mem, least⟩ := List.min?_eq_some_iff.1 e
    refine .inr ⟨of_decide_eq_true (List.mem_filter.1 mem).2, fun v hv pos => ?_⟩
    exact least v (List.mem_filter.2 ⟨hv, decide_eq_true pos⟩)

lemma minNonzero_le {values : List ℚ} {v : ℚ} (hv : v ∈ values) (pos : 0 < v) :
    minNonzero values ≤ v := by
  rcases minNonzero_cases values with ⟨_, none⟩ | ⟨_, least⟩
  · exact absurd pos (not_lt.2 (none v hv))
  · exact least v hv pos

/-- The reasons for which the scan counts a rejection. -/
inductive RejectReason where
  | missingSnapshot
  | staleSnapshot
  | insufficientFreshMarkets
  | depthLiquidityMissing
  | invalidPrice
  | netSpreadBelowAutoThreshold
  | insufficientTradeSize
  | nonPositiveExpectedProfit
  deriving DecidableEq, Repr

/-- What `_build_opportunity` returns: a rejection, with the net spread if that was computed, or an
opportunity. -/
inductive Verdict where
  | rejected (reason : RejectReason) (netSpreadPct : Option ℚ)
  | emitted (opp : Opportunity)
  deriving Repr

namespace OpportunityEngine

/-! ## Slippage averages -/

/-- The price of a taker buy: the depth price, if there is one. -/
def takerBuyPrice (buyRow : TickerSnapshot) : ℚ :=
  if 0 < buyRow.askDepthPrice then buyRow.askDepthPrice else buyRow.ask

/-- The price of a taker sale: the depth price, if there is one. -/
def takerSellPrice (sellRow : TickerSnapshot) : ℚ :=
  if 0 < sellRow.bidDepthPrice then sellRow.bidDepthPrice else sellRow.bid

def takerBuySource (buyRow : TickerSnapshot) : PriceSource :=
  if 0 < buyRow.askDepthPrice then .orderbook else .ticker

def takerSellSource (sellRow : TickerSnapshot) : PriceSource :=
  if 0 < sellRow.bidDepthPrice then .orderbook else .ticker

/-- `dynamic_buy_slippage_pct`. -/
def dynamicBuySlippagePct (buyRow : TickerSnapshot) : ℚ :=
  if 0 < buyRow.ask then max 0 ((takerBuyPrice buyRow - buyRow.ask) / buyRow.ask * 100) else 0

/-- `dynamic_sell_slippage_pct`. -/
def dynamicSellSlippagePct (sellRow : TickerSnapshot) : ℚ :=
  if 0 < sellRow.bid then max 0 ((sellRow.bid - takerSellPrice sellRow) / sellRow.bid * 100) else 0

/-- `_update_exchange_slippage` on `exchange_slippage_ewma_pct`. -/
def updateExchangeSlippage (cfg : BotConfig) (ewma : OrdDict String ℚ) (exchange : String)
    (observedSlippagePct : ℚ) : OrdDict String ℚ :=
  let prev := ewma.getD exchange cfg.slippagePct
  let alpha : ℚ := 1 / 4
  ewma.set exchange (max 0 (alpha * observedSlippagePct + (1 - alpha) * prev))

/-- The updates that `_build_opportunity` makes for a pair. -/
def updateSlippages (cfg : BotConfig) (ewma : OrdDict String ℚ) (buyRow sellRow : TickerSnapshot) :
    OrdDict String ℚ :=
  updateExchangeSlippage cfg
    (updateExchangeSlippage cfg ewma buyRow.exchange (dynamicBuySlippagePct buyRow))
    sellRow.exchange (dynamicSellSlippagePct sellRow)

/-- `_select_slippage_pct`. -/
def selectSlippagePct (cfg : BotConfig) (ewma : OrdDict String ℚ) (exchange : String)
    (dynamicSlippagePct : ℚ) : ℚ :=
  let baseSlippage := max 0 cfg.slippagePct
  if cfg.useDynamicSlippage then
    max (max baseSlippage dynamicSlippagePct) (ewma.getD exchange 0)
  else baseSlippage

/-! ## The two legs -/

/-- The `execution_style` that the engine works with. -/
def executionStyle (cfg : BotConfig) : ExecutionStyle :=
  if cfg.executionStyle = .makerTaker then .makerTaker else .takerTaker

/-- `_maker_side`. -/
def makerSide (cfg : BotConfig) : MakerSide :=
  if cfg.makerSidePreference = .sell then .sell else .buy

/-- `fees_maker.get(exchange, 0.0006)`. -/
def makerFee (cfg : BotConfig) (exchange : String) : ℚ := cfg.feesMaker.getD exchange (6 / 10000)

/-- What `_build_opportunity` settles about the two legs. -/
structure Legs where
  makerSide : MakerSide
  takerSide : TakerSide
  makerExchange : String
  takerExchange : String
  buyPrice : ℚ
  sellPrice : ℚ
  buySource : PriceSource
  sellSource : PriceSource
  buyFee : ℚ
  sellFee : ℚ
  buySlippagePct : ℚ
  sellSlippagePct : ℚ
  makerQueueBase : ℚ
  takerDepthBase : ℚ

/-- Both legs take. -/
def takerLegs (cfg : BotConfig) (ewma : OrdDict String ℚ) (buyRow sellRow : TickerSnapshot) :
    Legs where
  makerSide := .none
  takerSide := .both
  makerExchange := ""
  takerExchange := ""
  buyPrice := takerBuyPrice buyRow
  sellPrice := takerSellPrice sellRow
  buySource := takerBuySource buyRow
  sellSource := takerSellSource sellRow
  buyFee := takerFee cfg buyRow.exchange
  sellFee := takerFee cfg sellRow.exchange
  buySlippagePct := selectSlippagePct cfg ewma buyRow.exchange (dynamicBuySlippagePct buyRow)
  sellSlippagePct := selectSlippagePct cfg ewma sellRow.exchange (dynamicSellSlippagePct sellRow)
  makerQueueBase := 0
  takerDepthBase := minNonzero [buyRow.askDepthBase, sellRow.bidDepthBase]

/-- The sell leg makes. -/
def makerSellLegs (cfg : BotConfig) (ewma : OrdDict String ℚ) (buyRow sellRow : TickerSnapshot) :
    Legs where
  makerSide := .sell
  takerSide := .buy
  makerExchange := sellRow.exchange
  takerExchange := buyRow.exchange
  buyPrice := takerBuyPrice buyRow
  sellPrice := if 0 < sellRow.ask then sellRow.ask else sellRow.bid
  buySource := takerBuySource buyRow
  sellSource := .ticker
  buyFee := takerFee cfg buyRow.exchange
  sellFee := makerFee cfg sellRow.exchange
  buySlippagePct := selectSlippagePct cfg ewma buyRow.exchange (dynamicBuySlippagePct buyRow)
  sellSlippagePct := 0
  makerQueueBase := max sellRow.askVolume 0
  takerDepthBase := buyRow.askDepthBase

/-- The buy leg makes. -/
def makerBuyLegs (cfg : BotConfig) (ewma : OrdDict String ℚ) (buyRow sellRow : TickerSnapshot) :
    Legs where
  makerSide := .buy
  takerSide := .sell
  makerExchange := buyRow.exchange
  takerExchange := sellRow.exchange
  buyPrice := if 0 < buyRow.bid then buyRow.bid else buyRow.ask
  sellPrice := takerSellPrice sellRow
  buySource := .ticker
  sellSource := takerSellSource sellRow
  buyFee := makerFee cfg buyRow.exchange
  sellFee := takerFee cfg sellRow.exchange
  buySlippagePct := 0
  sellSlippagePct := selectSlippagePct cfg ewma sellRow.exchange (dynamicSellSlippagePct sellRow)
  makerQueueBase := max buyRow.bidVolume 0
  takerDepthBase := sellRow.bidDepthBase

/-- The legs for the configured style and maker side. -/
def legsOf (cfg : BotConfig) (ewma : OrdDict String ℚ) (buyRow sellRow : TickerSnapshot) : Legs :=
  if executionStyle cfg = .makerTaker then
    if makerSide cfg = .sell then makerSellLegs cfg ewma buyRow sellRow
    else makerBuyLegs cfg ewma buyRow sellRow
  else takerLegs cfg ewma buyRow sellRow

namespace Legs

def netBuy (legs : Legs) : ℚ := legs.buyPrice * (1 + legs.buyFee + legs.buySlippagePct / 100)

def netSell (legs : Legs) : ℚ := legs.sellPrice * (1 - legs.sellFee - legs.sellSlippagePct / 100)

def netSpreadPct (legs : Legs) : ℚ := (legs.netSell - legs.netBuy) / legs.netBuy * 100

def grossSpreadPct (legs : Legs) : ℚ := (legs.sellPrice - legs.buyPrice) / legs.buyPrice * 100

end Legs

/-! ## Filters and estimates -/

/-- A leg that takes has no depth price, and `require_depth_liquidity` is on. -/
def depthLiquidityMissing (cfg : BotConfig) (legs : Legs) (buyRow sellRow : TickerSnapshot) : Prop :=
  cfg.requireDepthLiquidity = true ∧
    if executionStyle cfg = .takerTaker then
      buyRow.askDepthPrice ≤ 0 ∨ sellRow.bidDepthPrice ≤ 0
    else legs.takerSide = .buy ∧ buyRow.askDepthPrice ≤ 0 ∨
      legs.takerSide = .sell ∧ sellRow.bidDepthPrice ≤ 0

instance (cfg : BotConfig) (legs : Legs) (buyRow sellRow : TickerSnapshot) :
    Decidable (depthLiquidityMissing cfg legs buyRow sellRow) :=
  inferInstanceAs (Decidable (_ ∧ _))

/-- `_effective_dynamic_threshold`. -/
def effectiveDynamicThreshold (cfg : BotConfig) (ewma : OrdDict String ℚ)
    (buyExchange sellExchange : String) (buyFee sellFee buySlippagePct sellSlippagePct : ℚ) : ℚ :=
  let baseThreshold := cfg.minNetSpreadPct
  if cfg.autoThresholdEnabled then
    let buyRtSlippage := max buySlippagePct (ewma.getD buyExchange cfg.slippagePct)
    let sellRtSlippage := max sellSlippagePct (ewma.getD sellExchange cfg.slippagePct)
    let totalCostPct := (buyFee + sellFee) * 100 + buyRtSlippage + sellRtSlippage
    let dynamicFloor :=
      max cfg.autoThresholdMinFloorPct (totalCostPct * cfg.autoThresholdCostBufferRatio)
    max baseThreshold dynamicFloor
  else baseThreshold

/-- `dynamic_threshold_pct` of a pair. -/
def thresholdPct (cfg : BotConfig) (ewma : OrdDict String ℚ) (legs : Legs)
    (buyRow sellRow : TickerSnapshot) : ℚ :=
  effectiveDynamicThreshold cfg ewma buyRow.exchange sellRow.exchange legs.buyFee legs.sellFee
    legs.buySlippagePct legs.sellSlippagePct

/-- `qty_constraints`. -/
def qtyConstraints (cfg : BotConfig) (legs : Legs) (buyRow sellRow : TickerSnapshot) : List ℚ :=
  [cfg.capitalPerTradeUsdt / legs.buyPrice, cfg.maxPositionPerSymbol] ++
    if executionStyle cfg = .makerTaker then
      [legs.makerQueueBase, legs.takerDepthBase,
        if legs.takerSide = .buy then buyRow.askVolume else sellRow.bidVolume]
    else [buyRow.askVolume, sellRow.bidVolume, buyRow.askDepthBase, sellRow.bidDepthBase]

def quantity (cfg : BotConfig) (legs : Legs) (buyRow sellRow : TickerSnapshot) : ℚ :=
  minNonzero (qtyConstraints cfg legs buyRow sellRow)

def expectedProfitUsdt (cfg : BotConfig) (legs : Legs) (buyRow sellRow : TickerSnapshot) : ℚ :=
  quantity cfg legs buyRow sellRow * (legs.netSell - legs.netBuy)

/-- `_estimate_queue_risk`. -/
def estimateQueueRisk (cfg : BotConfig) (quantity makerQueueBase : ℚ) : ℚ :=
  if makerQueueBase ≤ 0 then 1
  else clamp (quantity / makerQueueBase * cfg.queueRiskSensitivity) 0 (3 / 2)

/-- `_estimate_fill_probability`. -/
def estimateFillProbability (cfg : BotConfig)
    (netSpreadPct dynamicThresholdPct queueRiskScore quantity takerDepthBase : ℚ)
    (buyRow sellRow : TickerSnapshot) : ℚ :=
  let edgeBuffer := netSpreadPct - dynamicThresholdPct
  let edgeScore := clamp (edgeBuffer / max cfg.fillProbabilityEdgeRefPct (1 / 100)) (-1) 1
  let depthScore := clamp (takerDepthBase / max quantity (1 / 10 ^ 9) / (3 / 2)) 0 1
  let sourceScore : ℚ := (if buyRow.marketDataSource = .ws then 5 / 100 else 0) +
    (if sellRow.marketDataSource = .ws then 5 / 100 else 0)
  let score := 45 / 100 + 25 / 100 * depthScore + 25 / 100 * max edgeScore 0
    - 35 / 100 * queueRiskScore + sourceScore
  clamp score (1 / 100) (99 / 100)

/-- The estimates for a maker leg: `queue_risk_score`, `fill_probability` and
`expected_fill_time_ms`. -/
def makerEstimates (cfg : BotConfig) (ewma : OrdDict String ℚ) (legs : Legs)
    (buyRow sellRow : TickerSnapshot) : ℚ × ℚ × ℤ :=
  if executionStyle cfg = .makerTaker then
    let qty := quantity cfg legs buyRow sellRow
    let queueRiskScore := estimateQueueRisk cfg qty legs.makerQueueBase
    let fillProbability := estimateFillProbability cfg legs.netSpreadPct
      (thresholdPct cfg ewma legs buyRow sellRow) queueRiskScore qty legs.takerDepthBase buyRow
      sellRow
    (queueRiskScore, fillProbability,
      pyInt (cfg.makerOrderTimeoutMs *
        clamp (12 / 10 - fillProbability + queueRiskScore * (4 / 10)) (25 / 100) (25 / 10)))
  else (0, 1, 0)

/-- The opportunity of a pair that passes all filters. -/
def opportunityOf (cfg : BotConfig) (ewma : OrdDict String ℚ) (timestampMs : ℤ) (legs : Legs)
    (buyRow sellRow : TickerSnapshot) : Opportunity :=
  let estimates := makerEstimates cfg ewma legs buyRow sellRow
  { symbol := buyRow.symbol
    executionStyle := executionStyle cfg
    buyExchange := buyRow.exchange
    sellExchange := sellRow.exchange
    makerExchange := legs.makerExchange
    takerExchange := legs.takerExchange
    makerSide := legs.makerSide
    takerSide := legs.takerSide
    buyPrice := legs.buyPrice
    sellPrice := legs.sellPrice
    buyPriceSource := legs.buySource
    sellPriceSource := legs.sellSource
    buyFeePct := legs.buyFee * 100
    sellFeePct := legs.sellFee * 100
    buySlippagePct := legs.buySlippagePct
    sellSlippagePct := legs.sellSlippagePct
    feeCostPct := (legs.buyFee + legs.sellFee) * 100
    slippageCostPct := legs.buySlippagePct + legs.sellSlippagePct
    dynamicThresholdPct := thresholdPct cfg ewma legs buyRow sellRow
    queueRiskScore := estimates.1
    fillProbability := estimates.2.1
    expectedFillTimeMs := estimates.2.2
    grossSpreadPct := legs.grossSpreadPct
    netSpreadPct := legs.netSpreadPct
    quantity := quantity cfg legs buyRow sellRow
    expectedProfitUsdt := expectedProfitUsdt cfg legs buyRow sellRow
    timestampMs }

/-- `_build_opportunity` after the update of the averages. -/
def assemble (cfg : BotConfig) (ewma : OrdDict String ℚ) (timestampMs : ℤ)
    (buyRow sellRow : TickerSnapshot) : Except PyError Verdict :=
  let legs := legsOf cfg ewma buyRow sellRow
  if depthLiquidityMissing cfg legs buyRow sellRow then
    .ok (.rejected .depthLiquidityMissing none)
  else if legs.buyPrice ≤ 0 ∨ legs.sellPrice ≤ 0 then .ok (.rejected .invalidPrice none)
  else if legs.netBuy = 0 then .error .zeroDivisionError
  else if legs.netSpreadPct < thresholdPct cfg ewma legs buyRow sellRow then
    .ok (.rejected .netSpreadBelowAutoThreshold (some legs.netSpreadPct))
  else if quantity cfg legs buyRow sellRow ≤ 0 ∨
      quantity cfg legs buyRow sellRow * legs.buyPrice < cfg.minNotionalUsdt then
    .ok (.rejected .insufficientTradeSize (some legs.netSpreadPct))
  else if expectedProfitUsdt cfg legs buyRow sellRow ≤ 0 ∧
      ¬(cfg.mode = .dryRun ∧ cfg.allowNegativeExpectedProfitDryrun = true) then
    .ok (.rejected .nonPositiveExpectedProfit (some legs.netSpreadPct))
  else .ok (.emitted (opportunityOf cfg ewma timestampMs legs buyRow sellRow))

end OpportunityEngine

end ArbBot
