import ArbBot.Lib.OrdDict
import Mathlib.Data.Rat.Floor

/-!
# Data model

Port of `src/models.py` and of the part of `src/config.py` that the engine, the executor and the
gateway read. Floats are exact rationals, integers are `ℤ`, dictionaries are insertion-ordered
(`OrdDict`). Words that the source compares as strings are enumerations: a configured word that no
comparison in the source matches is the constructor `unsupported`. Exchange names and symbols stay
strings, since the source takes them apart and puts them together.

The configuration keeps the fields that a modelled function reads; the polling, dashboard and
notifier settings are left out.
-/

namespace ArbBot

/-- The exceptions that the modelled code can raise. -/
inductive PyError where
  | valueError
  | zeroDivisionError
  | indexError
  | typeError
  | overflowError
  | osError
  deriving DecidableEq, Repr

/-- `BotConfig.mode`. -/
inductive Mode where
  | paper
  | dryRun
  | unsupported
  deriving DecidableEq, Repr

/-- `BotConfig.execution_style` and `Opportunity.execution_style`. -/
inductive ExecutionStyle where
  | takerTaker
  | makerTaker
  | unsupported
  deriving DecidableEq, Repr

/-- `BotConfig.maker_side_preference`. -/
inductive MakerSidePreference where
  | buy
  | sell
  | unsupported
  deriving DecidableEq, Repr

/-- `Opportunity.maker_side`. -/
inductive MakerSide where
  | none
  | buy
  | sell
  deriving DecidableEq, Repr

/-- `Opportunity.taker_side`. -/
inductive TakerSide where
  | both
  | buy
  | sell
  deriving DecidableEq, Repr

/-- `Opportunity.buy_price_source` and `Opportunity.sell_price_source`. -/
inductive PriceSource where
  | ticker
  | orderbook
  deriving DecidableEq, Repr

/-- `TickerSnapshot.market_data_source`. -/
inductive MarketDataSource where
  | rest
  | ws
  deriving DecidableEq, Repr

/-- The configuration (`BotConfig`). -/
structure BotConfig where
  mode : Mode
  executionStyle : ExecutionStyle
  makerSidePreference : MakerSidePreference
  exchanges : List String
  symbols : List String
  minNetSpreadPct : ℚ
  slippagePct : ℚ
  useDynamicSlippage : Bool
  autoThresholdEnabled : Bool
  autoThresholdCostBufferRatio : ℚ
  autoThresholdMinFloorPct : ℚ
  fillProbabilityEdgeRefPct : ℚ
  queueRiskSensitivity : ℚ
  makerOrderTimeoutMs : ℤ
  makerMaxRequotes : ℤ
  makerRequoteStepBps : ℚ
  makerMinFillProbability : ℚ
  makerRequoteFillBoost : ℚ
  allowNegativeExpectedProfitDryrun : Bool
  maxDataAgeMs : ℤ
  maxDailyDrawdownPct : ℚ
  capitalPerExchangeUsdt : ℚ
  capitalPerTradeUsdt : ℚ
  maxPositionPerSymbol : ℚ
  minNotionalUsdt : ℚ
  tradeCooldownSec : ℚ
  maxConsecutiveFailures : ℤ
  rebalanceThresholdPct : ℚ
  rebalanceIntervalSec : ℤ
  rebalanceFeePct : ℚ
  maxOpportunitiesPerCycle : ℤ
  maxOpportunityAgeMs : ℤ
  enableOrderbookDepth : Bool
  websocketStaleMs : ℤ
  requireDepthLiquidity : Bool
  orderbookImpactNotionalUsdt : ℚ
  feesTaker : OrdDict String ℚ
  feesMaker : OrdDict String ℚ

/-- The taker fee that the configuration gives for an exchange: `fees_taker.get(exchange, 0.001)`, the same
in the engine and in the executor. -/
def takerFee (cfg : BotConfig) (exchange : String) : ℚ := cfg.feesTaker.getD exchange (1 / 1000)

/-- The configuration that `load_config` returns in an empty environment. -/
def defaultConfig : BotConfig where
  mode := .paper
  executionStyle := .takerTaker
  makerSidePreference := .buy
  exchanges := ["binance", "bybit", "okx", "kucoin"]
  symbols := ["BTC/USDT", "ETH/USDT"]
  minNetSpreadPct := 15 / 100
  slippagePct := 5 / 100
  useDynamicSlippage := true
  autoThresholdEnabled := true
  autoThresholdCostBufferRatio := 25 / 100
  autoThresholdMinFloorPct := 3 / 100
  fillProbabilityEdgeRefPct := 12 / 100
  queueRiskSensitivity := 1
  makerOrderTimeoutMs := 1200
  makerMaxRequotes := 2
  makerRequoteStepBps := 8 / 10
  makerMinFillProbability := 45 / 100
  makerRequoteFillBoost := 12 / 100
  allowNegativeExpectedProfitDryrun := false
  maxDataAgeMs := 3500
  maxDailyDrawdownPct := 1
  capitalPerExchangeUsdt := 1000
  capitalPerTradeUsdt := 150
  maxPositionPerSymbol := 2 / 100
  minNotionalUsdt := 20
  tradeCooldownSec := 8
  maxConsecutiveFailures := 8
  rebalanceThresholdPct := 35
  rebalanceIntervalSec := 120
  rebalanceFeePct := 2 / 100
  maxOpportunitiesPerCycle := 3
  maxOpportunityAgeMs := 1200
  enableOrderbookDepth := true
  websocketStaleMs := 6000
  requireDepthLiquidity := true
  orderbookImpactNotionalUsdt := 150
  feesTaker := ⟨[("binance", 1 / 1000), ("bybit", 1 / 1000), ("okx", 1 / 1000),
    ("kucoin", 1 / 1000)], by decide⟩
  feesMaker := ⟨[("binance", 6 / 10000), ("bybit", 6 / 10000), ("okx", 6 / 10000),
    ("kucoin", 6 / 10000)], by decide⟩

/-- One exchange's view of one symbol (`TickerSnapshot`). -/
structure TickerSnapshot where
  exchange : String
  symbol : String
  bid : ℚ
  ask : ℚ
  bidVolume : ℚ
  askVolume : ℚ
  timestampMs : ℤ
  bidDepthPrice : ℚ := 0
  askDepthPrice : ℚ := 0
  bidDepthBase : ℚ := 0
  askDepthBase : ℚ := 0
  marketDataSource : MarketDataSource := .rest
  deriving DecidableEq, Repr

/-- A route the scanner proposes (`Opportunity`). -/
structure Opportunity where
  symbol : String
  executionStyle : ExecutionStyle
  buyExchange : String
  sellExchange : String
  makerExchange : String
  takerExchange : String
  makerSide : MakerSide
  takerSide : TakerSide
  buyPrice : ℚ
  sellPrice : ℚ
  buyPriceSource : PriceSource
  sellPriceSource : PriceSource
  buyFeePct : ℚ
  sellFeePct : ℚ
  buySlippagePct : ℚ
  sellSlippagePct : ℚ
  feeCostPct : ℚ
  slippageCostPct : ℚ
  dynamicThresholdPct : ℚ
  queueRiskScore : ℚ
  fillProbability : ℚ
  expectedFillTimeMs : ℤ
  grossSpreadPct : ℚ
  netSpreadPct : ℚ
  quantity : ℚ
  expectedProfitUsdt : ℚ
  timestampMs : ℤ
  deriving DecidableEq, Repr

/-- The holdings on one exchange (`ExchangeBalance`). -/
structure ExchangeBalance where
  quoteFree : ℚ
  baseFree : OrdDict String ℚ

/-! ## Numbers and symbols -/

/-- `int(x)` of a float: truncation toward zero. -/
def pyInt (x : ℚ) : ℤ := if 0 ≤ x then ⌊x⌋ else ⌈x⌉

/-- Rounding to the nearest integer, ties to even. -/
def roundHalfEven (x : ℚ) : ℤ :=
  let f := ⌊x⌋
  if x - f < 1 / 2 then f
  else if 1 / 2 < x - f then f + 1
  else if f % 2 = 0 then f
  else f + 1

/-- `round(x, digits)`. -/
def pyRound (x : ℚ) (digits : ℕ) : ℚ := roundHalfEven (x * 10 ^ digits) / 10 ^ digits

/-- `_clamp` of `src/executor.py` and `src/opportunity.py`. -/
def clamp (value low high : ℚ) : ℚ := max low (min high value)

/-- The milliseconds of a clock reading: `int(time.time() * 1000)`. -/
def clockMs (now : ℚ) : ℤ := pyInt (now * 1000)

/-- `base, quote = symbol.split("/")`, which raises unless there is exactly one slash. -/
def splitSymbol (symbol : String) : Except PyError (String × String) :=
  match symbol.toList.splitOn '/' with
  | [base, quote] => .ok (String.ofList base, String.ofList quote)
  | _ => .error .valueError

example : (splitSymbol "BTC/USDT").toOption = some ("BTC", "USDT") := by decide

end ArbBot
