import ArbBot.Engine.Build
import Mathlib.Data.List.Sort

/-!
# The scan

Port of `find_opportunities` of `src/opportunity.py` and of the statistics it keeps. For each
configured symbol the scan gathers the fresh snapshots, visits every ordered pair of them that joins
two exchanges, and collects the opportunities, the rejections and the net spreads. An exception in
the middle of the scan leaves the slippage averages as they are at that point (`Halted`), and nothing
else.

The clock is read once at the start and once for each opportunity: `clock k` is the `k`-th reading.
-/

namespace ArbBot

/-- The market data of a cycle: exchange, then symbol. -/
abbrev Market := OrdDict String (OrdDict String TickerSnapshot)

/-- `net_spread_distribution_last_cycle`. -/
structure Distribution where
  count : ℚ
  p50 : ℚ
  p90 : ℚ
  max : ℚ
  min : ℚ
  deriving DecidableEq, Repr

/-- `execution_diagnostics_last_cycle`. -/
structure Diagnostics where
  avgDynamicThresholdPct : ℚ
  avgFillProbability : ℚ
  avgQueueRisk : ℚ
  deriving DecidableEq, Repr

/-- The state of the engine. The statistics of the last cycle are `none` before the first scan. -/
structure OpportunityEngine where
  rejectionCountsLastCycle : OrdDict RejectReason ℕ
  rejectionCountsTotal : OrdDict RejectReason ℕ
  netSpreadDistributionLastCycle : Option Distribution
  exchangeSlippageEwmaPct : OrdDict String ℚ
  executionDiagnosticsLastCycle : Option Diagnostics

namespace OpportunityEngine

/-- `__init__`. -/
def init (cfg : BotConfig) : OpportunityEngine where
  rejectionCountsLastCycle := .empty
  rejectionCountsTotal := .empty
  netSpreadDistributionLastCycle := none
  exchangeSlippageEwmaPct :=
    cfg.exchanges.foldl (fun ewma ex => ewma.set ex (max 0 cfg.slippagePct)) .empty
  executionDiagnosticsLastCycle := none

/-! ## Statistics -/

/-- `samples[index]`; a negative index counts from the end. -/
def pyIndex (samples : List ℚ) (index : ℤ) : Except PyError ℚ :=
  let i := if index < 0 then index + samples.length else index
  if i < 0 then .error .indexError
  else samples[i.toNat]?.elim (.error .indexError) .ok

/-- `_percentile`. -/
def percentile (sortedSamples : List ℚ) (pct : ℚ) : Except PyError ℚ :=
  if sortedSamples = [] then .ok 0
  else if pct ≤ 0 then pyIndex sortedSamples 0
  else if 100 ≤ pct then pyIndex sortedSamples (-1)
  else do
    let last : ℤ := sortedSamples.length - 1
    let position := last * (pct / 100)
    let lower := pyInt position
    let upper := min (lower + 1) last
    let weight := position - lower
    let atLower ← pyIndex sortedSamples lower
    let atUpper ← pyIndex sortedSamples upper
    return atLower * (1 - weight) + atUpper * weight

/-- `_distribution`. -/
def distribution (samples : List ℚ) : Except PyError Distribution :=
  if samples = [] then .ok ⟨0, 0, 0, 0, 0⟩
  else do
    let sortedSamples := samples.insertionSort (· ≤ ·)
    let p50 ← percentile sortedSamples 50
    let p90 ← percentile sortedSamples 90
    let largest ← pyIndex sortedSamples (-1)
    let smallest ← pyIndex sortedSamples 0
    return ⟨sortedSamples.length, p50, p90, largest, smallest⟩

/-- `_average`. -/
def average (values : List ℚ) : ℚ := if values = [] then 0 else values.sum / values.length

/-! ## The loops -/

/-- Count one more for a reason. -/
def count (rejections : OrdDict RejectReason ℕ) (reason : RejectReason) (n : ℕ) :
    OrdDict RejectReason ℕ :=
  rejections.set reason (rejections.getD reason 0 + n)

/-- Where a scan stands. -/
structure Scan where
  ewma : OrdDict String ℚ
  opportunities : List Opportunity
  rejections : OrdDict RejectReason ℕ
  netSpreadSamples : List ℚ

/-- An exception in a scan, and the slippage averages at that point. -/
structure Halted where
  error : PyError
  ewma : OrdDict String ℚ

/-- The body of the loop that gathers the rows of a symbol, for one exchange. -/
def gatherRow (cfg : BotConfig) (nowMs : ℤ) (symbol : String)
    (gathered : List TickerSnapshot × OrdDict RejectReason ℕ)
    (bySymbol : OrdDict String TickerSnapshot) : List TickerSnapshot × OrdDict RejectReason ℕ :=
  match bySymbol.get? symbol with
  | none => (gathered.1, count gathered.2 .missingSnapshot 1)
  | some snap =>
    if cfg.maxDataAgeMs < nowMs - snap.timestampMs then
      (gathered.1, count gathered.2 .staleSnapshot 1)
    else (gathered.1 ++ [snap], gathered.2)

/-- The snapshots of a symbol that are fresh, and the rejections of the others. -/
def gatherRows (cfg : BotConfig) (nowMs : ℤ) (symbol : String) (market : Market)
    (rejections : OrdDict RejectReason ℕ) : List TickerSnapshot × OrdDict RejectReason ℕ :=
  market.values.foldl (gatherRow cfg nowMs symbol) ([], rejections)

/-- The body of the inner loop, for one ordered pair of snapshots. -/
def scanPair (cfg : BotConfig) (clock : ℕ → ℚ) (buyRow : TickerSnapshot) (scan : Scan)
    (sellRow : TickerSnapshot) : Except Halted Scan :=
  if buyRow.exchange = sellRow.exchange then .ok scan
  else
    let ewma := updateSlippages cfg scan.ewma buyRow sellRow
    let timestampMs := clockMs (clock (scan.opportunities.length + 1))
    match assemble cfg ewma timestampMs buyRow sellRow with
    | .error error => .error ⟨error, ewma⟩
    | .ok (.rejected reason netSpreadPct) => .ok { scan with
        ewma
        rejections := count scan.rejections reason 1
        netSpreadSamples := scan.netSpreadSamples ++ netSpreadPct.toList }
    | .ok (.emitted opp) => .ok { scan with
        ewma
        opportunities := scan.opportunities ++ [opp]
        netSpreadSamples := scan.netSpreadSamples ++ [opp.netSpreadPct] }

/-- The body of the outer loop, for one symbol. -/
def scanSymbol (cfg : BotConfig) (market : Market) (clock : ℕ → ℚ) (scan : Scan)
    (symbol : String) : Except Halted Scan :=
  let (rows, rejections) := gatherRows cfg (clockMs (clock 0)) symbol market scan.rejections
  if rows.length < 2 then
    .ok { scan with rejections := count rejections .insufficientFreshMarkets 1 }
  else
    rows.foldlM (fun scan buyRow => rows.foldlM (scanPair cfg clock buyRow) scan)
      { scan with rejections }

/-- All loops of `find_opportunities`. -/
def scanMarket (cfg : BotConfig) (engine : OpportunityEngine) (market : Market) (clock : ℕ → ℚ) :
    Except Halted Scan :=
  cfg.symbols.foldlM (scanSymbol cfg market clock) ⟨engine.exchangeSlippageEwmaPct, [], .empty, []⟩

/-- `opportunities.sort(key=expected_profit_usdt, reverse=True)`, which is stable. -/
def rank (opportunities : List Opportunity) : List Opportunity :=
  opportunities.insertionSort fun a b => b.expectedProfitUsdt ≤ a.expectedProfitUsdt

/-- `find_opportunities`. -/
def findOpportunities (cfg : BotConfig) (engine : OpportunityEngine) (market : Market)
    (clock : ℕ → ℚ) : Except PyError (List Opportunity) × OpportunityEngine :=
  match scanMarket cfg engine market clock with
  | .error halted => (.error halted.error, { engine with exchangeSlippageEwmaPct := halted.ewma })
  | .ok scan =>
    let engine := { engine with
      exchangeSlippageEwmaPct := scan.ewma
      rejectionCountsLastCycle := scan.rejections
      rejectionCountsTotal := scan.rejections.entries.foldl (fun total (reason, n) =>
        count total reason n) engine.rejectionCountsTotal }
    match distribution scan.netSpreadSamples with
    | .error error => (.error error, engine)
    | .ok dist =>
      (.ok (rank scan.opportunities), { engine with
        netSpreadDistributionLastCycle := some dist
        executionDiagnosticsLastCycle := some {
          avgDynamicThresholdPct := average (scan.opportunities.map (·.dynamicThresholdPct))
          avgFillProbability := average (scan.opportunities.map (·.fillProbability))
          avgQueueRisk := average (scan.opportunities.map (·.queueRiskScore)) } })

end OpportunityEngine

end ArbBot
