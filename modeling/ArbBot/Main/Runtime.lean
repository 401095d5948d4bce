import ArbBot.Exchanges.Fees
import ArbBot.Exchanges.Fetch
import ArbBot.Executor.Rebalance

/-!
# What the bot shows

Port of the data that the main loop hands out: `RuntimeState` of `src/dashboard.py`, which the
dashboard serves while the loop updates it, the messages of `src/notifier.py`, and `get_metrics` and
`balance_summary` of `src/executor.py`. Each call of `runtime.update` in `src/main.py` is a constructor
of `Update`. A message is the record of what its text prints. The settings that only the main loop
reads join the configuration here.
-/

namespace ArbBot

/-- The configuration, with the settings that only the main loop reads. -/
structure Settings extends BotConfig where
  pollIntervalSec : ℚ
  enableWebsocketMarketData : Bool
  statusLogIntervalSec : ℤ
  dashboardEnabled : Bool
  dashboardHost : String
  dashboardPort : ℤ
  telegramBotToken : String
  telegramChatId : String

/-- `notifier.enabled`. -/
def Settings.notifies (settings : Settings) : Bool :=
  settings.telegramBotToken ≠ "" ∧ settings.telegramChatId ≠ ""

/-- The fallbacks for an unsupported mode and an unsupported style. -/
def Settings.supported (settings : Settings) : Settings :=
  { settings with
    mode := if settings.mode = .unsupported then .paper else settings.mode
    executionStyle :=
      if settings.executionStyle = .unsupported then .takerTaker else settings.executionStyle }

/-! ## Reports of the executor -/

/-- The value of `get_metrics`. -/
structure Metrics where
  realizedPnlUsdt : ℚ
  tradesExecuted : ℕ
  tradesFailed : ℕ
  consecutiveFailures : ℕ
  makerTimeouts : ℕ
  makerRequotes : ℕ
  blocked : ℕ
  blockedReason : Option BlockReason
  deriving DecidableEq, Repr

/-- The entry of an exchange in `balance_summary`. -/
structure BalanceLine where
  quoteFree : ℚ
  baseTotal : ℚ
  deriving DecidableEq, Repr

namespace PaperExecutor

/-- `get_metrics`. -/
def getMetrics (s : PaperExecutor) : Metrics where
  realizedPnlUsdt := s.risk.realizedPnlUsdt
  tradesExecuted := s.risk.tradesExecuted
  tradesFailed := s.risk.tradesFailed
  consecutiveFailures := s.risk.consecutiveFailures
  makerTimeouts := s.risk.makerTimeouts
  makerRequotes := s.risk.makerRequotes
  blocked := if s.risk.blocked then 1 else 0
  blockedReason := s.risk.blockedReason

/-- `balance_summary`. -/
def balanceSummary (s : PaperExecutor) : OrdDict String BalanceLine :=
  s.balances.entries.foldl (fun summary (exchangeName, bal) =>
    summary.set exchangeName ⟨pyRound bal.quoteFree 6, pyRound bal.baseFree.values.sum 6⟩) .empty

end PaperExecutor

/-! ## The dashboard -/

/-- `last_event`. -/
inductive LastEvent where
  | init
  | scanCompleted
  | opportunityStale (ageMs : ℤ)
  | executed (reason : Reason)
  | noExecutableRoute
  | noOpportunity
  | rebalanced (message : RebalanceMessage)
  deriving DecidableEq, Repr

/-- What the bot publishes after a scan. -/
structure ScanReport where
  cycle : ℕ
  opportunityCount : ℕ
  rejectionsLastCycle : OrdDict RejectReason ℕ
  rejectionsTotal : OrdDict RejectReason ℕ
  netSpreadDistribution : Option Distribution
  executionDiagnostics : Option Diagnostics
  marketDataSourceCounts : SourceCounts
  marketDataSourceByExchange : OrdDict String SourceCounts

/-- A call of `runtime.update`. -/
inductive Update where
  | feeSources (sources : OrdDict String FeeSource)
  | scanCompleted (report : ScanReport)
  | bestOpportunity (opp : Opportunity)
  | opportunityStale (ageMs : ℤ)
  | executed (reason : Reason) (payload : Option OrderPayload)
  | noExecutableRoute
  | noOpportunity
  | rebalanced (message : RebalanceMessage)
  | status (metrics : Metrics) (balances : OrdDict String BalanceLine)

/-- `RuntimeState.data`. What is `{}` before the first update is `none` or the empty dictionary. -/
structure RuntimeState where
  mode : Mode
  exchanges : List String
  symbols : List String
  cycle : ℕ := 0
  lastEvent : LastEvent := .init
  opportunityCount : ℕ := 0
  bestOpportunity : Option Opportunity := none
  lastOrderPayload : Option OrderPayload := none
  rejectionsLastCycle : OrdDict RejectReason ℕ := .empty
  rejectionsTotal : OrdDict RejectReason ℕ := .empty
  netSpreadDistribution : Option Distribution := none
  executionDiagnostics : Option Diagnostics := none
  feeSources : OrdDict String FeeSource := .empty
  marketDataSourceCounts : Option SourceCounts := none
  marketDataSourceByExchange : OrdDict String SourceCounts := .empty
  metrics : Option Metrics := none
  balances : OrdDict String BalanceLine := .empty

/-- `RuntimeState.update`. -/
def RuntimeState.update (data : RuntimeState) : Update → RuntimeState
  | .feeSources sources => { data with feeSources := sources }
  | .scanCompleted report => { data with
      cycle := report.cycle
      opportunityCount := report.opportunityCount
      lastEvent := .scanCompleted
      rejectionsLastCycle := report.rejectionsLastCycle
      rejectionsTotal := report.rejectionsTotal
      netSpreadDistribution := report.netSpreadDistribution
      executionDiagnostics := report.executionDiagnostics
      marketDataSourceCounts := some report.marketDataSourceCounts
      marketDataSourceByExchange := report.marketDataSourceByExchange }
  | .bestOpportunity opp => { data with bestOpportunity := some opp }
  | .opportunityStale ageMs => { data with lastEvent := .opportunityStale ageMs }
  | .executed reason payload =>
    { data with lastEvent := .executed reason, lastOrderPayload := payload }
  | .noExecutableRoute => { data with lastEvent := .noExecutableRoute }
  | .noOpportunity => { data with bestOpportunity := none, lastEvent := .noOpportunity }
  | .rebalanced message => { data with lastEvent := .rebalanced message }
  | .status metrics balances => { data with metrics := some metrics, balances }

/-! ## Messages -/

/-- A message of the notifier. -/
inductive Message where
  | started (mode : Mode) (symbols : List String)
  | traded (symbol buyExchange sellExchange : String) (quantity expectedProfitUsdt : ℚ)
  | rebalanced (message : RebalanceMessage)
  | blocked (reason : Option BlockReason)
  | stopped
  deriving DecidableEq, Repr

/-- What leaves the main loop: an update of the dashboard, or a message. -/
inductive Effect where
  | update (u : Update)
  | send (m : Message)

end ArbBot
