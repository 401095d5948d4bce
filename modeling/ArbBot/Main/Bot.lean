import ArbBot.Exchanges.Feeds
import ArbBot.Lib.Script
import ArbBot.Main.Cycle
import ArbBot.Main.Runtime
import ArbBot.Main.System

/-!
# The main loop

Port of `run` of `src/main.py`. `start` is the part ahead of the loop: it may raise, and then there is
no bot. `turn` is the body of the loop, as a script (`Lib/Script`) whose effects are the updates of the
dashboard and the messages; an exception in it ends the bot, with what was done until then. It is `cycle`
and the sleep, which may raise as well. `run` is a whole run, up to the stop signal or the exception. What
the bot cannot know is the input of a cycle (`CycleInput`): what the exchanges answer and in which order,
and the clock readings; and for the start, what it finds (`World`). Log lines are left out, as is what the
dashboard's server answers, which reads the state that the loop updates.

`Act` lists everything that a cycle does once the results of its scan are published, with all that the
code has checked before it does so, and `cycle_cases` is the inversion of a cycle: a scan, its results,
and a chain of acts. Properties of the bot are proved by cases on `Act`.
-/

namespace ArbBot

open OpportunityEngine PaperExecutor Script

/-- The state of the main loop. -/
structure Bot where
  gateway : Gateway
  engine : OpportunityEngine
  executor : PaperExecutor
  runtime : RuntimeState
  cycles : ℕ
  lastStatusTs : ℚ
  blockedAlertSent : Bool

/-- What a cycle sees: the messages of the streams and the jobs of its fetch, in the order in which they
run; the order in which the jobs complete; and the readings of the clock in the scan, at the attempts,
at the rebalances and at the status report. -/
structure CycleInput (clients symbols : List String) where
  events : List GatewayEvent
  jobs : (events.filterMap GatewayEvent.job).Perm (jobsOf clients symbols)
  complete : List (Option TickerSnapshot) → List (Option TickerSnapshot)
  perm : ∀ returned, (complete returned).Perm returned
  scanClock : ℕ → ℚ
  attemptClock : ℕ → ℚ
  rebalanceClock : ℕ → ℚ
  statusTime : ℚ

/-- A message, where the notifier is enabled. -/
def Settings.messages (cfg : Settings) (m : Message) : List Effect :=
  if cfg.notifies then [.send m] else []

/-- What a part of the loop has done. -/
abbrev BotOutcome := Outcome Bot Effect PyError

namespace Bot

/-! ## The parts of a cycle -/

/-- `runtime.update`. -/
def publish (u : Update) (bot : Bot) : BotOutcome :=
  .done { bot with runtime := bot.runtime.update u } [.update u]

/-- `notifier.send`, where the notifier is enabled. -/
def notify (cfg : Settings) (m : Message) (bot : Bot) : BotOutcome :=
  .done bot (cfg.messages m)

/-- `age_ms`. -/
def ageMs (now : ℚ) (opp : Opportunity) : ℤ := clockMs now - opp.timestampMs

/-- The message about an executed opportunity. -/
def tradedMessage (opp : Opportunity) : Message :=
  .traded opp.symbol opp.buyExchange opp.sellExchange opp.quantity opp.expectedProfitUsdt

/-- The loop over `attempts`, and what it publishes when nothing was executed. As in `attemptLoop`, the
`k`-th opportunity is aged at reading `2k` of the clock and executed at reading `2k + 1`. -/
def tryAttempts (cfg : Settings) (clock : ℕ → ℚ) : ℕ → List Opportunity → Bot → BotOutcome
  | _, [], bot => publish .noExecutableRoute bot
  | k, opp :: opps, bot =>
    if tooOld cfg.toBotConfig (clock (2 * k)) opp then
      (publish (.opportunityStale (ageMs (clock (2 * k)) opp)) bot).andThen
        (tryAttempts cfg clock (k + 1) opps)
    else
      match execute cfg.toBotConfig bot.executor (clock (2 * k + 1)) opp with
      | .error e => ⟨bot, [], some e⟩
      | .ok (r, executor) =>
        if r.success then
          (publish (.executed r.reason executor.lastOrderPayload) { bot with executor }).andThen
            (notify cfg (tradedMessage opp))
        else tryAttempts cfg clock (k + 1) opps { bot with executor }

/-- The part of a cycle from `if opportunities` to its `else`. -/
def trade (cfg : Settings) (clock : ℕ → ℚ) (opportunities : List Opportunity) (bot : Bot) :
    BotOutcome :=
  match opportunities with
  | [] => publish .noOpportunity bot
  | best :: _ => (publish (.bestOpportunity best) bot).andThen
      (tryAttempts cfg clock 0 (attempts cfg.toBotConfig opportunities))

/-- The body of the loop over the symbols. -/
def rebalance (cfg : Settings) (clock : ℕ → ℚ) (entry : String × ℕ) (bot : Bot) : BotOutcome :=
  match rebalanceSymbolInventory cfg.toBotConfig bot.executor (clock entry.2) entry.1 with
  | .error e => ⟨bot, [], some e⟩
  | .ok (none, executor) => .done { bot with executor } []
  | .ok (some message, executor) =>
    (notify cfg (.rebalanced message) { bot with executor }).andThen (publish (.rebalanced message))

/-- The alert that the risk guard has blocked the bot, which is sent once. -/
def alertBlocked (cfg : Settings) (bot : Bot) : BotOutcome :=
  if bot.executor.risk.blocked ∧ cfg.notifies ∧ ¬bot.blockedAlertSent then
    .done { bot with blockedAlertSent := true } [.send (.blocked bot.executor.risk.blockedReason)]
  else .done bot []

/-- The status report. -/
def reportStatus (cfg : Settings) (nowTs : ℚ) (bot : Bot) : BotOutcome :=
  if cfg.statusLogIntervalSec ≤ nowTs - bot.lastStatusTs then
    (publish (.status bot.executor.getMetrics bot.executor.balanceSummary) bot).andThen fun bot =>
      .done { bot with lastStatusTs := nowTs } []
  else .done bot []

variable {clients symbols : List String}

/-- `market`: what the jobs return, collected in the order of completion. -/
def market (cfg : Settings) (input : CycleInput clients symbols) (bot : Bot) : Market :=
  fetchAllTickers clients
    (input.complete (Gateway.fetched cfg.toBotConfig bot.gateway input.events))

/-- What is published after a scan. -/
def scanReport (cfg : Settings) (market : Market) (opportunities : List Opportunity) (bot : Bot) :
    ScanReport where
  cycle := bot.cycles
  opportunityCount := opportunities.length
  rejectionsLastCycle := bot.engine.rejectionCountsLastCycle
  rejectionsTotal := bot.engine.rejectionCountsTotal
  netSpreadDistribution := bot.engine.netSpreadDistributionLastCycle
  executionDiagnostics := bot.engine.executionDiagnosticsLastCycle
  marketDataSourceCounts := sourceCounts market
  marketDataSourceByExchange := sourceCountsByExchange cfg.toBotConfig market

/-- The bot after it has counted the cycle and fetched the tickers. -/
def fetch (cfg : Settings) (input : CycleInput clients symbols) (bot : Bot) : Bot :=
  { bot with
    cycles := bot.cycles + 1
    gateway := (Gateway.machine cfg.toBotConfig).run bot.gateway input.events }

/-- What a cycle does once the scan has returned. -/
def afterScan (cfg : Settings) (input : CycleInput clients symbols) (market : Market)
    (opportunities : List Opportunity) (bot : Bot) : BotOutcome :=
  (publish (.scanCompleted (scanReport cfg market opportunities bot)) bot).andThen fun bot =>
    (trade cfg input.attemptClock opportunities bot).andThen fun bot =>
      (forEach (rebalance cfg input.rebalanceClock) cfg.symbols.zipIdx bot).andThen fun bot =>
        (alertBlocked cfg bot).andThen (reportStatus cfg input.statusTime)

/-- The body of the main loop, up to the sleep. -/
def cycle (cfg : Settings) (input : CycleInput clients symbols) (bot : Bot) : BotOutcome :=
  let market := bot.market cfg input
  match findOpportunities cfg.toBotConfig bot.engine market input.scanClock with
  | (.error e, engine) => ⟨{ bot.fetch cfg input with engine }, [], some e⟩
  | (.ok opportunities, engine) =>
    afterScan cfg input market opportunities { bot.fetch cfg input with engine }

/-- What `time.sleep` raises: the seconds, as nanoseconds rounded away from zero, have to fit into a signed
number of 64 bits and must not be negative. -/
def sleepError (seconds : ℚ) : Option PyError :=
  let ns : ℤ := if 0 ≤ seconds then ⌈seconds * 10 ^ 9⌉ else ⌊seconds * 10 ^ 9⌋
  if ns < -2 ^ 63 ∨ 2 ^ 63 ≤ ns then some .overflowError
  else if ns < 0 then some .valueError
  else none

/-- The sleep at the end of a cycle. -/
def sleep (cfg : Settings) (bot : Bot) : BotOutcome := ⟨bot, [], sleepError cfg.pollIntervalSec⟩

/-- The body of the main loop. -/
def turn (cfg : Settings) (input : CycleInput clients symbols) (bot : Bot) : BotOutcome :=
  (cycle cfg input bot).andThen (sleep cfg)

@[simp] lemma turn_state (cfg : Settings) (input : CycleInput clients symbols) (bot : Bot) :
    (turn cfg input bot).state = (cycle cfg input bot).state := by
  unfold turn
  cases e : (cycle cfg input bot).error with
  | some err => rw [Outcome.andThen_of_raised e]
  | none => rw [Outcome.andThen_of_returned e]; rfl

@[simp] lemma turn_emitted (cfg : Settings) (input : CycleInput clients symbols) (bot : Bot) :
    (turn cfg input bot).emitted = (cycle cfg input bot).emitted := by
  unfold turn
  cases e : (cycle cfg input bot).error with
  | some err => rw [Outcome.andThen_of_raised e]
  | none => rw [Outcome.andThen_of_returned e]; exact List.append_nil _

/-- The loop goes on when the cycle returns and can be slept after. -/
lemma turn_error {cfg : Settings} {input : CycleInput clients symbols} {bot : Bot} :
    (turn cfg input bot).error = none ↔
      (cycle cfg input bot).error = none ∧ sleepError cfg.pollIntervalSec = none :=
  Outcome.andThen_error

end Bot

/-! ## A whole run -/

/-- A bot that has been started: its settings, with the resolved fees, the exchanges that have a client,
its state, and what it has emitted on the way. -/
structure Session where
  cfg : Settings
  clients : List String
  bot : Bot
  opening : List Effect

/-- What the start of the bot finds: the attributes of `ccxt`, where there is one of that name, with the
client that its call gives or the exception that it raises; and what it comes to when the server of the
dashboard is built and started for a host and a port. -/
structure World where
  ccxt : String → Option (Except PyError FeeClient)
  serve : String → ℤ → Except PyError Unit

/-- The part of `run` that starts the dashboard, where it is enabled. An `OSError` is caught, and then
there is no dashboard. -/
def startDashboard (cfg : Settings) (world : World) : Except PyError Unit :=
  if cfg.dashboardEnabled then
    match world.serve cfg.dashboardHost cfg.dashboardPort with
    | .ok () => .ok ()
    | .error .osError => .ok ()
    | .error e => .error e
  else .ok ()

/-- `run`, up to the loop. -/
def start (settings : Settings) (world : World) : Except PyError Session := do
  let settings := settings.supported
  let clients ← initClients world.ccxt settings.exchanges
  let resolved ← resolveTakerFees clients settings.symbols settings.feesTaker
  let cfg := { settings with feesTaker := resolved.fees }
  let executor ← PaperExecutor.init cfg.toBotConfig
  let runtime : RuntimeState :=
    { mode := cfg.mode, exchanges := cfg.exchanges, symbols := cfg.symbols }
  startDashboard cfg world
  return {
    cfg
    clients := clients.keys
    bot := {
      gateway := .init cfg.enableWebsocketMarketData clients.keys
      engine := .init cfg.toBotConfig
      executor
      runtime := runtime.update (.feeSources resolved.sources)
      cycles := 0
      lastStatusTs := 0
      blockedAlertSent := false }
    opening := .update (.feeSources resolved.sources) ::
      cfg.messages (.started cfg.mode cfg.symbols) }

/-- How a bot is started. -/
structure Started (settings : Settings) (world : World) (session : Session) : Prop where
  clients : ∃ clients, initClients world.ccxt settings.exchanges = .ok clients ∧
    session.clients = clients.keys
  cfg : ∃ clients resolved, resolveTakerFees clients settings.symbols settings.feesTaker = .ok resolved ∧
    session.cfg = { settings.supported with feesTaker := resolved.fees } ∧
    session.opening = .update (.feeSources resolved.sources) ::
      session.cfg.messages (.started session.cfg.mode session.cfg.symbols)
  gateway : session.bot.gateway = .init session.cfg.enableWebsocketMarketData session.clients
  engine : session.bot.engine = .init session.cfg.toBotConfig
  executor : PaperExecutor.init session.cfg.toBotConfig = .ok session.bot.executor
  runtime : ∃ sources, session.bot.runtime = RuntimeState.update
    { mode := session.cfg.mode, exchanges := session.cfg.exchanges, symbols := session.cfg.symbols }
    (.feeSources sources)
  cycles : session.bot.cycles = 0
  lastStatusTs : session.bot.lastStatusTs = 0
  blockedAlertSent : session.bot.blockedAlertSent = false

/-- Inversion of the start. -/
lemma start_started {settings world session} (e : start settings world = .ok session) :
    Started settings world session := by
  obtain ⟨clients, hclients, e⟩ := Loop.bind_eq_ok.1 e
  obtain ⟨resolved, hfees, e⟩ := Loop.bind_eq_ok.1 e
  obtain ⟨executor, hexecutor, e⟩ := Loop.bind_eq_ok.1 e
  obtain ⟨_, _, e⟩ := Loop.bind_eq_ok.1 e
  cases e
  exact {
    clients := ⟨clients, hclients, rfl⟩
    cfg := ⟨clients, resolved, hfees, rfl, rfl⟩
    gateway := rfl
    engine := rfl
    executor := hexecutor
    runtime := ⟨_, rfl⟩
    cycles := rfl
    lastStatusTs := rfl
    blockedAlertSent := rfl }

/-- The cycles of a run, until one of them raises, or the sleep after it. -/
def Session.cycles (session : Session)
    (inputs : List (CycleInput session.clients session.cfg.symbols)) : BotOutcome :=
  forEach (Bot.turn session.cfg) inputs session.bot

/-- A run: the cycles until the stop signal is found, or until one of them raises or cannot be slept after,
and the `finally` block. -/
def Session.run (session : Session)
    (inputs : List (CycleInput session.clients session.cfg.symbols)) : BotOutcome :=
  let out := session.cycles inputs
  { out with
    emitted := session.opening ++ out.emitted ++ session.cfg.messages .stopped }

/-! ## Inversion -/

/-- An update about the attempts that tells of no trade. -/
def Update.plain : Update → Bool
  | .opportunityStale _ => true
  | .noExecutableRoute => true
  | .feeSources _ => false
  | .scanCompleted _ => false
  | .bestOpportunity _ => false
  | .noOpportunity => false
  | .executed _ _ => false
  | .rebalanced _ => false
  | .status _ _ => false

namespace Bot

variable {clients symbols : List String}

/-- What is published about the opportunities that a scan has returned. -/
def headline : List Opportunity → Update
  | [] => .noOpportunity
  | best :: _ => .bestOpportunity best

/-- The bot once a scan has returned and its results are published. -/
def scanned (cfg : Settings) (input : CycleInput clients symbols) (opps : List Opportunity)
    (engine : OpportunityEngine) (bot : Bot) : Bot :=
  { bot.fetch cfg input with
    engine
    runtime := (bot.runtime.update (.scanCompleted
      (scanReport cfg (bot.market cfg input) opps { bot.fetch cfg input with engine }))).update
      (headline opps) }

/-- The acts of a cycle after its scan, which returned `opps`, is published. -/
inductive Act (cfg : Settings) (input : CycleInput clients symbols) (opps : List Opportunity) :
    Bot → List Effect → Bot → Prop where
  | published {bot u} (plain : u.plain = true) :
      Act cfg input opps bot [.update u] { bot with runtime := bot.runtime.update u }
  | refused {bot k opp r executor} (tried : (attempts cfg.toBotConfig opps)[k]? = some opp)
      (young : tooOld cfg.toBotConfig (input.attemptClock (2 * k)) opp = false)
      (call : execute cfg.toBotConfig bot.executor (input.attemptClock (2 * k + 1)) opp =
        .ok (r, executor)) (fails : r.success = false) :
      Act cfg input opps bot [] { bot with executor }
  | executed {bot k opp r executor} (tried : (attempts cfg.toBotConfig opps)[k]? = some opp)
      (young : tooOld cfg.toBotConfig (input.attemptClock (2 * k)) opp = false)
      (call : execute cfg.toBotConfig bot.executor (input.attemptClock (2 * k + 1)) opp =
        .ok (r, executor)) (succeeds : r.success = true) :
      Act cfg input opps bot
        (.update (.executed r.reason executor.lastOrderPayload) ::
          cfg.messages (tradedMessage opp))
        { bot with
          executor
          runtime := bot.runtime.update (.executed r.reason executor.lastOrderPayload) }
  | idle {bot symbol k executor} (mem : symbol ∈ cfg.symbols)
      (call : rebalanceSymbolInventory cfg.toBotConfig bot.executor (input.rebalanceClock k) symbol =
        .ok (none, executor)) :
      Act cfg input opps bot [] { bot with executor }
  | rebalanced {bot symbol k message executor} (mem : symbol ∈ cfg.symbols)
      (call : rebalanceSymbolInventory cfg.toBotConfig bot.executor (input.rebalanceClock k) symbol =
        .ok (some message, executor)) :
      Act cfg input opps bot
        (cfg.messages (.rebalanced message) ++ [.update (.rebalanced message)])
        { bot with executor, runtime := bot.runtime.update (.rebalanced message) }
  | alerted {bot} (blocked : bot.executor.risk.blocked = true) (enabled : cfg.notifies = true)
      (first : bot.blockedAlertSent = false) :
      Act cfg input opps bot [.send (.blocked bot.executor.risk.blockedReason)]
        { bot with blockedAlertSent := true }
  | reported {bot} (due : cfg.statusLogIntervalSec ≤ input.statusTime - bot.lastStatusTs) :
      Act cfg input opps bot [.update (.status bot.executor.getMetrics bot.executor.balanceSummary)]
        { bot with
          runtime := bot.runtime.update
            (.status bot.executor.getMetrics bot.executor.balanceSummary)
          lastStatusTs := input.statusTime }

/-- A part of a cycle is a chain of acts, also where it raises. -/
abbrev Acts (cfg : Settings) (input : CycleInput clients symbols) (opps : List Opportunity) (bot : Bot)
    (out : BotOutcome) : Prop :=
  Chain (Act cfg input opps) bot out.emitted out.state

variable {cfg : Settings} {input : CycleInput clients symbols} {opps : List Opportunity}

lemma tryAttempts_acts {k : ℕ} {tried : List Opportunity} {bot : Bot}
    (left : (attempts cfg.toBotConfig opps).drop k = tried) :
    Acts cfg input opps bot (tryAttempts cfg input.attemptClock k tried bot) := by
  induction tried generalizing k bot with
  | nil => exact .single (.published rfl)
  | cons opp tried ih =>
    have later : ∀ bot, Acts cfg input opps bot (tryAttempts cfg input.attemptClock (k + 1) tried bot) :=
      fun bot => ih (by rw [← List.tail_drop, left, List.tail_cons])
    have first : (attempts cfg.toBotConfig opps)[k]? = some opp := by
      rw [← Nat.add_zero k, ← List.getElem?_drop, left, List.getElem?_cons_zero]
    unfold tryAttempts
    split
    case isTrue => exact .cons (.published rfl) (later _)
    case isFalse young =>
      have young := Bool.eq_false_iff.2 young
      cases call : execute cfg.toBotConfig bot.executor (input.attemptClock (2 * k + 1)) opp with
      | error e => exact .nil
      | ok returned =>
        obtain ⟨r, executor⟩ := returned
        dsimp only
        split
        case isTrue succeeds => exact .single (.executed first young call succeeds)
        case isFalse fails =>
          exact .cons (.refused first young call (Bool.eq_false_iff.2 fails)) (later _)

lemma rebalance_acts {bot : Bot} {entry : String × ℕ} (mem : entry.1 ∈ cfg.symbols) :
    Acts cfg input opps bot (rebalance cfg input.rebalanceClock entry bot) := by
  unfold rebalance
  cases call : rebalanceSymbolInventory cfg.toBotConfig bot.executor
      (input.rebalanceClock entry.2) entry.1 with
  | error e => exact .nil
  | ok returned =>
    obtain ⟨message, executor⟩ := returned
    cases message with
    | none => exact .single (.idle mem call)
    | some message => exact .single (.rebalanced mem call)

lemma alertBlocked_acts {bot : Bot} : Acts cfg input opps bot (alertBlocked cfg bot) := by
  unfold alertBlocked
  split
  case isTrue h => exact .single (.alerted h.1 h.2.1 (Bool.eq_false_iff.2 h.2.2))
  case isFalse => exact .nil

lemma reportStatus_acts {bot : Bot} :
    Acts cfg input opps bot (reportStatus cfg input.statusTime bot) := by
  unfold reportStatus
  split
  case isTrue due => exact .single (.reported due)
  case isFalse => exact .nil

/-- What follows the attempts is a chain of acts. -/
lemma afterTrade_acts {bot : Bot} :
    Acts cfg input opps bot ((forEach (rebalance cfg input.rebalanceClock) cfg.symbols.zipIdx bot).andThen
      fun bot => (alertBlocked cfg bot).andThen (reportStatus cfg input.statusTime)) := by
  refine andThen_rel Chain.trans (forEach_rel (fun _ => .nil) Chain.trans fun entry mem bot => ?_)
    fun _ => andThen_rel Chain.trans alertBlocked_acts fun _ => reportStatus_acts
  exact rebalance_acts (List.fst_mem_of_mem_zipIdx mem)

/-- What a cycle does: it raises in the scan, or it scans, publishes the results, and acts. -/
inductive Cycled (cfg : Settings) (input : CycleInput clients symbols) (bot : Bot) :
    BotOutcome → Prop where
  | raised {e engine}
      (scan : findOpportunities cfg.toBotConfig bot.engine (bot.market cfg input) input.scanClock =
        (.error e, engine)) :
      Cycled cfg input bot ⟨{ bot.fetch cfg input with engine }, [], some e⟩
  | scanned {opps engine v bot' error}
      (scan : findOpportunities cfg.toBotConfig bot.engine (bot.market cfg input) input.scanClock =
        (.ok opps, engine))
      (acts : Chain (Act cfg input opps) (bot.scanned cfg input opps engine) v bot') :
      Cycled cfg input bot ⟨bot', .update (.scanCompleted (scanReport cfg (bot.market cfg input) opps
        { bot.fetch cfg input with engine })) :: .update (headline opps) :: v, error⟩

/-- Inversion of a cycle. -/
theorem cycle_cases (cfg : Settings) (input : CycleInput clients symbols) (bot : Bot) :
    Cycled cfg input bot (cycle cfg input bot) := by
  unfold cycle
  rcases scan : findOpportunities cfg.toBotConfig bot.engine (bot.market cfg input) input.scanClock
    with ⟨result, engine⟩
  cases result with
  | error e => simp only [scan]; exact .raised scan
  | ok opps =>
    simp only [scan]
    cases opps with
    | nil => exact .scanned scan afterTrade_acts
    | cons best opps =>
      unfold afterScan trade
      simp only [Outcome.andThen_assoc]
      exact .scanned scan (andThen_rel Chain.trans (tryAttempts_acts rfl)
        fun _ => afterTrade_acts)

end Bot

/-! ## A sample -/

/-- The default settings on two exchanges and one symbol, with a notifier. -/
def sampleSettings : Settings :=
  { defaultConfig with
    exchanges := ["binance", "bybit"]
    symbols := ["BTC/USDT"]
    pollIntervalSec := 2
    enableWebsocketMarketData := true
    statusLogIntervalSec := 30
    dashboardEnabled := true
    dashboardHost := "127.0.0.1"
    dashboardPort := 8080
    telegramBotToken := "token"
    telegramChatId := "chat" }

/-- Both exchanges are known, and report no fees; `errors` is a module; and the ports are those of TCP. -/
def sampleWorld : World where
  ccxt exchangeName :=
    if exchangeName ∈ ["binance", "bybit"] then some (.ok ⟨.error .valueError, none⟩)
    else if exchangeName = "errors" then some (.error .typeError)
    else none
  serve _ port := if 0 ≤ port ∧ port ≤ 65535 then .ok () else .error .overflowError

/-- The sample, started. -/
def sampleSession : Session :=
  (start sampleSettings sampleWorld).toOption.get (by decide +kernel)

lemma sampleSession_started : start sampleSettings sampleWorld = .ok sampleSession := by
  have some : (start sampleSettings sampleWorld).toOption = some sampleSession :=
    (Option.some_get _).symm
  cases e : start sampleSettings sampleWorld with
  | error e' => rw [e] at some; cases some
  | ok session => rw [e] at some; exact congrArg Except.ok (Option.some.inj some)

/-- A client with two prices and a book at these prices. -/
def sampleQuotes (bid ask : ℚ) : Client where
  fetchTicker _ := .ok
    { bid := .num bid, ask := .num ask, bidVolume := .num 1, askVolume := .num 1, timestamp := .none }
  fetchOrderBook _ := .ok { asks := [[.num ask, .num 1]], bids := [[.num bid, .num 1]] }

/-- A cycle in which one exchange pays more than the other one asks. -/
def sampleInput : CycleInput sampleSession.clients sampleSession.cfg.symbols where
  events := [.fetch "binance" "BTC/USDT" (sampleQuotes 49990 50000) fun _ => 99,
    .fetch "bybit" "BTC/USDT" (sampleQuotes 50500 50510) fun _ => 99]
  jobs := by decide +kernel
  complete := List.reverse
  perm := List.reverse_perm
  scanClock _ := 100
  attemptClock _ := 100
  rebalanceClock _ := 100
  statusTime := 100

end ArbBot
