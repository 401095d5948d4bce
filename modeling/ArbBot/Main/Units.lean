import ArbBot.Exchanges.Units
import ArbBot.Executor.Units
import ArbBot.Main.Bot

/-!
# The unit of money

Engine and executor do not depend on the unit in which the quote currency is counted: with the capitals,
the smallest notional and the prices of the market in another unit, a run takes the same decisions at
the same times, with the same sizes, and its money in the new unit (`unit_blind`). So does the whole
bot, when its exchanges quote in the new unit (`bot_unit_blind`). So no rule of the bot has an amount of
money of its own; all of them are configured.
-/

namespace ArbBot

open OpportunityEngine PaperExecutor Script

/-- The call, with money in another unit. -/
def PaperExecutor.Op.inUnit (k : ℚ) : Op → Op
  | .execute nowTs opp => .execute nowTs (opp.inUnit k)
  | .rebalance nowTs symbol => .rebalance nowTs symbol

/-- The event, with money in another unit. -/
def PaperExecutor.Event.inUnit (k : ℚ) : Event → Event
  | .raised e => .raised e
  | .traded opp r => .traded (opp.inUnit k) (r.inUnit k)
  | .rebalanced symbol message => .rebalanced symbol message

/-- The input, with money in another unit. -/
def SystemOp.inUnit (k : ℚ) : SystemOp → SystemOp
  | .scan market clock => .scan (market.inUnit k) clock
  | .call op => .call (op.inUnit k)

/-- The output, with money in another unit. -/
def SystemEvent.inUnit (k : ℚ) : SystemEvent → SystemEvent
  | .scanned result => .scanned (result.map (List.map (Opportunity.inUnit k)))
  | .answered ev => .answered (ev.inUnit k)

/-- A call on the executor, in both units. -/
lemma PaperExecutor.step_inUnit {k : ℚ} {s s' : PaperExecutor} (cfg : BotConfig) (pos : 0 < k)
    (state : InUnit k s s') (op : Op) :
    InUnit k (step cfg s op).1 (step (cfg.inUnit k) s' (op.inUnit k)).1 ∧
      (step (cfg.inUnit k) s' (op.inUnit k)).2 = (step cfg s op).2.inUnit k := by
  cases op with
  | execute nowTs opp =>
    have same := execute_inUnit cfg pos state nowTs opp
    simp only [step, Op.inUnit]
    generalize execute cfg s nowTs opp = x at same ⊢
    generalize execute (cfg.inUnit k) s' nowTs (opp.inUnit k) = x' at same ⊢
    cases same with
    | raised => exact ⟨state, rfl⟩
    | returned same => exact ⟨same.state, congrArg (Event.traded (opp.inUnit k)) same.answer⟩
  | rebalance nowTs symbol =>
    simp only [step, Op.inUnit]
    rcases rebalance_inUnit cfg state nowTs symbol with ⟨e, h, h'⟩ | ⟨m, t, t', h, h', next⟩
    · rw [h, h']
      exact ⟨state, rfl⟩
    · rw [h, h']
      exact ⟨next, rfl⟩

namespace System

/-- The two systems are in the same state, in their units. -/
structure InUnit (k : ℚ) (sys sys' : System) : Prop where
  engine : sys'.engine = sys.engine
  executor : PaperExecutor.InUnit k sys.executor sys'.executor
  issued : sys'.issued = sys.issued.map (Opportunity.inUnit k)

variable {k : ℚ} {cfg : BotConfig}

/-- One step of the system, in both units. -/
lemma step_inUnit (pos : 0 < k) {sys sys' : System} (same : InUnit k sys sys') (op : SystemOp) :
    InUnit k ((machine cfg).next sys op) ((machine (cfg.inUnit k)).next sys' (op.inUnit k)) ∧
      (machine (cfg.inUnit k)).out sys' (op.inUnit k) = ((machine cfg).out sys op).inUnit k := by
  show InUnit k (step cfg sys op).1 (step (cfg.inUnit k) sys' (op.inUnit k)).1 ∧
      (step (cfg.inUnit k) sys' (op.inUnit k)).2 = (step cfg sys op).2.inUnit k
  cases op with
  | scan market clock =>
    have scanned := findOpportunities_inUnit pos cfg sys.engine market clock
    simp only [step, SystemOp.inUnit, same.engine, scanned]
    refine ⟨?_, rfl⟩
    refine {
      engine := rfl
      executor := same.executor
      issued := ?_ }
    show sys'.issued ++ _ = _
    rw [same.issued]
    cases (findOpportunities cfg sys.engine market clock).1 with
    | error e => simp [Except.map, Except.toOption]
    | ok opps => simp [Except.map, Except.toOption]
  | call op =>
    obtain ⟨state, answer⟩ := PaperExecutor.step_inUnit cfg pos same.executor op
    refine ⟨?_, congrArg SystemEvent.answered answer⟩
    exact {
      engine := same.engine
      executor := state
      issued := same.issued }

/-- A run in another unit of money takes the same decisions. -/
theorem unit_blind (pos : 0 < k) {s₀} (hinit : PaperExecutor.init cfg = .ok s₀)
    (engine₀ : OpportunityEngine) :
    ∃ s₀', PaperExecutor.init (cfg.inUnit k) = .ok s₀' ∧ ∀ ops,
      (machine (cfg.inUnit k)).outs ⟨engine₀, s₀', []⟩ (ops.map (SystemOp.inUnit k)) =
          ((machine cfg).outs ⟨engine₀, s₀, []⟩ ops).map (SystemEvent.inUnit k) ∧
        InUnit k ((machine cfg).run ⟨engine₀, s₀, []⟩ ops)
          ((machine (cfg.inUnit k)).run ⟨engine₀, s₀', []⟩ (ops.map (SystemOp.inUnit k))) := by
  obtain ⟨s₀', hinit', start⟩ := init_inUnit k hinit
  refine ⟨s₀', hinit', fun ops => ?_⟩
  have same : InUnit k ⟨engine₀, s₀, []⟩ ⟨engine₀, s₀', []⟩ :=
    { engine := rfl
      executor := start
      issued := rfl }
  exact Machine.outs_hom (R := InUnit k) (fun _ _ op same => step_inUnit pos same op) same ops

/-- In cents, the default configuration finds the same opportunity, and earns a hundred times as much. -/
theorem unit_blind_sample :
    ∃ s₀ s₀', PaperExecutor.init defaultConfig = .ok s₀ ∧
      PaperExecutor.init (defaultConfig.inUnit 100) = .ok s₀' ∧
      ((machine (defaultConfig.inUnit 100)).run ⟨OpportunityEngine.init defaultConfig, s₀', []⟩
          [.scan (sampleMarket.inUnit 100) fun _ => 1, .call (.execute 1 (sampleOpportunity.inUnit 100))]
          ).executor.risk.realizedPnlUsdt =
        100 * ((machine defaultConfig).run ⟨OpportunityEngine.init defaultConfig, s₀, []⟩
          [.scan sampleMarket fun _ => 1, .call (.execute 1 sampleOpportunity)]
          ).executor.risk.realizedPnlUsdt := by
  obtain ⟨s₀, hinit⟩ := init_default
  obtain ⟨s₀', hinit', same⟩ := unit_blind (k := 100) (by norm_num) hinit
    (OpportunityEngine.init defaultConfig)
  refine ⟨s₀, s₀', hinit, hinit', ?_⟩
  exact congrArg RiskState.realizedPnlUsdt
    (same [.scan sampleMarket fun _ => 1, .call (.execute 1 sampleOpportunity)]).2.executor.risk

end System

/-! ## What the bot sees and shows -/

/-- The settings, with money in another unit. -/
def Settings.inUnit (k : ℚ) (settings : Settings) : Settings :=
  { settings with toBotConfig := settings.toBotConfig.inUnit k }

/-- What the jobs return is found again, in another unit and back. -/
lemma returned_inUnit_back {k l : ℚ} (back : l * k = 1) (returned : List (Option TickerSnapshot)) :
    (returned.map (Option.map (TickerSnapshot.inUnit k))).map (Option.map (TickerSnapshot.inUnit l)) =
      returned := by
  have price : ∀ x : ℚ, l * (k * x) = x := fun x => by rw [← mul_assoc, back, one_mul]
  have row : TickerSnapshot.inUnit l ∘ TickerSnapshot.inUnit k = id := funext fun row => by
    simp only [Function.comp_apply, TickerSnapshot.inUnit, price, id_eq]
  rw [List.map_map, Option.map_comp_map, row, Option.map_id, List.map_id]

/-- What a cycle sees, with prices in another unit; the jobs complete in the same order. -/
def CycleInput.inUnit {clients symbols : List String} (k : ℚ) (hk : k ≠ 0)
    (input : CycleInput clients symbols) : CycleInput clients symbols :=
  { input with
    events := input.events.map (GatewayEvent.inUnit k)
    jobs := by
      rw [List.filterMap_map, show GatewayEvent.job ∘ GatewayEvent.inUnit k = GatewayEvent.job from
        funext (job_inUnit k)]
      exact input.jobs
    complete := fun returned =>
      (input.complete (returned.map (Option.map (TickerSnapshot.inUnit k⁻¹)))).map
        (Option.map (TickerSnapshot.inUnit k))
    perm := fun returned => by
      have perm := (input.perm (returned.map (Option.map (TickerSnapshot.inUnit k⁻¹)))).map
        (Option.map (TickerSnapshot.inUnit k))
      rwa [returned_inUnit_back (mul_inv_cancel₀ hk)] at perm }

/-- The metrics, with money in another unit. -/
def Metrics.inUnit (k : ℚ) (metrics : Metrics) : Metrics :=
  { metrics with realizedPnlUsdt := k * metrics.realizedPnlUsdt }

/-- The message, with money in another unit. -/
def Message.inUnit (k : ℚ) : Message → Message
  | .started mode symbols => .started mode symbols
  | .traded symbol buyExchange sellExchange quantity expectedProfitUsdt =>
    .traded symbol buyExchange sellExchange quantity (k * expectedProfitUsdt)
  | .rebalanced message => .rebalanced message
  | .blocked reason => .blocked reason
  | .stopped => .stopped

/-- The same update in both units. The amounts of money in the payload of an order and in the balances are
rounded, and are not compared. -/
inductive Update.InUnit (k : ℚ) : Update → Update → Prop where
  | feeSources (sources) : InUnit k (.feeSources sources) (.feeSources sources)
  | scanCompleted (report) : InUnit k (.scanCompleted report) (.scanCompleted report)
  | bestOpportunity (opp) : InUnit k (.bestOpportunity opp) (.bestOpportunity (opp.inUnit k))
  | opportunityStale (ageMs) : InUnit k (.opportunityStale ageMs) (.opportunityStale ageMs)
  | executed (reason) {payload payload'}
      (same : payload'.map OrderPayload.unpriced = payload.map OrderPayload.unpriced) :
    InUnit k (.executed reason payload) (.executed reason payload')
  | noExecutableRoute : InUnit k .noExecutableRoute .noExecutableRoute
  | noOpportunity : InUnit k .noOpportunity .noOpportunity
  | rebalanced (message) : InUnit k (.rebalanced message) (.rebalanced message)
  | status (metrics) {balances balances'}
      (same : balances'.mapVal BalanceLine.baseTotal = balances.mapVal BalanceLine.baseTotal) :
    InUnit k (.status metrics balances) (.status (metrics.inUnit k) balances')

/-- The same effect in both units. -/
inductive Effect.InUnit (k : ℚ) : Effect → Effect → Prop where
  | update {u u'} (same : Update.InUnit k u u') : InUnit k (.update u) (.update u')
  | send (m) : InUnit k (.send m) (.send (m.inUnit k))

namespace Bot

/-- The bot, with money in another unit. -/
def inUnit (k : ℚ) (bot : Bot) : Bot :=
  { bot with gateway := bot.gateway.inUnit k, executor := bot.executor.inUnit k }

/-- The two bots are in the same state, in their units. What the dashboard shows follows from the
updates. -/
structure InUnit (k : ℚ) (bot bot' : Bot) : Prop where
  gateway : bot'.gateway = bot.gateway.inUnit k
  engine : bot'.engine = bot.engine
  executor : PaperExecutor.InUnit k bot.executor bot'.executor
  cycles : bot'.cycles = bot.cycles
  lastStatusTs : bot'.lastStatusTs = bot.lastStatusTs
  blockedAlertSent : bot'.blockedAlertSent = bot.blockedAlertSent

/-- The second part of the loop does what the first one does, in another unit. -/
abbrev FollowsInUnit (k : ℚ) : BotOutcome → BotOutcome → Prop := Follows (InUnit k) (Effect.InUnit k)

variable {k : ℚ} {bot bot' : Bot}

/-! ## The parts of a cycle -/

lemma publish_inUnit {u u' : Update} (h : u.InUnit k u') (same : InUnit k bot bot') :
    FollowsInUnit k (publish u bot) (publish u' bot') :=
  done_follows
    { gateway := same.gateway
      engine := same.engine
      executor := same.executor
      cycles := same.cycles
      lastStatusTs := same.lastStatusTs
      blockedAlertSent := same.blockedAlertSent }
    (.cons (.update h) .nil)

lemma messages_inUnit (k : ℚ) (cfg : Settings) (m : Message) :
    List.Forall₂ (Effect.InUnit k) (cfg.messages m) ((cfg.inUnit k).messages (m.inUnit k)) := by
  refine ite_inUnit (R := List.Forall₂ (Effect.InUnit k)) Iff.rfl ?_ .nil
  exact .cons (.send m) .nil

lemma notify_inUnit (cfg : Settings) (m : Message) (same : InUnit k bot bot') :
    FollowsInUnit k (notify cfg m bot) (notify (cfg.inUnit k) (m.inUnit k) bot') :=
  done_follows same (messages_inUnit k cfg m)

/-- The state with another executor. -/
lemma InUnit.execute (same : InUnit k bot bot') {s s' : PaperExecutor}
    (executor : PaperExecutor.InUnit k s s') :
    InUnit k { bot with executor := s } { bot' with executor := s' } where
  gateway := same.gateway
  engine := same.engine
  executor := executor
  cycles := same.cycles
  lastStatusTs := same.lastStatusTs
  blockedAlertSent := same.blockedAlertSent

/-- The attempts are made, and fail and succeed, alike. -/
lemma tryAttempts_inUnit (pos : 0 < k) (cfg : Settings) (clock : ℕ → ℚ) (n : ℕ) (opps : List Opportunity)
    (same : InUnit k bot bot') :
    FollowsInUnit k (tryAttempts cfg clock n opps bot)
      (tryAttempts (cfg.inUnit k) clock n (opps.map (Opportunity.inUnit k)) bot') := by
  induction opps generalizing n bot bot' with
  | nil => exact publish_inUnit .noExecutableRoute same
  | cons opp opps ih =>
    rw [List.map_cons, tryAttempts, tryAttempts]
    refine ite_inUnit (R := FollowsInUnit k) Iff.rfl ?_ ?_
    · exact andThen_follows (publish_inUnit (.opportunityStale _) same) fun _ _ state => ih (n + 1) state
    · have call := execute_inUnit cfg.toBotConfig pos same.executor (clock (2 * n + 1)) opp
      rw [show (cfg.inUnit k).toBotConfig = cfg.toBotConfig.inUnit k from rfl]
      generalize PaperExecutor.execute cfg.toBotConfig bot.executor (clock (2 * n + 1)) opp = x at call ⊢
      generalize PaperExecutor.execute (cfg.toBotConfig.inUnit k) bot'.executor (clock (2 * n + 1))
        (opp.inUnit k) = x' at call ⊢
      cases call with
      | raised => exact ⟨same, .nil, rfl⟩
      | @returned p p' answers =>
        obtain ⟨r, s⟩ := p
        obtain ⟨r', s'⟩ := p'
        obtain ⟨rfl, state⟩ := answers
        refine ite_inUnit (R := FollowsInUnit k) Iff.rfl ?_ (ih (n + 1) (same.execute state))
        refine andThen_follows (publish_inUnit (.executed _ state.lastOrderPayload) (same.execute state)) ?_
        exact fun _ _ state => notify_inUnit cfg (tradedMessage opp) state

lemma trade_inUnit (pos : 0 < k) (cfg : Settings) (clock : ℕ → ℚ) (opps : List Opportunity)
    (same : InUnit k bot bot') :
    FollowsInUnit k (trade cfg clock opps bot)
      (trade (cfg.inUnit k) clock (opps.map (Opportunity.inUnit k)) bot') := by
  cases opps with
  | nil => exact publish_inUnit .noOpportunity same
  | cons best opps =>
    have tried : attempts (cfg.inUnit k).toBotConfig ((best :: opps).map (Opportunity.inUnit k)) =
        (attempts cfg.toBotConfig (best :: opps)).map (Opportunity.inUnit k) := List.map_take.symm
    show FollowsInUnit k _ ((publish (.bestOpportunity (best.inUnit k)) bot').andThen
      (tryAttempts (cfg.inUnit k) clock 0 (attempts (cfg.inUnit k).toBotConfig
        ((best :: opps).map (Opportunity.inUnit k)))))
    rw [tried]
    refine andThen_follows (publish_inUnit (.bestOpportunity best) same) ?_
    exact fun _ _ state => tryAttempts_inUnit pos cfg clock 0 _ state

lemma rebalance_inUnit (cfg : Settings) (clock : ℕ → ℚ) (entry : String × ℕ) (same : InUnit k bot bot') :
    FollowsInUnit k (rebalance cfg clock entry bot) (rebalance (cfg.inUnit k) clock entry bot') := by
  have call := PaperExecutor.rebalance_inUnit cfg.toBotConfig same.executor (clock entry.2) entry.1
  unfold rebalance
  rw [show (cfg.inUnit k).toBotConfig = cfg.toBotConfig.inUnit k from rfl]
  rcases call with ⟨e, h, h'⟩ | ⟨message, t, t', h, h', state⟩
  · rw [h, h']
    exact ⟨same, .nil, rfl⟩
  · rw [h, h']
    cases message with
    | none => exact done_follows (same.execute state) .nil
    | some message =>
      refine andThen_follows (notify_inUnit cfg (.rebalanced message) (same.execute state)) ?_
      exact fun _ _ state => publish_inUnit (.rebalanced message) state

lemma alertBlocked_inUnit (cfg : Settings) (same : InUnit k bot bot') :
    FollowsInUnit k (alertBlocked cfg bot) (alertBlocked (cfg.inUnit k) bot') := by
  have risk := same.executor.risk
  unfold alertBlocked
  rw [risk, same.blockedAlertSent]
  refine ite_inUnit (R := FollowsInUnit k) Iff.rfl ?_ (done_follows same .nil)
  refine done_follows ?_ (.cons (.send (.blocked _)) .nil)
  exact {
    gateway := same.gateway
    engine := same.engine
    executor := same.executor
    cycles := same.cycles
    lastStatusTs := same.lastStatusTs
    blockedAlertSent := rfl }

/-- The lines of the balances, with the same base totals. -/
lemma balanceSummary_inUnit (k : ℚ) (entries : List (String × ExchangeBalance))
    {summary summary' : OrdDict String BalanceLine}
    (same : summary'.mapVal BalanceLine.baseTotal = summary.mapVal BalanceLine.baseTotal) :
    ((entries.map (Prod.map id (ExchangeBalance.inUnit k))).foldl (fun summary (exchangeName, bal) =>
        summary.set exchangeName ⟨pyRound bal.quoteFree 6, pyRound bal.baseFree.values.sum 6⟩)
      summary').mapVal BalanceLine.baseTotal =
      (entries.foldl (fun summary (exchangeName, bal) =>
        summary.set exchangeName ⟨pyRound bal.quoteFree 6, pyRound bal.baseFree.values.sum 6⟩)
      summary).mapVal BalanceLine.baseTotal := by
  induction entries generalizing summary summary' with
  | nil => exact same
  | cons entry entries ih =>
    refine ih ?_
    rw [← OrdDict.set_mapVal, ← OrdDict.set_mapVal, same]
    rfl

lemma reportStatus_inUnit (cfg : Settings) (nowTs : ℚ) (same : InUnit k bot bot') :
    FollowsInUnit k (reportStatus cfg nowTs bot) (reportStatus (cfg.inUnit k) nowTs bot') := by
  have metrics : bot'.executor.getMetrics = bot.executor.getMetrics.inUnit k := by
    rw [getMetrics, same.executor.risk]
    rfl
  have balances : bot'.executor.balanceSummary.mapVal BalanceLine.baseTotal =
      bot.executor.balanceSummary.mapVal BalanceLine.baseTotal := by
    rw [balanceSummary, same.executor.balances]
    exact balanceSummary_inUnit k _ rfl
  unfold reportStatus
  rw [same.lastStatusTs, metrics]
  refine ite_inUnit (R := FollowsInUnit k) Iff.rfl ?_ (done_follows same .nil)
  refine andThen_follows (publish_inUnit (.status _ balances) same) fun bot bot' same => ?_
  refine done_follows ?_ .nil
  exact {
    gateway := same.gateway
    engine := same.engine
    executor := same.executor
    cycles := same.cycles
    lastStatusTs := rfl
    blockedAlertSent := same.blockedAlertSent }

/-! ## A cycle -/

variable {clients symbols : List String}

lemma market_inUnit (pos : 0 < k) (cfg : Settings) (input : CycleInput clients symbols)
    (same : InUnit k bot bot') :
    bot'.market (cfg.inUnit k) (input.inUnit k pos.ne') = (bot.market cfg input).inUnit k := by
  have fetched := (Gateway.run_inUnit pos cfg.toBotConfig bot.gateway input.events).1
  rw [market, market, same.gateway, ← fetchAllTickers_inUnit]
  show fetchAllTickers clients ((input.complete (List.map _ (Gateway.fetched (cfg.toBotConfig.inUnit k)
    (bot.gateway.inUnit k) (input.events.map (GatewayEvent.inUnit k))))).map _) = _
  rw [fetched, returned_inUnit_back (inv_mul_cancel₀ pos.ne')]

lemma fetch_inUnit (pos : 0 < k) (cfg : Settings) (input : CycleInput clients symbols)
    (engine : OpportunityEngine) (same : InUnit k bot bot') :
    InUnit k { bot.fetch cfg input with engine }
      { bot'.fetch (cfg.inUnit k) (input.inUnit k pos.ne') with engine } where
  gateway := by
    show (Gateway.machine (cfg.toBotConfig.inUnit k)).run bot'.gateway
      (input.events.map (GatewayEvent.inUnit k)) = _
    rw [same.gateway]
    exact (Gateway.run_inUnit pos cfg.toBotConfig bot.gateway input.events).2
  engine := rfl
  executor := same.executor
  cycles := congrArg (· + 1) same.cycles
  lastStatusTs := same.lastStatusTs
  blockedAlertSent := same.blockedAlertSent

lemma scanReport_inUnit (cfg : Settings) (market : Market) (opps : List Opportunity)
    (same : InUnit k bot bot') :
    scanReport (cfg.inUnit k) (market.inUnit k) (opps.map (Opportunity.inUnit k)) bot' =
      scanReport cfg market opps bot := by
  rw [scanReport, scanReport, same.cycles, same.engine, List.length_map, sourceCounts_inUnit]
  congr 1
  exact sourceCountsByExchange_inUnit ..

lemma afterScan_inUnit (pos : 0 < k) (cfg : Settings) (input : CycleInput clients symbols) (market : Market)
    (opps : List Opportunity) (same : InUnit k bot bot') :
    FollowsInUnit k (afterScan cfg input market opps bot)
      (afterScan (cfg.inUnit k) (input.inUnit k pos.ne') (market.inUnit k)
        (opps.map (Opportunity.inUnit k)) bot') := by
  unfold afterScan
  rw [scanReport_inUnit cfg market opps same]
  refine andThen_follows (publish_inUnit (.scanCompleted _) same) fun bot bot' same => ?_
  refine andThen_follows (trade_inUnit pos cfg input.attemptClock opps same) fun bot bot' same => ?_
  have rebalances := forEach_follows (f := id) (A := Effect.InUnit k) (Q := InUnit k)
    (fun entry _ _ same => rebalance_inUnit cfg input.rebalanceClock entry same) same cfg.symbols.zipIdx
  rw [List.map_id] at rebalances
  refine andThen_follows rebalances fun bot bot' same => ?_
  exact andThen_follows (alertBlocked_inUnit cfg same) fun _ _ same =>
    reportStatus_inUnit cfg input.statusTime same

/-- A cycle, in both units. -/
lemma cycle_inUnit (pos : 0 < k) (cfg : Settings) (input : CycleInput clients symbols)
    (same : InUnit k bot bot') :
    FollowsInUnit k (cycle cfg input bot) (cycle (cfg.inUnit k) (input.inUnit k pos.ne') bot') := by
  have scan := findOpportunities_inUnit pos cfg.toBotConfig bot.engine (bot.market cfg input)
    input.scanClock
  unfold cycle
  dsimp only
  rw [market_inUnit pos cfg input same, same.engine,
    show (cfg.inUnit k).toBotConfig = cfg.toBotConfig.inUnit k from rfl,
    show (input.inUnit k pos.ne').scanClock = input.scanClock from rfl, scan]
  generalize findOpportunities cfg.toBotConfig bot.engine (bot.market cfg input) input.scanClock = result
  obtain ⟨found, engine⟩ := result
  cases found with
  | error e => exact ⟨fetch_inUnit pos cfg input engine same, .nil, rfl⟩
  | ok opps => exact afterScan_inUnit pos cfg input _ opps (fetch_inUnit pos cfg input engine same)

/-- A cycle and the sleep after it, in both units. -/
lemma turn_inUnit (pos : 0 < k) (cfg : Settings) (input : CycleInput clients symbols)
    (same : InUnit k bot bot') :
    FollowsInUnit k (turn cfg input bot) (turn (cfg.inUnit k) (input.inUnit k pos.ne') bot') :=
  andThen_follows (cycle_inUnit pos cfg input same) fun _ _ same => ⟨same, .nil, rfl⟩

end Bot

/-! ## A whole run -/

/-- The session, with money in another unit. -/
def Session.inUnit (k : ℚ) (session : Session) : Session :=
  { session with cfg := session.cfg.inUnit k, bot := session.bot.inUnit k }

/-- The bot starts, in both units. -/
lemma start_inUnit (k : ℚ) {settings world session} (e : start settings world = .ok session) :
    start (settings.inUnit k) world = .ok (session.inUnit k) := by
  obtain ⟨clients, hclients, e⟩ := Loop.bind_eq_ok.1 e
  obtain ⟨resolved, hfees, e⟩ := Loop.bind_eq_ok.1 e
  obtain ⟨executor, hexecutor, e⟩ := Loop.bind_eq_ok.1 e
  obtain ⟨dashboard, hdashboard, e⟩ := Loop.bind_eq_ok.1 e
  cases e
  refine Loop.bind_eq_ok.2 ⟨clients, hclients, Loop.bind_eq_ok.2 ⟨resolved, hfees,
    Loop.bind_eq_ok.2 ⟨executor.inUnit k, ?_, Loop.bind_eq_ok.2 ⟨dashboard, hdashboard, ?_⟩⟩⟩⟩
  · have fresh := init_map_inUnit k { settings.supported with feesTaker := resolved.fees }.toBotConfig
    rw [hexecutor] at fresh
    exact fresh
  · refine congrArg Except.ok ?_
    rw [Session.inUnit, Bot.inUnit, Gateway.init_inUnit]
    rfl

/-- The whole bot does not depend on the unit in which the quote currency is counted. With its capitals
and notionals in another unit, and every price of a ticker, of an order book and of a stream's message, it
starts alike, and in a run it shows and sends the same at the same points, ends with the same exception,
if any, and in the same state. -/
theorem bot_unit_blind {settings world session} (e : start settings world = .ok session) {k : ℚ}
    (pos : 0 < k) :
    start (settings.inUnit k) world = .ok (session.inUnit k) ∧ ∀ inputs,
      Bot.FollowsInUnit k (session.run inputs)
        ((session.inUnit k).run (inputs.map (CycleInput.inUnit k pos.ne'))) := by
  refine ⟨start_inUnit k e, fun inputs => ?_⟩
  have started : Bot.InUnit k session.bot (session.inUnit k).bot :=
    { gateway := rfl
      engine := rfl
      executor := inUnit_inUnit k _
      cycles := rfl
      lastStatusTs := rfl
      blockedAlertSent := rfl }
  have cycles : Bot.FollowsInUnit k (session.cycles inputs)
      ((session.inUnit k).cycles (inputs.map (CycleInput.inUnit k pos.ne'))) :=
    forEach_follows (fun input _ _ same => Bot.turn_inUnit pos session.cfg input same) started inputs
  have opening : List.Forall₂ (Effect.InUnit k) session.opening (session.inUnit k).opening := by
    obtain ⟨_, resolved, _, _, emitted⟩ := (start_started e).cfg
    show List.Forall₂ _ session.opening session.opening
    rw [emitted]
    exact .cons (.update (.feeSources resolved.sources))
      (Bot.messages_inUnit k session.cfg (.started session.cfg.mode session.cfg.symbols))
  exact {
    state := cycles.state
    emitted := List.rel_append (List.rel_append opening cycles.emitted)
      (Bot.messages_inUnit k session.cfg .stopped)
    error := cycles.error }

/-- In cents, the sample trades alike, and earns a hundred times as much. -/
theorem bot_unit_blind_sample :
    start (sampleSettings.inUnit 100) sampleWorld = .ok (sampleSession.inUnit 100) ∧
      0 < (sampleSession.run [sampleInput, sampleInput]).state.executor.risk.realizedPnlUsdt ∧
      ((sampleSession.inUnit 100).run
          ([sampleInput, sampleInput].map (CycleInput.inUnit 100 (by decide)))
          ).state.executor.risk.realizedPnlUsdt =
        100 * (sampleSession.run [sampleInput, sampleInput]).state.executor.risk.realizedPnlUsdt := by
  have pos : (0 : ℚ) < 100 := by norm_num
  obtain ⟨started, follows⟩ := bot_unit_blind sampleSession_started pos
  refine ⟨started, by decide +kernel, ?_⟩
  exact congrArg RiskState.realizedPnlUsdt (follows [sampleInput, sampleInput]).state.executor.risk

end ArbBot
