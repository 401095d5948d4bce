import ArbBot.Main.Bot

/-!
# The main loop refines engine and executor

`System` is engine and executor alone, with a run that is any sequence of scans and calls. The main loop
is one such run: each cycle scans once and then makes calls, and what it executes was returned by a
scan (`FromScan`). `Simulated` is this correspondence for a stretch of the loop, together with what the
loop reports of it: the messages about trades and rebalances, and the same events on the dashboard, are
exactly the answers of the calls that have changed something, in their order. `Act.simulated` is the
simulation for one act, `cycle_simulated` for a cycle, and `bot_refines_system` for a run, which keeps
the cycles apart (`Turns`). The attempts of a cycle are those of `Main/Cycle` (`trade_attempted`).
-/

namespace ArbBot

open OpportunityEngine PaperExecutor Script

/-- The message about an answer of engine or executor. -/
def SystemEvent.report : SystemEvent → Option Message
  | .scanned _ => none
  | .answered (.raised _) => none
  | .answered (.traded opp r) => if r.success then some (Bot.tradedMessage opp) else none
  | .answered (.rebalanced _ message) => message.map .rebalanced

/-- What the dashboard shows of an answer of engine or executor. -/
def SystemEvent.shown : SystemEvent → Option LastEvent
  | .scanned _ => none
  | .answered (.raised _) => none
  | .answered (.traded _ r) => if r.success then some (.executed r.reason) else none
  | .answered (.rebalanced _ message) => message.map .rebalanced

/-- An effect that reports a trade or a rebalance to the operator. -/
def Effect.report : Effect → Option Message
  | .send (.traded symbol buyExchange sellExchange quantity expectedProfitUsdt) =>
    some (.traded symbol buyExchange sellExchange quantity expectedProfitUsdt)
  | .send (.rebalanced message) => some (.rebalanced message)
  | .send (.started _ _) => none
  | .send (.blocked _) => none
  | .send .stopped => none
  | .update _ => none

/-- An effect that shows a trade or a rebalance on the dashboard. -/
def Effect.shown : Effect → Option LastEvent
  | .update (.executed reason _) => some (.executed reason)
  | .update (.rebalanced message) => some (.rebalanced message)
  | _ => none

/-- What one cycle comes to: a scan, and then calls only. -/
def System.IsTurn (ops : List SystemOp) : Prop :=
  ∃ market clock, ∃ calls : List PaperExecutor.Op, ops = .scan market clock :: calls.map .call

namespace Bot

/-- Engine and executor of a bot, with the opportunities that have been returned so far. -/
def system (bot : Bot) (issued : List Opportunity) : System := ⟨bot.engine, bot.executor, issued⟩

/-- A stretch of the loop is a run of engine and executor, and reports it. -/
structure Simulated (cfg : Settings) (bot : Bot) (issued : List Opportunity) (ops : List SystemOp)
    (emitted : List Effect) (bot' : Bot) (issued' : List Opportunity) : Prop where
  from_scan : (System.machine cfg.toBotConfig).Along System.FromScan (bot.system issued) ops
  run : (System.machine cfg.toBotConfig).run (bot.system issued) ops = bot'.system issued'
  reports : emitted.filterMap Effect.report = if cfg.notifies then
    ((System.machine cfg.toBotConfig).outs (bot.system issued) ops).filterMap SystemEvent.report else []
  shown : emitted.filterMap Effect.shown =
    ((System.machine cfg.toBotConfig).outs (bot.system issued) ops).filterMap SystemEvent.shown

variable {cfg : Settings} {bot bot' bot'' : Bot} {issued issued' issued'' : List Opportunity}
  {ops ops' : List SystemOp} {v w : List Effect}

lemma Simulated.refl (cfg : Settings) (bot : Bot) (issued) :
    Simulated cfg bot issued [] [] bot issued where
  from_scan := trivial
  run := rfl
  reports := (ite_self _).symm
  shown := rfl

lemma Simulated.trans (first : Simulated cfg bot issued ops v bot' issued')
    (second : Simulated cfg bot' issued' ops' w bot'' issued'') :
    Simulated cfg bot issued (ops ++ ops') (v ++ w) bot'' issued'' where
  from_scan := by
    rw [Machine.along_append, first.run]
    exact ⟨first.from_scan, second.from_scan⟩
  run := by rw [Machine.run_append, first.run, second.run]
  reports := by
    rw [List.filterMap_append, first.reports, second.reports, Machine.outs_append, first.run,
      List.filterMap_append]
    split <;> rfl
  shown := by
    rw [List.filterMap_append, first.shown, second.shown, Machine.outs_append, first.run,
      List.filterMap_append]

/-- A stretch that leaves engine and executor alone, and reports nothing. -/
lemma Simulated.quiet (engine : bot'.engine = bot.engine) (executor : bot'.executor = bot.executor)
    (report : v.filterMap Effect.report = [])
    (shown : v.filterMap Effect.shown = []) : Simulated cfg bot issued [] v bot' issued where
  from_scan := trivial
  run := by rw [Machine.run_nil, system, system, engine, executor]
  reports := report.trans (ite_self _).symm
  shown := shown

/-- A stretch that makes one call. -/
lemma Simulated.call (op : PaperExecutor.Op) (ev : PaperExecutor.Event) {executor : PaperExecutor}
    (from_scan : System.FromScan (bot.system issued) (.call op))
    (step : PaperExecutor.step cfg.toBotConfig bot.executor op = (executor, ev))
    (after : bot'.engine = bot.engine ∧ bot'.executor = executor)
    (reports : v.filterMap Effect.report =
      if cfg.notifies then (SystemEvent.answered ev).report.toList else [])
    (shown : v.filterMap Effect.shown = (SystemEvent.answered ev).shown.toList) :
    Simulated cfg bot issued [.call op] v bot' issued := by
  have out : (System.machine cfg.toBotConfig).out (bot.system issued) (.call op) = .answered ev := by
    simp only [Machine.out, System.machine, System.step, system, step]
  have answer : ∀ {β : Type} (f : SystemEvent → Option β),
      ((System.machine cfg.toBotConfig).outs (bot.system issued) [.call op]).filterMap f =
        (f (.answered ev)).toList := by
    intro β f
    rw [Machine.outs, Machine.outs, out, List.filterMap_cons]
    cases f (.answered ev) <;> rfl
  refine ⟨⟨from_scan, trivial⟩, ?_, ?_, ?_⟩
  · simp only [Machine.run_cons, Machine.run_nil, Machine.next, System.machine, System.step, system,
      step, after]
  · rw [reports, answer]
  · rw [shown, answer]

/-! ## Acts and cycles -/

lemma filterMap_report_messages (cfg : Settings) (m : Message) :
    (cfg.messages m).filterMap Effect.report =
      if cfg.notifies then (Effect.report (.send m)).toList else [] := by
  unfold Settings.messages
  split
  · cases h : Effect.report (.send m) <;> simp [h]
  · rfl

@[simp] lemma filterMap_shown_messages (cfg : Settings) (m : Message) :
    (cfg.messages m).filterMap Effect.shown = [] := by
  unfold Settings.messages
  split <;> rfl

variable {clients symbols : List String} {input : CycleInput clients symbols} {opps : List Opportunity}

/-- The simulation for one act. -/
lemma Act.simulated (act : Act cfg input opps bot v bot') (sub : opps ⊆ issued) :
    ∃ calls : List PaperExecutor.Op, Simulated cfg bot issued (calls.map .call) v bot' issued := by
  have from_scan : ∀ {k opp}, (attempts cfg.toBotConfig opps)[k]? = some opp → opp ∈ issued :=
    fun tried => sub (List.mem_of_mem_take (List.mem_of_getElem? tried))
  cases act with
  | @published u plain =>
    refine ⟨[], .quiet rfl rfl rfl ?_⟩
    cases u <;> first | rfl | cases plain
  | @refused k opp r executor tried young call fails =>
    refine ⟨[_], .call (.execute (input.attemptClock (2 * k + 1)) opp) (.traded opp r) (from_scan tried)
      ?_ ⟨rfl, rfl⟩ ?_ ?_⟩
    · simp only [PaperExecutor.step, call]
    · simp [SystemEvent.report, fails]
    · simp [SystemEvent.shown, fails]
  | @executed k opp r executor tried young call succeeds =>
    refine ⟨[_], .call (.execute (input.attemptClock (2 * k + 1)) opp) (.traded opp r) (from_scan tried)
      ?_ ⟨rfl, rfl⟩ ?_ ?_⟩
    · simp only [PaperExecutor.step, call]
    · rw [List.filterMap_cons_none rfl, filterMap_report_messages]
      simp only [SystemEvent.report, succeeds, if_true]
      rfl
    · rw [List.filterMap_cons_some (by rfl), filterMap_shown_messages]
      simp [SystemEvent.shown, succeeds]
  | @idle symbol k executor mem call =>
    refine ⟨[_], .call (.rebalance (input.rebalanceClock k) symbol) (.rebalanced symbol none)
      trivial ?_ ⟨rfl, rfl⟩ ?_ rfl⟩
    · simp only [PaperExecutor.step, call]
    · exact (ite_self _).symm
  | @rebalanced symbol k message executor mem call =>
    refine ⟨[_], .call (.rebalance (input.rebalanceClock k) symbol)
      (.rebalanced symbol (some message)) trivial ?_ ⟨rfl, rfl⟩ ?_ ?_⟩
    · simp only [PaperExecutor.step, call]
    · rw [List.filterMap_append, filterMap_report_messages]
      exact List.append_nil _
    · rw [List.filterMap_append, filterMap_shown_messages]
      rfl
  | alerted blocked enabled first => exact ⟨[], .quiet rfl rfl rfl rfl⟩
  | reported due => exact ⟨[], .quiet rfl rfl rfl rfl⟩

lemma acts_simulated (acts : Chain (Act cfg input opps) bot v bot') (sub : opps ⊆ issued) :
    ∃ calls : List PaperExecutor.Op, Simulated cfg bot issued (calls.map .call) v bot' issued := by
  refine acts.rel (R := fun bot v bot' => ∃ calls : List PaperExecutor.Op,
    Simulated cfg bot issued (calls.map .call) v bot' issued)
    (fun bot => ⟨[], .refl cfg bot issued⟩) ?_ fun act => act.simulated sub
  intro _ _ _ _ _ hab hbc
  obtain ⟨calls, first⟩ := hab
  obtain ⟨calls', second⟩ := hbc
  refine ⟨calls ++ calls', ?_⟩
  rw [List.map_append]
  exact first.trans second

/-- The simulation for a scan. -/
lemma scan_simulated (issued) {result engine}
    (scan : findOpportunities cfg.toBotConfig bot.engine (bot.market cfg input) input.scanClock =
      (result, engine)) :
    Simulated cfg bot issued [.scan (bot.market cfg input) input.scanClock] []
      { bot.fetch cfg input with engine } (issued ++ result.toOption.getD []) where
  from_scan := ⟨trivial, trivial⟩
  run := by
    simp only [Machine.run_cons, Machine.run_nil, Machine.next, System.machine, System.step, system,
      scan]
    rfl
  reports := (ite_self _).symm
  shown := rfl

/-- The simulation for a cycle: one scan, and then calls. -/
lemma cycle_simulated (cfg : Settings) (input : CycleInput clients symbols) (bot : Bot) (issued) :
    ∃ (calls : List PaperExecutor.Op) (issued' : List Opportunity), Simulated cfg bot issued
      (.scan (bot.market cfg input) input.scanClock :: calls.map .call) (cycle cfg input bot).emitted
      (cycle cfg input bot).state issued' := by
  have cycled := cycle_cases cfg input bot
  generalize cycle cfg input bot = out at cycled
  cases cycled with
  | raised scan => exact ⟨[], _, scan_simulated issued scan⟩
  | @scanned opps engine v bot' error scan acts =>
    have first := scan_simulated issued scan
    have published : Simulated cfg { bot.fetch cfg input with engine } (issued ++ opps) []
        [.update (.scanCompleted (scanReport cfg (bot.market cfg input) opps
          { bot.fetch cfg input with engine })), .update (headline opps)]
        (bot.scanned cfg input opps engine) (issued ++ opps) := by
      refine .quiet rfl rfl rfl ?_
      cases opps <;> rfl
    obtain ⟨calls, second⟩ := acts_simulated acts (List.subset_append_right issued _)
    exact ⟨calls, _, first.trans (published.trans second)⟩

/-- A cycle counts itself. -/
lemma cycle_cycles (cfg : Settings) (input : CycleInput clients symbols) (bot : Bot) :
    (cycle cfg input bot).state.cycles = bot.cycles + 1 := by
  have cycled := cycle_cases cfg input bot
  generalize cycle cfg input bot = out at cycled
  cases cycled with
  | raised => rfl
  | scanned _ acts =>
    refine (acts.rel (R := fun (a : Bot) _ b => b.cycles = a.cycles) (fun _ => rfl)
      (fun hab hbc => hbc.trans hab) fun act => ?_)
    cases act <;> rfl

/-- A stretch of cycles is a run of engine and executor, turn by turn. -/
structure Turns (cfg : Settings) (bot : Bot) (issued : List Opportunity) (turns : List (List SystemOp))
    (emitted : List Effect) (bot' : Bot) (issued' : List Opportunity) : Prop where
  simulated : Simulated cfg bot issued turns.flatten emitted bot' issued'
  turn : ∀ ops ∈ turns, System.IsTurn ops
  cycles : bot'.cycles = bot.cycles + turns.length

lemma Turns.trans {turns turns' : List (List SystemOp)} (first : Turns cfg bot issued turns v bot' issued')
    (second : Turns cfg bot' issued' turns' w bot'' issued'') :
    Turns cfg bot issued (turns ++ turns') (v ++ w) bot'' issued'' where
  simulated := by
    rw [List.flatten_append]
    exact first.simulated.trans second.simulated
  turn := List.forall_mem_append.2 ⟨first.turn, second.turn⟩
  cycles := by rw [second.cycles, first.cycles, List.length_append, Nat.add_assoc]

/-- The simulation for the cycles of a run. -/
lemma cycles_simulated (cfg : Settings) (inputs : List (CycleInput clients symbols)) (bot : Bot)
    (issued) : ∃ turns issued', Turns cfg bot issued turns (forEach (turn cfg) inputs bot).emitted
      (forEach (turn cfg) inputs bot).state issued' := by
  refine forEach_rel (R := fun bot v bot' => ∀ issued, ∃ turns issued',
    Turns cfg bot issued turns v bot' issued') ?_ ?_ (fun input _ bot issued => ?_) issued
  · exact fun bot issued => ⟨[], issued, .refl cfg bot issued, List.forall_mem_nil _, rfl⟩
  · intro a b c v w hab hbc issued
    obtain ⟨turns, issued', first⟩ := hab issued
    obtain ⟨turns', issued'', second⟩ := hbc issued'
    exact ⟨turns ++ turns', issued'', first.trans second⟩
  · obtain ⟨calls, issued', sim⟩ := cycle_simulated cfg input bot issued
    rw [turn_state, turn_emitted]
    refine ⟨[.scan (bot.market cfg input) input.scanClock :: calls.map .call], issued', ?_, ?_,
      cycle_cycles cfg input bot⟩
    · rw [List.flatten_singleton]
      exact sim
    · exact List.forall_mem_singleton.2 ⟨_, _, calls, rfl⟩

end Bot

/-! ## Runs -/

/-- The simulation for a run. -/
lemma run_simulated {settings world session} (e : start settings world = .ok session)
    (inputs : List (CycleInput session.clients session.cfg.symbols)) :
    ∃ turns issued, Bot.Turns session.cfg session.bot [] turns (session.run inputs).emitted
      (session.run inputs).state issued := by
  obtain ⟨_, resolved, _, _, opening⟩ := (start_started e).cfg
  obtain ⟨turns, issued, sim⟩ := Bot.cycles_simulated session.cfg inputs session.bot []
  -- what is emitted before and after the cycles reports nothing
  have before : Bot.Simulated session.cfg session.bot [] [] session.opening session.bot [] := by
    refine .quiet rfl rfl ?_ ?_
    · rw [opening, List.filterMap_cons_none rfl, Bot.filterMap_report_messages]
      exact ite_self _
    · rw [opening, List.filterMap_cons_none rfl, Bot.filterMap_shown_messages]
  have after : Bot.Simulated session.cfg (session.cycles inputs).state issued []
      (session.cfg.messages .stopped) (session.cycles inputs).state issued := by
    refine .quiet rfl rfl ?_ (Bot.filterMap_shown_messages ..)
    rw [Bot.filterMap_report_messages]
    exact ite_self _
  refine ⟨turns, issued, ?_, sim.turn, sim.cycles⟩
  rw [← List.append_nil turns.flatten]
  exact (before.trans sim.simulated).trans after

/-- A run of the bot is a run of engine and executor. It starts from a fresh executor; each cycle is one
scan with calls after it, which execute only what a scan has returned; it leaves engine and executor as
this run does; and the operator is told of the trades and the rebalances of this run, of all of them, in
their order, and of no others: on the dashboard, and in messages when the notifier is enabled. -/
theorem bot_refines_system {settings world session} (e : start settings world = .ok session)
    (inputs : List (CycleInput session.clients session.cfg.symbols)) :
    let machine := System.machine session.cfg.toBotConfig
    let sys₀ : System := ⟨session.bot.engine, session.bot.executor, []⟩
    let out := session.run inputs
    PaperExecutor.init session.cfg.toBotConfig = .ok session.bot.executor ∧
    ∃ (turns : List (List SystemOp)) (issued : List Opportunity),
      turns.length = out.state.cycles ∧ (∀ ops ∈ turns, System.IsTurn ops) ∧
      machine.Along System.FromScan sys₀ turns.flatten ∧
      machine.run sys₀ turns.flatten = ⟨out.state.engine, out.state.executor, issued⟩ ∧
      out.emitted.filterMap Effect.shown = (machine.outs sys₀ turns.flatten).filterMap SystemEvent.shown ∧
      out.emitted.filterMap Effect.report =
        if session.cfg.notifies then
          (machine.outs sys₀ turns.flatten).filterMap SystemEvent.report
        else [] := by
  obtain ⟨turns, issued, sim, turn, cycles⟩ := run_simulated e inputs
  refine ⟨(start_started e).executor, turns, issued, ?_, turn, sim.from_scan, sim.run, sim.shown,
    sim.reports⟩
  rw [cycles, (start_started e).cycles, Nat.zero_add]

/-- Two cycles of the sample are two scans, with one trade and one message about it. -/
theorem bot_refines_system_sample :
    ∃ (turns : List (List SystemOp)) (issued : List Opportunity),
      turns.length = 2 ∧ (∀ ops ∈ turns, System.IsTurn ops) ∧
      (System.machine sampleSession.cfg.toBotConfig).run
        ⟨sampleSession.bot.engine, sampleSession.bot.executor, []⟩ turns.flatten =
        ⟨(sampleSession.run [sampleInput, sampleInput]).state.engine,
          (sampleSession.run [sampleInput, sampleInput]).state.executor, issued⟩ ∧
      (((System.machine sampleSession.cfg.toBotConfig).outs
        ⟨sampleSession.bot.engine, sampleSession.bot.executor, []⟩ turns.flatten).filterMap
          SystemEvent.shown).length = 1 := by
  obtain ⟨_, turns, issued, cycles, turn, _, run, shown, _⟩ :=
    bot_refines_system sampleSession_started [sampleInput, sampleInput]
  refine ⟨turns, issued, cycles.trans (by decide +kernel), turn, run, ?_⟩
  rw [← shown]
  decide +kernel

end ArbBot
