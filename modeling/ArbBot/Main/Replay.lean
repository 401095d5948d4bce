import ArbBot.Main.Dashboard

/-!
# Replays

The only thing in a run that the bot leaves to chance is the order in which the jobs of a fetch complete
(`as_completed`): everything else that it cannot know comes from outside. `cycle_reordered` says that a
cycle does the same in every such order, and `bot_order_blind` that a run does.
-/

namespace ArbBot

open OpportunityEngine PaperExecutor Script

variable {clients symbols : List String}

/-- The same answers and clock readings, with another order of completion. -/
structure CycleInput.Reordered (a b : CycleInput clients symbols) : Prop where
  events : a.events = b.events
  scanClock : a.scanClock = b.scanClock
  attemptClock : a.attemptClock = b.attemptClock
  rebalanceClock : a.rebalanceClock = b.rebalanceClock
  statusTime : a.statusTime = b.statusTime

namespace Bot

variable {cfg : Settings} {a b : CycleInput clients symbols}

lemma market_reordered (distinct : clients.Nodup ∧ symbols.Nodup) (same : a.Reordered b)
    (cfg : Settings) (bot : Bot) : ReadsSame (bot.market cfg a) (bot.market cfg b) := by
  refine readsSame_of_jobs distinct a.jobs (a.perm _) ?_
  rw [same.events]
  exact b.perm _

/-- A cycle does the same, in whatever order its jobs complete. -/
lemma cycle_reordered (distinct : clients.Nodup ∧ symbols.Nodup) (known : clients ⊆ cfg.exchanges)
    (same : a.Reordered b) : cycle cfg a = cycle cfg b := by
  funext bot
  have reads := market_reordered distinct same cfg bot
  have scan := findOpportunities_congr reads cfg.toBotConfig bot.engine a.scanClock
  have client := client_of_jobs distinct a.jobs (a.perm (Gateway.fetched cfg.toBotConfig bot.gateway
    a.events))
  have counts := sourceCounts_congr reads
  have byExchange := @sourceCountsByExchange_congr cfg.toBotConfig _ _ reads
    fun snap mem => known (client snap mem)
  have fetched : bot.fetch cfg a = bot.fetch cfg b := by rw [fetch, fetch, same.events]
  have report : ∀ opps bot', scanReport cfg (bot.market cfg a) opps bot' =
      scanReport cfg (bot.market cfg b) opps bot' := by
    intro opps bot'
    rw [scanReport, scanReport, counts, byExchange]
  unfold cycle afterScan
  dsimp only
  rw [scan, same.scanClock, fetched, same.attemptClock, same.rebalanceClock, same.statusTime]
  simp only [report]

lemma turn_reordered (distinct : clients.Nodup ∧ symbols.Nodup) (known : clients ⊆ cfg.exchanges)
    (same : a.Reordered b) : turn cfg a = turn cfg b := by
  funext bot
  rw [turn, turn, cycle_reordered distinct known same]

end Bot

/-- A run does the same, in whatever order the jobs of its fetches complete. For distinct symbols, two
lists of inputs that differ only in these orders lead to the same state, with the same trades,
rebalances, messages and updates of the dashboard on the way, and to the same exception, if any. -/
theorem bot_order_blind {settings world session} (e : start settings world = .ok session)
    (distinct : settings.symbols.Nodup)
    {inputs inputs' : List (CycleInput session.clients session.cfg.symbols)}
    (same : List.Forall₂ CycleInput.Reordered inputs inputs') :
    session.run inputs = session.run inputs' := by
  obtain ⟨clients, known⟩ := started_clients e
  have symbols : session.cfg.symbols.Nodup := started_symbols e ▸ distinct
  have cycles : session.cycles inputs = session.cycles inputs' :=
    congrFun (forEach_congr same fun a b h => Bot.turn_reordered ⟨clients, symbols⟩ known h) session.bot
  unfold Session.run
  rw [cycles]

/-- The sample, with the jobs of its second cycle completing the other way round. -/
theorem bot_order_blind_sample :
    sampleSession.run [sampleInput, sampleInput] =
      sampleSession.run [sampleInput,
        { sampleInput with complete := id, perm := fun _ => .refl _ }] := by
  refine bot_order_blind sampleSession_started (by decide) ?_
  exact .cons ⟨rfl, rfl, rfl, rfl, rfl⟩ (.cons ⟨rfl, rfl, rfl, rfl, rfl⟩ .nil)

end ArbBot
