import ArbBot.Executor.Ledger
import Mathlib.Data.List.DropRight

/-!
# The risk gate

Two guards block the executor: the circuit breaker of `_register_failure` and the drawdown guard of
`_evaluate_drawdown_guard`. Seen from outside, over a run, the executor has an answer history, and
the guards should depend on it and on the PnL alone: `streak` is the number of failing calls in a
row at the end of a history, and `Trips` says that a run has ended in a state in which a guard has
to fire. `Step.gate` says what one step does to the guards (`GateStep`); `gateInv` and
`drawdown_bounded` are the inductions over the run, and `risk_gate` puts the results together.

A call that raises has no result and counts neither as a success nor as a failure.
-/

namespace ArbBot.PaperExecutor

/-! ## Histories -/

/-- The result of a call, if it returned one. -/
def resultOf : Event → Option TradeResult
  | .traded _ r => some r
  | .rebalanced _ _ => none
  | .raised _ => none

/-- The number of failing calls in a row at the end of a history. -/
def streak (events : List Event) : ℕ :=
  ((events.filterMap resultOf).rtakeWhile fun r => !r.success).length

lemma streak_concat_none {events : List Event} {ev : Event} (h : resultOf ev = none) :
    streak (events ++ [ev]) = streak events := by
  simp [streak, h]

lemma streak_concat_failure {events : List Event} {ev : Event} {r : TradeResult}
    (h : resultOf ev = some r) (fails : r.success = false) :
    streak (events ++ [ev]) = streak events + 1 := by
  simp [streak, h, fails]

lemma streak_concat_success {events : List Event} {ev : Event} {r : TradeResult}
    (h : resultOf ev = some r) (succeeds : r.success = true) : streak (events ++ [ev]) = 0 := by
  simp [streak, h, succeeds]

/-- The run `ops` from `s₀` has ended with `max_consecutive_failures` failing calls in a row, or at or
below the loss limit. -/
def Trips (cfg : BotConfig) (s₀ : PaperExecutor) (ops : List Op) : Prop :=
  cfg.maxConsecutiveFailures ≤ streak ((machine cfg).outs s₀ ops) ∨
    ((machine cfg).run s₀ ops).risk.realizedPnlUsdt ≤ -maxLoss cfg

/-- The PnL after the run `ops` is above the loss limit, or it is what a single trade made of a PnL
above the limit. -/
def OneTradePast (cfg : BotConfig) (s₀ : PaperExecutor) (ops : List Op) : Prop :=
  -maxLoss cfg < ((machine cfg).run s₀ ops).risk.realizedPnlUsdt ∨
    ∃ pre op opp r, pre ++ [op] <+: ops ∧
      (machine cfg).out ((machine cfg).run s₀ pre) op = .traded opp r ∧ r.success = true ∧
      -maxLoss cfg < ((machine cfg).run s₀ pre).risk.realizedPnlUsdt ∧
      ((machine cfg).run s₀ ops).risk.realizedPnlUsdt =
        ((machine cfg).run s₀ pre).risk.realizedPnlUsdt + r.realizedPnlUsdt

/-! ## One step -/

/-- What a step does to the guards, by what it answers: nothing, a failure, or a booked trade. -/
inductive GateStep (cfg : BotConfig) (s : PaperExecutor) (ev : Event) (s' : PaperExecutor) :
    Prop where
  | silent (res : resultOf ev = none) (risk : s'.risk = s.risk)
  | failure {r} (res : resultOf ev = some r) (fails : r.success = false)
      (pnl : s'.risk.realizedPnlUsdt = s.risk.realizedPnlUsdt)
      (count : s'.risk.consecutiveFailures = s.risk.consecutiveFailures + 1)
      (block : s'.risk.blocked = true ↔ s.risk.blocked = true ∨
        cfg.maxConsecutiveFailures ≤ (s.risk.consecutiveFailures + 1 : ℕ))
  | success {opp r} (res : ev = .traded opp r) (succeeds : r.success = true)
      (free : s.risk.blocked = false)
      (pnl : s'.risk.realizedPnlUsdt = s.risk.realizedPnlUsdt + r.realizedPnlUsdt)
      (count : s'.risk.consecutiveFailures = 0)
      (block : s'.risk.blocked = true ↔ s'.risk.realizedPnlUsdt ≤ -maxLoss cfg)

/-- In paper mode every step is one of the three. -/
lemma Step.gate {cfg s op ev s'} (st : Step cfg s op ev s') (paper : cfg.mode = .paper) :
    GateStep cfg s ev s' := by
  cases st with
  | executeRaised => exact .silent rfl rfl
  | rebalanceRaised => exact .silent rfl rfl
  | idle => exact .silent rfl rfl
  | shipped => exact .silent rfl rfl
  | called call =>
    cases call with
    | refused => exact .failure rfl rfl (by simp) (by simp) (countFailure_blocked cfg _)
    | rehearsed dry => rw [paper] at dry; cases dry
    | booked _ adm _ =>
      refine .success rfl rfl adm.notBlocked (by simp [countSuccess, tradeResult])
        (by simp [countSuccess]) ?_
      rw [evaluateDrawdownGuard_blocked, evaluateDrawdownGuard_realizedPnlUsdt]
      simp [countSuccess, adm.notBlocked]

/-- A blocked executor stays blocked. -/
lemma GateStep.latched {cfg s ev s'} (gate : GateStep cfg s ev s') (hb : s.risk.blocked = true) :
    s'.risk.blocked = true := by
  cases gate with
  | silent _ risk => rw [risk]; exact hb
  | failure _ _ _ _ block => exact block.2 (.inl hb)
  | success _ _ free => rw [free] at hb; cases hb

/-- A blocked executor refuses every call and changes neither balances, PnL nor cooldowns. -/
lemma execute_of_blocked {cfg s nowTs opp r s'} (hb : s.risk.blocked = true)
    (e : execute cfg s nowTs opp = .ok (r, s')) :
    r.success = false ∧ s'.balances = s.balances ∧
      s'.risk.realizedPnlUsdt = s.risk.realizedPnlUsdt ∧ s'.lastTradeAt = s.lastTradeAt := by
  cases execute_call e with
  | refused => exact ⟨rfl, rfl, by simp, rfl⟩
  | rehearsed _ adm => rw [adm.notBlocked] at hb; cases hb
  | booked _ adm => rw [adm.notBlocked] at hb; cases hb

/-! ## Runs -/

/-- A property of some prefix of a run, when the run is one step longer. -/
lemma exists_prefix_concat {α : Type*} {Q : List α → Prop} {l : List α} {a : α} :
    (∃ pre, pre <+: l ++ [a] ∧ Q pre) ↔ (∃ pre, pre <+: l ∧ Q pre) ∨ Q (l ++ [a]) := by
  simp only [List.prefix_concat_iff, or_and_right, exists_or, exists_eq_left]
  exact or_comm

/-- What the guards know after a run: the streak, and whether the limit has been reached. -/
structure GateInv (cfg : BotConfig) (s₀ : PaperExecutor) (ops : List Op) : Prop where
  count : ((machine cfg).run s₀ ops).risk.consecutiveFailures =
    streak ((machine cfg).outs s₀ ops)
  above : ((machine cfg).run s₀ ops).risk.blocked = false →
    -maxLoss cfg < ((machine cfg).run s₀ ops).risk.realizedPnlUsdt
  blocked : ((machine cfg).run s₀ ops).risk.blocked = true ↔ ∃ pre, pre <+: ops ∧ Trips cfg s₀ pre

lemma Fresh.gateInv {cfg s₀} (fresh : Fresh cfg s₀) (hmax : 1 ≤ cfg.maxConsecutiveFailures)
    (hloss : 0 < maxLoss cfg) : GateInv cfg s₀ [] where
  count := by simp [fresh.risk, Machine.outs, streak]
  above := by simp [fresh.risk, hloss]
  blocked := by
    simp only [Machine.run_nil, fresh.risk, List.prefix_nil, exists_eq_left, Trips, Machine.outs]
    constructor
    · intro h
      cases h
    · rintro (h | h)
      · simp only [streak, List.filterMap_nil, List.rtakeWhile_nil, List.length_nil] at h; omega
      · linarith

/-- The guards keep their knowledge over one more step. -/
lemma GateInv.concat {cfg s₀ ops} (inv : GateInv cfg s₀ ops) (paper : cfg.mode = .paper)
    (hmax : 1 ≤ cfg.maxConsecutiveFailures) (op : Op) : GateInv cfg s₀ (ops ++ [op]) := by
  have houts : (machine cfg).outs s₀ (ops ++ [op]) =
      (machine cfg).outs s₀ ops ++ [(machine cfg).out ((machine cfg).run s₀ ops) op] :=
    Machine.outs_append ops [op]
  have hrun := Machine.run_concat (M := machine cfg) (s := s₀) ops op
  cases (next_step cfg ((machine cfg).run s₀ ops) op).gate paper with
  | silent res risk =>
    -- neither the streak nor the PnL moves
    have hcount : streak ((machine cfg).outs s₀ (ops ++ [op])) =
        streak ((machine cfg).outs s₀ ops) := by rw [houts, streak_concat_none res]
    refine ⟨by rw [hrun, risk, inv.count, hcount], by rw [hrun, risk]; exact inv.above, ?_⟩
    rw [exists_prefix_concat, hrun, risk, inv.blocked]
    refine ⟨.inl, fun h => h.elim id fun h => ⟨ops, List.prefix_rfl, ?_⟩⟩
    rwa [Trips, hrun, risk, hcount] at h
  | failure res fails pnl count block =>
    have hcount : streak ((machine cfg).outs s₀ (ops ++ [op])) =
        streak ((machine cfg).outs s₀ ops) + 1 := by rw [houts, streak_concat_failure res fails]
    refine ⟨by rw [hrun, count, inv.count, hcount], ?_, ?_⟩
    · intro hb
      rw [hrun] at hb
      rw [hrun, pnl]
      refine inv.above (Bool.eq_false_iff.2 fun hs => ?_)
      rw [block.2 (.inl hs)] at hb; cases hb
    -- a failure trips by its count only
    · rw [exists_prefix_concat, hrun, block, inv.blocked, Trips, hcount, hrun, pnl, inv.count]
      constructor
      · exact fun h => h.imp id .inl
      · rintro (h | h | h)
        · exact .inl h
        · exact .inr h
        · -- at the limit the executor was blocked before the call
          refine .inl (inv.blocked.1 ?_)
          by_contra hb
          exact absurd (inv.above (Bool.eq_false_iff.2 hb)) (not_lt.2 h)
  | @success opp r res succeeds free pnl count block =>
    have hcount : streak ((machine cfg).outs s₀ (ops ++ [op])) = 0 := by
      rw [houts, res, streak_concat_success rfl succeeds]
    refine ⟨by rw [hrun, count, hcount], ?_, ?_⟩
    · intro hb
      rw [hrun] at hb ⊢
      by_contra h
      rw [block.2 (not_lt.1 h)] at hb; cases hb
    -- a success trips by its loss only: the streak is zero, and the limit is not
    · rw [exists_prefix_concat, ← inv.blocked, free, hrun, block, Trips, hcount, hrun]
      constructor
      · exact fun h => .inr (.inr h)
      · rintro (h | h | h)
        · cases h
        · simp only [Nat.cast_zero] at h; omega
        · exact h

lemma gateInv {cfg s₀} (fresh : Fresh cfg s₀) (paper : cfg.mode = .paper)
    (hmax : 1 ≤ cfg.maxConsecutiveFailures) (hloss : 0 < maxLoss cfg) (ops : List Op) :
    GateInv cfg s₀ ops := by
  induction ops using List.reverseRecOn with
  | nil => exact fresh.gateInv hmax hloss
  | append_singleton ops op ih => exact ih.concat paper hmax op

/-- Over a run the PnL stays above the loss limit, up to one trade that crosses it. -/
lemma drawdown_bounded {cfg s₀} (fresh : Fresh cfg s₀) (paper : cfg.mode = .paper)
    (hmax : 1 ≤ cfg.maxConsecutiveFailures) (hloss : 0 < maxLoss cfg) (ops : List Op) :
    OneTradePast cfg s₀ ops := by
  induction ops using List.reverseRecOn with
  | nil => exact .inl (by simp [fresh.risk, hloss])
  | append_singleton ops op ih =>
    have hrun := Machine.run_concat (M := machine cfg) (s := s₀) ops op
    have hkeep : ((machine cfg).run s₀ (ops ++ [op])).risk.realizedPnlUsdt =
        ((machine cfg).run s₀ ops).risk.realizedPnlUsdt → OneTradePast cfg s₀ (ops ++ [op]) := by
      intro h
      unfold OneTradePast
      rw [h]
      exact ih.imp_right fun ⟨pre, op', opp, r, hpre, rest⟩ =>
        ⟨pre, op', opp, r, hpre.trans (List.prefix_append ops [op]), rest⟩
    cases (next_step cfg ((machine cfg).run s₀ ops) op).gate paper with
    | silent _ risk => exact hkeep (by rw [hrun, risk])
    | failure _ _ pnl => exact hkeep (by rw [hrun, pnl])
    | @success opp r res succeeds free pnl =>
      exact .inr ⟨ops, op, opp, r, List.prefix_rfl, res, succeeds,
        (gateInv fresh paper hmax hloss ops).above free, by rw [hrun, pnl]⟩

/-- The risk gate is exact and latched. From a fresh executor in paper mode with a positive failure
and loss limit, the executor is blocked after a run exactly when some prefix of the run has tripped a
guard; it then stays blocked, and no later call succeeds or changes balances, PnL or cooldowns; and
the PnL is above the loss limit, or was before a single trade whose loss crossed it. -/
theorem risk_gate {cfg s₀} (hinit : init cfg = .ok s₀) (paper : cfg.mode = .paper)
    (hmax : 1 ≤ cfg.maxConsecutiveFailures) (hloss : 0 < maxLoss cfg) (ops : List Op) :
    (((machine cfg).run s₀ ops).risk.blocked = true ↔ ∃ pre, pre <+: ops ∧ Trips cfg s₀ pre) ∧
    (((machine cfg).run s₀ ops).risk.blocked = true → ∀ later,
      ((machine cfg).run s₀ (ops ++ later)).risk.blocked = true ∧
      ∀ nowTs opp r s', execute cfg ((machine cfg).run s₀ (ops ++ later)) nowTs opp = .ok (r, s') →
        r.success = false ∧
        s'.balances = ((machine cfg).run s₀ (ops ++ later)).balances ∧
        s'.risk.realizedPnlUsdt =
          ((machine cfg).run s₀ (ops ++ later)).risk.realizedPnlUsdt ∧
        s'.lastTradeAt = ((machine cfg).run s₀ (ops ++ later)).lastTradeAt) ∧
    OneTradePast cfg s₀ ops := by
  have fresh := init_fresh hinit
  refine ⟨(gateInv fresh paper hmax hloss ops).blocked, fun hb later => ?_,
    drawdown_bounded fresh paper hmax hloss ops⟩
  have hlater : ((machine cfg).run s₀ (ops ++ later)).risk.blocked = true := by
    rw [Machine.run_append]
    exact Machine.inv_run (P := fun _ _ => True) (I := fun s : PaperExecutor => s.risk.blocked = true)
      hb (fun s op hs _ => ((next_step cfg s op).gate paper).latched hs)
      (Machine.along_of_forall fun _ _ => trivial)
  exact ⟨hlater, fun nowTs opp r s' e => execute_of_blocked hlater e⟩

/-- A trade, and eight calls too early on its route. -/
def impatientRun : List Op := .execute 0 sampleRoute :: List.replicate 8 (.execute 1 sampleRoute)

/-- The default configuration has a failure limit of eight and a loss limit of 40 USDT. -/
theorem risk_gate_default :
    ∃ s₀, init defaultConfig = .ok s₀ ∧
      ((machine defaultConfig).run s₀ impatientRun).risk.blocked = true ∧
      (∃ pre, pre <+: impatientRun ∧ Trips defaultConfig s₀ pre) ∧
      (∀ later, ((machine defaultConfig).run s₀ (impatientRun ++ later)).risk.blocked = true) ∧
      OneTradePast defaultConfig s₀ impatientRun := by
  obtain ⟨s₀, hinit, h⟩ := Loop.exists_ok_of_any (x := init defaultConfig)
    (p := fun s₀ => ((machine defaultConfig).run s₀ impatientRun).risk.blocked) (by decide +kernel)
  obtain ⟨exact, latched, bounded⟩ := risk_gate hinit rfl (by decide)
    (by norm_num [maxLoss, defaultConfig]) impatientRun
  exact ⟨s₀, hinit, h, exact.1 h, fun later => (latched h later).1, bounded⟩

end ArbBot.PaperExecutor
