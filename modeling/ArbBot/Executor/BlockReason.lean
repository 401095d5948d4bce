import ArbBot.Executor.Ledger
import Mathlib.Logic.Function.Iterate

/-!
# The reason of a block

The risk state keeps one reason, and both guards write it. The drawdown guard looks at a trade only,
so it fires once; the circuit breaker looks at every failure, and the calls that a blocked executor
refuses are failures. `run_of_blocked` is the run of a blocked executor: its risk state is counted up
once for each call of `execute`. `block_reason_iff` follows: the reason of the first block stays what
it was exactly until the refused calls reach the failure limit.
-/

namespace ArbBot.PaperExecutor

/-- The operation is a call of `execute`. -/
def Op.isExecute : Op → Bool
  | .execute _ _ => true
  | .rebalance _ _ => false

/-- The number of calls of `execute`. -/
def calls (ops : List Op) : ℕ := ops.countP Op.isExecute

lemma calls_concat (ops : List Op) (op : Op) :
    calls (ops ++ [op]) = calls ops + if op.isExecute then 1 else 0 := by
  rw [calls, List.countP_append, List.countP_singleton]
  rfl

/-- The run `pre` is the first one that ends blocked. -/
def BlocksFirst (cfg : BotConfig) (s₀ : PaperExecutor) (pre : List Op) : Prop :=
  ((machine cfg).run s₀ pre).risk.blocked = true ∧
    ∀ shorter, shorter <+: pre → shorter ≠ pre →
      ((machine cfg).run s₀ shorter).risk.blocked = false

/-! ## The run of a blocked executor -/

lemma countFailure_of_blocked {cfg risk} (hb : risk.blocked = true) :
    (countFailure cfg risk).blocked = true := (countFailure_blocked cfg risk).2 (.inl hb)

/-- A rebalance leaves the risk state as it is. -/
lemma Step.risk_of_rebalance {cfg s nowTs symbol ev s'}
    (st : Step cfg s (.rebalance nowTs symbol) ev s') : s'.risk = s.risk := by
  cases st with
  | rebalanceRaised => rfl
  | idle => rfl
  | shipped => rfl

/-- A blocked executor counts every call of `execute` as a failure, and nothing else. -/
lemma next_of_blocked {s : PaperExecutor} (hb : s.risk.blocked = true) (cfg : BotConfig) (op : Op) :
    ((machine cfg).next s op).risk = if op.isExecute then countFailure cfg s.risk else s.risk := by
  cases op with
  | execute nowTs opp =>
    simp only [Machine.next, machine, step, execute, hb, if_true]
    rfl
  | rebalance nowTs symbol =>
    exact (next_step cfg s (.rebalance nowTs symbol)).risk_of_rebalance

lemma iterate_countFailure_blocked {cfg : BotConfig} {risk : RiskState} (hb : risk.blocked = true)
    (n : ℕ) : ((countFailure cfg)^[n] risk).blocked = true := by
  induction n with
  | zero => exact hb
  | succ n ih =>
    rw [Function.iterate_succ_apply']
    exact countFailure_of_blocked ih

/-- The run of a blocked executor. -/
lemma run_of_blocked {s : PaperExecutor} (hb : s.risk.blocked = true) (cfg : BotConfig)
    (ops : List Op) :
    ((machine cfg).run s ops).risk = (countFailure cfg)^[calls ops] s.risk := by
  induction ops using List.reverseRecOn with
  | nil => rfl
  | append_singleton ops op ih =>
    have hb' : ((machine cfg).run s ops).risk.blocked = true := by
      rw [ih]
      exact iterate_countFailure_blocked hb _
    rw [Machine.run_concat, next_of_blocked hb', ih, calls_concat]
    split
    · exact (Function.iterate_succ_apply' ..).symm
    · rfl

lemma iterate_countFailure_consecutiveFailures (cfg : BotConfig) (risk : RiskState) (n : ℕ) :
    ((countFailure cfg)^[n] risk).consecutiveFailures = risk.consecutiveFailures + n := by
  induction n with
  | zero => rfl
  | succ n ih =>
    rw [Function.iterate_succ_apply', countFailure_consecutiveFailures, ih]
    rfl

/-- Failures in a row write the reason when the last of them reaches the limit. -/
lemma iterate_countFailure_blockedReason (cfg : BotConfig) (risk : RiskState) (n : ℕ) :
    ((countFailure cfg)^[n] risk).blockedReason =
      if 0 < n ∧ cfg.maxConsecutiveFailures ≤ (risk.consecutiveFailures + n : ℕ)
      then some .consecutiveFailuresLimit else risk.blockedReason := by
  induction n with
  | zero => rfl
  | succ n ih =>
    rw [Function.iterate_succ_apply', countFailure_blockedReason,
      iterate_countFailure_consecutiveFailures, ih, Nat.add_assoc]
    by_cases limit : cfg.maxConsecutiveFailures ≤ (risk.consecutiveFailures + (n + 1) : ℕ)
    · rw [if_pos limit, if_pos ⟨n.succ_pos, limit⟩]
    · -- below the limit now is below the limit before
      have before : ¬(0 < n ∧ cfg.maxConsecutiveFailures ≤ (risk.consecutiveFailures + n : ℕ)) :=
        fun h => limit (h.2.trans (by exact_mod_cast Nat.add_le_add_left n.le_succ _))
      rw [if_neg limit, if_neg before, if_neg fun h => limit h.2]

/-! ## The first block -/

/-- What an executor was blocked for: failures, or a loss, which is never preceded by failures. -/
def Caused (risk : RiskState) : Prop :=
  risk.blockedReason = some .consecutiveFailuresLimit ∨
    (risk.blockedReason = some .dailyDrawdownLimit ∧ risk.consecutiveFailures = 0)

/-- The step that blocks an executor leaves its cause. -/
lemma Step.caused {cfg s op ev s'} (st : Step cfg s op ev s') (free : s.risk.blocked = false)
    (hb : s'.risk.blocked = true) : Caused s'.risk := by
  have fresh : s.risk.blocked = true → Caused s'.risk := fun h => by rw [free] at h; cases h
  cases st with
  | executeRaised => exact fresh hb
  | rebalanceRaised => exact fresh hb
  | idle => exact fresh hb
  | shipped => exact fresh hb
  | called call =>
    cases call with
    | refused =>
      rcases (countFailure_blocked ..).1 hb with already | limit
      · exact fresh already
      · exact .inl ((countFailure_blockedReason ..).trans (if_pos limit))
    | rehearsed => exact fresh hb
    | booked =>
      rcases (evaluateDrawdownGuard_blocked ..).1 hb with already | loss
      · exact fresh already
      · refine .inr ?_
        dsimp only
        rw [evaluateDrawdownGuard, if_pos loss]
        exact ⟨rfl, rfl⟩

/-- The first block of a run from a fresh executor has a cause. -/
lemma BlocksFirst.caused {cfg s₀ pre} (first : BlocksFirst cfg s₀ pre) (fresh : Fresh cfg s₀) :
    Caused ((machine cfg).run s₀ pre).risk := by
  obtain ⟨hb, before⟩ := first
  cases pre using List.reverseRecOn with
  | nil =>
    rw [Machine.run_nil, fresh.risk] at hb
    cases hb
  | append_singleton pre op =>
    have free := before pre (List.prefix_append pre [op]) (by simp)
    rw [Machine.run_concat] at hb ⊢
    exact (next_step cfg _ op).caused free hb

/-- The reported reason of a block. When a run from a fresh executor first ends blocked, the reason
stays what it is, however the run goes on, exactly when the executor was blocked for its failures, or
when fewer calls of `execute` than the failure limit follow a block for its losses. -/
theorem block_reason_iff {cfg s₀ pre} (hinit : init cfg = .ok s₀) (first : BlocksFirst cfg s₀ pre)
    (later : List Op) :
    (∀ mid, mid <+: later → ((machine cfg).run s₀ (pre ++ mid)).risk.blockedReason =
      ((machine cfg).run s₀ pre).risk.blockedReason) ↔
    (((machine cfg).run s₀ pre).risk.blockedReason = some .dailyDrawdownLimit →
      calls later = 0 ∨ (calls later : ℤ) < cfg.maxConsecutiveFailures) := by
  have after : ∀ mid, ((machine cfg).run s₀ (pre ++ mid)).risk.blockedReason =
      if 0 < calls mid ∧ cfg.maxConsecutiveFailures ≤
        (((machine cfg).run s₀ pre).risk.consecutiveFailures + calls mid : ℕ)
      then some .consecutiveFailuresLimit
      else ((machine cfg).run s₀ pre).risk.blockedReason := fun mid => by
    rw [Machine.run_append, run_of_blocked first.1, iterate_countFailure_blockedReason]
  simp only [after]
  rcases first.caused (init_fresh hinit) with failures | ⟨loss, count⟩
  · rw [failures]
    refine iff_of_true (fun mid _ => ite_self _) fun h => ?_
    cases h
  · simp only [loss, count, Nat.zero_add]
    constructor
    · intro h _
      by_contra limit
      have overwritten := h later List.prefix_rfl
      rw [if_pos (by omega)] at overwritten
      cases overwritten
    · intro h mid hmid
      have fewer : calls mid ≤ calls later := hmid.sublist.countP_le
      rw [if_neg]
      have := h trivial
      omega

/-- A route that sells for much less than it buys. -/
def losingRoute : Opportunity :=
  { sampleRoute with executionStyle := .takerTaker, sellPrice := 50000 }

/-- One trade on `losingRoute` blocks the default executor. -/
lemma losingRoute_blocks {s₀} (hinit : init defaultConfig = .ok s₀) :
    BlocksFirst defaultConfig s₀ [.execute 0 losingRoute] := by
  have h : (init defaultConfig).toOption.map (fun s₀ =>
      ((machine defaultConfig).run s₀ [.execute 0 losingRoute]).risk.blocked) = some true := by
    decide +kernel
  rw [hinit] at h
  refine ⟨Option.some.inj h, fun shorter hpre ne => ?_⟩
  rcases List.prefix_cons_iff.1 hpre with rfl | ⟨rest, rfl, hrest⟩
  · rw [Machine.run_nil, (init_fresh hinit).risk]
  · rw [List.prefix_nil.1 hrest] at ne
    exact absurd rfl ne

/-- Seven refused calls leave the reason of a loss as it is. -/
theorem block_reason_kept : ∃ s₀, init defaultConfig = .ok s₀ ∧
    ∀ mid, mid <+: List.replicate 7 (Op.execute 60 losingRoute) →
      ((machine defaultConfig).run s₀ ([.execute 0 losingRoute] ++ mid)).risk.blockedReason =
        ((machine defaultConfig).run s₀ [.execute 0 losingRoute]).risk.blockedReason := by
  obtain ⟨s₀, hinit⟩ := init_default
  exact ⟨s₀, hinit, (block_reason_iff hinit (losingRoute_blocks hinit) _).2
    fun _ => .inr (by decide)⟩

/-- Eight refused calls overwrite it: the executor that a loss has blocked reports that its failures
have. -/
theorem block_reason_overwritten : ∃ s₀, init defaultConfig = .ok s₀ ∧
    BlocksFirst defaultConfig s₀ [.execute 0 losingRoute] ∧
    ((machine defaultConfig).run s₀ [.execute 0 losingRoute]).risk.blockedReason =
      some .dailyDrawdownLimit ∧
    ((machine defaultConfig).run s₀ ([.execute 0 losingRoute] ++
      List.replicate 8 (.execute 60 losingRoute))).risk.blockedReason =
      some .consecutiveFailuresLimit := by
  obtain ⟨s₀, hinit, h⟩ := Loop.exists_ok_of_any (x := init defaultConfig) (p := fun s₀ =>
    ((machine defaultConfig).run s₀ [.execute 0 losingRoute]).risk.blockedReason =
      some .dailyDrawdownLimit ∧
    ((machine defaultConfig).run s₀ ([.execute 0 losingRoute] ++
      List.replicate 8 (.execute 60 losingRoute))).risk.blockedReason =
      some .consecutiveFailuresLimit) (by decide +kernel)
  exact ⟨s₀, hinit, losingRoute_blocks hinit, of_decide_eq_true h⟩

end ArbBot.PaperExecutor
