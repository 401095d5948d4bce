import ArbBot.Executor.Ledger

/-!
# The attempts of a cycle

Port of the loop over `attempts` in `src/main.py`: the first `max(1, max_opportunities_per_cycle)`
opportunities are tried in rank order, those that are too old are skipped, and the first success ends
the loop. An exception in `execute` ends the bot; `CycleOutcome` keeps what was done until then.

The loop hands a changing executor from attempt to attempt. `cycle_executes_best` says that its
outcome can be read off the state at the start: the only thing that a failed attempt can do to a
later one is to trip the circuit breaker. `Behind` is the state after `m` failed attempts, seen from
the start.
-/

namespace ArbBot

open PaperExecutor

/-- What a cycle has done: the results of its calls, and the exception that ended it, if any. -/
structure CycleOutcome where
  executor : PaperExecutor
  results : List (Opportunity × TradeResult)
  error : Option PyError

namespace CycleOutcome

/-- The opportunities that were executed. -/
def executed (out : CycleOutcome) : List Opportunity :=
  (out.results.filter fun x => x.2.success).map Prod.fst

end CycleOutcome

/-- `attempts`. -/
def attempts (cfg : BotConfig) (opportunities : List Opportunity) : List Opportunity :=
  opportunities.take (max 1 cfg.maxOpportunitiesPerCycle).toNat

/-- `age_ms > max_opportunity_age_ms`. -/
def tooOld (cfg : BotConfig) (now : ℚ) (opp : Opportunity) : Bool :=
  cfg.maxOpportunityAgeMs < clockMs now - opp.timestampMs

/-- The loop over `attempts`. The `k`-th opportunity is aged at reading `2k` of the clock and executed
at reading `2k + 1`. -/
def attemptLoop (cfg : BotConfig) (clock : ℕ → ℚ) : ℕ → PaperExecutor → List Opportunity → CycleOutcome
  | _, s, [] => ⟨s, [], none⟩
  | k, s, opp :: opps =>
    if tooOld cfg (clock (2 * k)) opp then attemptLoop cfg clock (k + 1) s opps
    else
      match execute cfg s (clock (2 * k + 1)) opp with
      | .error e => ⟨s, [], some e⟩
      | .ok (r, s') =>
        if r.success then ⟨s', [(opp, r)], none⟩
        else
          let rest := attemptLoop cfg clock (k + 1) s' opps
          { rest with results := (opp, r) :: rest.results }

/-- The attempts of a cycle on a ranked list. -/
def runAttempts (cfg : BotConfig) (clock : ℕ → ℚ) (s : PaperExecutor)
    (opportunities : List Opportunity) : CycleOutcome :=
  attemptLoop cfg clock 0 s (attempts cfg opportunities)

/-! ## The choice, seen from the start -/

/-- `execute` would succeed. -/
def accepted (cfg : BotConfig) (s : PaperExecutor) (now : ℚ) (opp : Opportunity) : Bool :=
  match execute cfg s now opp with
  | .ok (r, _) => r.success
  | .error _ => false

/-- The opportunity is young enough, and `execute` would succeed. -/
def eligible (cfg : BotConfig) (s : PaperExecutor) (now : ℚ) (opp : Opportunity) : Bool :=
  !tooOld cfg now opp && accepted cfg s now opp

/-- The attempts that fail ahead of the first eligible opportunity. -/
def failuresAhead (cfg : BotConfig) (s : PaperExecutor) (now : ℚ) (opps : List Opportunity) : ℕ :=
  (opps.takeWhile fun opp => !eligible cfg s now opp).countP fun opp => !tooOld cfg now opp

/-- `m` failed attempts from state `s` trip the circuit breaker. -/
def Tripped (cfg : BotConfig) (s : PaperExecutor) (m : ℕ) : Prop :=
  0 < m ∧ cfg.maxConsecutiveFailures ≤ (s.risk.consecutiveFailures + m : ℕ)

instance (cfg : BotConfig) (s : PaperExecutor) (m : ℕ) : Decidable (Tripped cfg s m) :=
  inferInstanceAs (Decidable (_ ∧ _))

lemma accepted_iff {cfg s now opp} : accepted cfg s now opp = true ↔ Accepts cfg s now opp := by
  unfold accepted
  cases e : execute cfg s now opp with
  | error =>
    refine ⟨nofun, fun acc => ?_⟩
    obtain ⟨r, s', e', _⟩ := execute_of_accepts acc
    rw [e'] at e; cases e
  | ok p => exact (execute_call e).success_iff

lemma Tripped.mono {cfg s m n} (h : Tripped cfg s m) (hle : m ≤ n) : Tripped cfg s n :=
  ⟨by have := h.1; omega, h.2.trans (by exact_mod_cast Nat.add_le_add_left hle _)⟩

lemma not_tripped_zero (cfg s) : ¬Tripped cfg s 0 := fun h => absurd h.1 (lt_irrefl 0)

/-! ## Failed attempts -/

/-- `t` is `s` after `m` failed attempts, as far as later attempts can tell. -/
structure Behind (cfg : BotConfig) (s : PaperExecutor) (m : ℕ) (t : PaperExecutor) : Prop where
  balances : t.balances = s.balances
  lastTradeAt : t.lastTradeAt = s.lastTradeAt
  pnl : t.risk.realizedPnlUsdt = s.risk.realizedPnlUsdt
  count : t.risk.consecutiveFailures = s.risk.consecutiveFailures + m
  blocked : t.risk.blocked = true ↔ s.risk.blocked = true ∨ Tripped cfg s m

lemma Behind.refl (cfg s) : Behind cfg s 0 s where
  balances := rfl
  lastTradeAt := rfl
  pnl := rfl
  count := rfl
  blocked := (or_iff_left (not_tripped_zero cfg s)).symm

/-- One more failed attempt. -/
lemma Behind.refused {cfg s m t now opp r t'} (b : Behind cfg s m t)
    (call : Call cfg t now opp r t') (fails : r.success = false) : Behind cfg s (m + 1) t' := by
  cases call with
  | rehearsed => cases fails
  | booked => cases fails
  | refused =>
    refine ⟨b.balances, b.lastTradeAt, ?_, ?_, ?_⟩
    · simpa using b.pnl
    · have := b.count
      simp only [countFailure_consecutiveFailures]
      omega
    · rw [countFailure_blocked, b.blocked, b.count, or_assoc, Nat.add_assoc]
      refine or_congr_right ⟨?_, fun h => .inr h.2⟩
      rintro (h | h)
      · exact h.mono (Nat.le_succ m)
      · exact ⟨Nat.succ_pos m, h⟩

/-- After failed attempts, an opportunity is accepted if it was at the start, unless they have tripped
the circuit breaker. -/
lemma Behind.accepts_iff {cfg s m t now opp} (b : Behind cfg s m t) :
    Accepts cfg t now opp ↔ Accepts cfg s now opp ∧ ¬Tripped cfg s m := by
  have free : t.risk.blocked = false ↔ s.risk.blocked = false ∧ ¬Tripped cfg s m := by
    rw [← Bool.not_eq_true, ← Bool.not_eq_true, b.blocked, not_or]
  have admitted : ∀ base, Admitted cfg t now opp base ↔
      Admitted cfg s now opp base ∧ ¬Tripped cfg s m := by
    intro base
    constructor
    · rintro ⟨notBlocked, cooled, split, canBuy, canSell⟩
      obtain ⟨notBlocked, untripped⟩ := free.1 notBlocked
      rw [b.balances] at canBuy canSell
      unfold cooldownActive at cooled
      rw [b.lastTradeAt] at cooled
      exact ⟨⟨notBlocked, cooled, split, canBuy, canSell⟩, untripped⟩
    · rintro ⟨⟨notBlocked, cooled, split, canBuy, canSell⟩, untripped⟩
      refine ⟨free.2 ⟨notBlocked, untripped⟩, ?_, split, ?_, ?_⟩
      · unfold cooldownActive
        rw [b.lastTradeAt]
        exact cooled
      · rw [b.balances]; exact canBuy
      · rw [b.balances]; exact canSell
  unfold Accepts
  simp only [admitted]
  constructor
  · rintro ⟨base, k, ⟨adm, untripped⟩, fill⟩
    exact ⟨⟨base, k, adm, fill⟩, untripped⟩
  · rintro ⟨⟨base, k, adm, fill⟩, untripped⟩
    exact ⟨base, k, ⟨adm, untripped⟩, fill⟩

/-- After failed attempts, a call succeeds if `execute` accepted the opportunity at the start, unless
they have tripped the circuit breaker. -/
lemma Behind.success_iff {cfg s m t now opp r t'} (b : Behind cfg s m t)
    (call : Call cfg t now opp r t') :
    r.success = true ↔ accepted cfg s now opp = true ∧ ¬Tripped cfg s m := by
  rw [call.success_iff, b.accepts_iff, accepted_iff]

/-! ## The loop -/

lemma failuresAhead_cons (cfg s now opp) (opps : List Opportunity) :
    failuresAhead cfg s now (opp :: opps) =
      if eligible cfg s now opp then 0
      else if tooOld cfg now opp then failuresAhead cfg s now opps
      else failuresAhead cfg s now opps + 1 := by
  unfold failuresAhead
  cases elig : eligible cfg s now opp with
  | true => simp [elig]
  | false => cases old : tooOld cfg now opp <;> simp [elig, old]

@[simp] lemma executed_cons (t : PaperExecutor) (x results error) :
    (⟨t, x :: results, error⟩ : CycleOutcome).executed =
      if x.2.success then x.1 :: (⟨t, results, error⟩ : CycleOutcome).executed
      else (⟨t, results, error⟩ : CycleOutcome).executed := by
  simp only [CycleOutcome.executed, List.filter_cons]
  split <;> rfl

/-- With a clock that stands still, the loop executes the first opportunity that is eligible at the
start, unless the failures ahead of it trip the circuit breaker. -/
lemma attemptLoop_executed {cfg s now k m t opps} (b : Behind cfg s m t)
    (returned : (attemptLoop cfg (fun _ => now) k t opps).error = none) :
    (attemptLoop cfg (fun _ => now) k t opps).executed =
      (if Tripped cfg s (m + failuresAhead cfg s now opps) then none
        else opps.find? (eligible cfg s now)).toList := by
  induction opps generalizing k m t with
  | nil => simp [attemptLoop, CycleOutcome.executed]
  | cons opp opps ih =>
    simp only [attemptLoop] at returned ⊢
    split at returned
    case isTrue old =>
      -- skipped: it neither fails nor is eligible
      have out : ¬eligible cfg s now opp = true := by simp [eligible, old]
      rw [if_pos old, ih b returned, List.find?_cons_of_neg out, failuresAhead_cons, if_neg out,
        if_pos old]
    case isFalse young =>
      have elig_iff : eligible cfg s now opp = true ↔ accepted cfg s now opp = true := by
        simp [eligible, young]
      rw [if_neg young]
      cases e : execute cfg t now opp with
      | error => rw [e] at returned; cases returned
      | ok p =>
        obtain ⟨r, t'⟩ := p
        have call := execute_call e
        rw [e] at returned
        dsimp only at returned ⊢
        split at returned
        case isTrue succeeds =>
          -- executed, and the loop ends: it was the first that was eligible
          obtain ⟨acc, untripped⟩ := (b.success_iff call).1 succeeds
          have elig := elig_iff.2 acc
          rw [if_pos succeeds, failuresAhead_cons, if_pos elig, Nat.add_zero, if_neg untripped,
            List.find?_cons_of_pos elig]
          simp [CycleOutcome.executed, succeeds]
        case isFalse fails =>
          rw [if_neg fails, executed_cons, if_neg fails]
          refine (ih (b.refused call (by simpa using fails)) returned).trans ?_
          by_cases elig : eligible cfg s now opp = true
          · -- it would have been accepted at the start: the breaker has tripped
            have tripped : Tripped cfg s m := not_not.1 fun h =>
              fails ((b.success_iff call).2 ⟨elig_iff.1 elig, h⟩)
            rw [if_pos (tripped.mono (by omega)), if_pos (tripped.mono (by omega))]
          · rw [failuresAhead_cons, if_neg elig, if_neg young, List.find?_cons_of_neg elig,
              Nat.add_assoc m 1, Nat.add_comm 1]

/-- A loop that raises has executed nothing. -/
lemma attemptLoop_raised {cfg clock k t opps}
    (raised : (attemptLoop cfg clock k t opps).error ≠ none) :
    (attemptLoop cfg clock k t opps).executed = [] := by
  induction opps generalizing k t with
  | nil => rfl
  | cons opp opps ih =>
    simp only [attemptLoop] at raised ⊢
    split at raised
    case isTrue old => rw [if_pos old]; exact ih raised
    case isFalse young =>
      rw [if_neg young]
      cases e : execute cfg t (clock (2 * k + 1)) opp with
      | error => rfl
      | ok p =>
        rw [e] at raised
        dsimp only at raised ⊢
        split at raised
        case isTrue => exact absurd rfl raised
        case isFalse fails =>
          rw [if_neg fails, executed_cons, if_neg fails]
          exact ih raised

/-- A loop that executes nothing leaves balances, PnL and cooldowns alone. -/
lemma attemptLoop_unchanged {cfg clock k t opps}
    (none : (attemptLoop cfg clock k t opps).executed = []) :
    (attemptLoop cfg clock k t opps).executor.balances = t.balances ∧
      (attemptLoop cfg clock k t opps).executor.risk.realizedPnlUsdt = t.risk.realizedPnlUsdt ∧
      (attemptLoop cfg clock k t opps).executor.lastTradeAt = t.lastTradeAt := by
  induction opps generalizing k t with
  | nil => exact ⟨rfl, rfl, rfl⟩
  | cons opp opps ih =>
    simp only [attemptLoop] at none ⊢
    split at none
    case isTrue old => rw [if_pos old]; exact ih none
    case isFalse young =>
      rw [if_neg young]
      cases e : execute cfg t (clock (2 * k + 1)) opp with
      | error => exact ⟨rfl, rfl, rfl⟩
      | ok p =>
        obtain ⟨r, t'⟩ := p
        rw [e] at none
        dsimp only at none ⊢
        split at none
        case isTrue succeeds => simp [CycleOutcome.executed, succeeds] at none
        case isFalse fails =>
          rw [executed_cons, if_neg fails] at none
          rw [if_neg fails]
          have b := (Behind.refl cfg t).refused (execute_call e) (by simpa using fails)
          obtain ⟨hbal, hpnl, hlast⟩ := ih none
          exact ⟨hbal.trans b.balances, hpnl.trans b.pnl, hlast.trans b.lastTradeAt⟩

/-- On `BASE/QUOTE` symbols the loop does not raise. -/
lemma attemptLoop_returns {cfg clock k t opps}
    (split : ∀ opp ∈ opps, ∃ base quote, splitSymbol opp.symbol = .ok (base, quote)) :
    (attemptLoop cfg clock k t opps).error = none := by
  induction opps generalizing k t with
  | nil => rfl
  | cons opp opps ih =>
    have rest : ∀ opp ∈ opps, ∃ base quote, splitSymbol opp.symbol = .ok (base, quote) :=
      fun o ho => split o (List.mem_cons_of_mem _ ho)
    obtain ⟨base, quote, hsplit⟩ := split opp (by simp)
    obtain ⟨r, t', e⟩ := execute_ok_of_split cfg t (clock (2 * k + 1)) hsplit
    simp only [attemptLoop, e]
    split
    · exact ih rest
    · split
      · rfl
      · exact ih rest

/-- The cycle executes the best eligible opportunity and no other. With a clock that stands still
during the cycle: if the cycle returns, it executes the first attempt in rank that is young enough and
that `execute` accepts from the state at the start, and nothing if there is none or if the failed
attempts ahead of it trip the circuit breaker; it returns when the symbols are `BASE/QUOTE`, and it
executes nothing when it does not return. Whenever it executes nothing, balances, PnL and cooldowns
are those of the start. -/
theorem cycle_executes_best (cfg : BotConfig) (s : PaperExecutor) (now : ℚ)
    (opportunities : List Opportunity) :
    (runAttempts cfg (fun _ => now) s opportunities).executed.length ≤ 1 ∧
    ((runAttempts cfg (fun _ => now) s opportunities).error = none →
      (runAttempts cfg (fun _ => now) s opportunities).executed =
        (if Tripped cfg s (failuresAhead cfg s now (attempts cfg opportunities)) then none
          else (attempts cfg opportunities).find? (eligible cfg s now)).toList) ∧
    ((∀ opp ∈ attempts cfg opportunities,
        ∃ base quote, splitSymbol opp.symbol = .ok (base, quote)) →
      (runAttempts cfg (fun _ => now) s opportunities).error = none) ∧
    ((runAttempts cfg (fun _ => now) s opportunities).error ≠ none →
      (runAttempts cfg (fun _ => now) s opportunities).executed = []) ∧
    ((runAttempts cfg (fun _ => now) s opportunities).executed = [] →
      (runAttempts cfg (fun _ => now) s opportunities).executor.balances = s.balances ∧
      (runAttempts cfg (fun _ => now) s opportunities).executor.risk.realizedPnlUsdt =
        s.risk.realizedPnlUsdt ∧
      (runAttempts cfg (fun _ => now) s opportunities).executor.lastTradeAt = s.lastTradeAt) := by
  have best : (runAttempts cfg (fun _ => now) s opportunities).error = none →
      (runAttempts cfg (fun _ => now) s opportunities).executed =
        (if Tripped cfg s (failuresAhead cfg s now (attempts cfg opportunities)) then none
          else (attempts cfg opportunities).find? (eligible cfg s now)).toList := fun returned => by
    have h := attemptLoop_executed (Behind.refl cfg s) returned
    rwa [Nat.zero_add] at h
  refine ⟨?_, best, attemptLoop_returns, attemptLoop_raised, attemptLoop_unchanged⟩
  by_cases returned : (runAttempts cfg (fun _ => now) s opportunities).error = none
  · rw [best returned]
    exact Option.length_toList_le
  · rw [show (runAttempts cfg (fun _ => now) s opportunities).executed = [] from
      attemptLoop_raised returned]
    exact Nat.zero_le 1

/-- Of a route that costs more than there is and one that does not, the second is executed. -/
theorem cycle_executes_best_sample :
    ∃ s₀, init defaultConfig = .ok s₀ ∧
      (runAttempts defaultConfig (fun _ => 1) s₀
        [{ sampleRoute with quantity := 1 }, sampleRoute]).executed = [sampleRoute] := by
  obtain ⟨s₀, hinit, h⟩ := Loop.exists_ok_of_any (x := init defaultConfig)
    (p := fun s₀ =>
      let opps := [{ sampleRoute with quantity := 1 }, sampleRoute]
      (runAttempts defaultConfig (fun _ => 1) s₀ opps).error = none ∧
        (if Tripped defaultConfig s₀ (failuresAhead defaultConfig s₀ 1 (attempts defaultConfig opps))
          then none
          else (attempts defaultConfig opps).find? (eligible defaultConfig s₀ 1)).toList =
            [sampleRoute])
    (by decide +kernel)
  obtain ⟨returned, best⟩ := of_decide_eq_true h
  exact ⟨s₀, hinit, ((cycle_executes_best defaultConfig s₀ 1 _).2.1 returned).trans best⟩

end ArbBot
