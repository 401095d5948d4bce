import ArbBot.Executor.Ledger

/-!
# Dry-run rehearses paper

The mode is read in two places: where a maker-taker trade without profit is rejected, and where a
trade is finalized. `SameOutcome` relates the outcome of a call in paper mode to the outcome of the
same call in dry-run mode: the answers agree (`SameAnswer`), and so do the states up to what a booked
trade writes (`Rehearses`). `dry_run_rehearses` is the simulation, exit by exit.
-/

namespace ArbBot.PaperExecutor

/-- The configuration in another mode. -/
def inMode (cfg : BotConfig) (mode : Mode) : BotConfig := { cfg with mode }

/-- Two results about one opportunity that agree up to the words for a success. -/
structure SameAnswer (r r' : TradeResult) : Prop where
  success : r'.success = r.success
  reason : r.success = false → r'.reason = r.reason
  realizedPnlUsdt : r'.realizedPnlUsdt = r.realizedPnlUsdt
  route : r'.symbol = r.symbol ∧ r'.buyExchange = r.buyExchange ∧ r'.sellExchange = r.sellExchange
  quantity : r'.quantity = r.quantity

/-- The state `t'` that a rehearsal leaves agrees with the state `t` that the trade leaves, up to
balances, PnL and a drawdown block. -/
structure Rehearses (t t' : PaperExecutor) : Prop where
  lastOrderPayload : t'.lastOrderPayload = t.lastOrderPayload
  lastTradeAt : t'.lastTradeAt = t.lastTradeAt
  lastRebalanceAt : t'.lastRebalanceAt = t.lastRebalanceAt
  tradesExecuted : t'.risk.tradesExecuted = t.risk.tradesExecuted
  tradesFailed : t'.risk.tradesFailed = t.risk.tradesFailed
  consecutiveFailures : t'.risk.consecutiveFailures = t.risk.consecutiveFailures
  makerTimeouts : t'.risk.makerTimeouts = t.risk.makerTimeouts
  makerRequotes : t'.risk.makerRequotes = t.risk.makerRequotes
  block : (t'.risk.blocked = t.risk.blocked ∧ t'.risk.blockedReason = t.risk.blockedReason) ∨
    (t.risk.blocked = true ∧ t.risk.blockedReason = some .dailyDrawdownLimit)

/-- A call that raises raises in both modes; a call that returns gives the same answer in both. -/
inductive SameOutcome : Except PyError (TradeResult × PaperExecutor) →
    Except PyError (TradeResult × PaperExecutor) → Prop where
  | raised {e} : SameOutcome (.error e) (.error e)
  | returned {p p'} (answer : SameAnswer p.1 p'.1) (state : Rehearses p.2 p'.2) :
    SameOutcome (.ok p) (.ok p')

lemma SameAnswer.refl (r) : SameAnswer r r := ⟨rfl, fun _ => rfl, rfl, ⟨rfl, rfl, rfl⟩, rfl⟩

lemma Rehearses.refl (t) : Rehearses t t :=
  ⟨rfl, rfl, rfl, rfl, rfl, rfl, rfl, rfl, .inl ⟨rfl, rfl⟩⟩

/-- A failure is registered alike in both modes. -/
lemma registerFailure_same (cfg s reason opp) :
    SameOutcome (.ok (registerFailure (inMode cfg .paper) s reason opp))
      (.ok (registerFailure (inMode cfg .dryRun) s reason opp)) :=
  .returned (.refl _) (.refl _)

/-- A trade that is booked in paper mode is rehearsed in dry-run mode. -/
lemma finalizeExecution_same (cfg s opp nowTs base quoteSpent quoteReceived pnl reasonOk dryReason
    payload) :
    SameOutcome
      (.ok (finalizeExecution (inMode cfg .paper) s opp nowTs base quoteSpent quoteReceived pnl
        reasonOk dryReason payload))
      (.ok (finalizeExecution (inMode cfg .dryRun) s opp nowTs base quoteSpent quoteReceived pnl
        reasonOk dryReason payload)) := by
  have paper : (inMode cfg .paper).mode ≠ .dryRun := fun h => by cases h
  have dry : (inMode cfg .dryRun).mode = .dryRun := rfl
  unfold finalizeExecution
  rw [if_neg paper, if_pos dry]
  dsimp only
  refine .returned ⟨rfl, fun fails => ?_, rfl, ⟨rfl, rfl, rfl⟩, rfl⟩ ?_
  · cases fails
  · unfold evaluateDrawdownGuard
    split
    case isTrue => exact ⟨rfl, rfl, rfl, rfl, rfl, rfl, rfl, rfl, .inr ⟨rfl, rfl⟩⟩
    case isFalse => exact ⟨rfl, rfl, rfl, rfl, rfl, rfl, rfl, rfl, .inl ⟨rfl, rfl⟩⟩

/-- The cancel-requote loop does not look at the mode. -/
lemma makerAttempts_inMode (cfg mode opp n p r) :
    makerAttempts (inMode cfg mode) opp n p r = makerAttempts cfg opp n p r := by
  induction n generalizing p r with
  | zero => rfl
  | succ n ih =>
    have step : boost (inMode cfg mode) p = boost cfg p := rfl
    rw [makerAttempts, makerAttempts, ih, step]
    rfl

lemma makerLoop_inMode (cfg mode opp) : makerLoop (inMode cfg mode) opp = makerLoop cfg opp :=
  makerAttempts_inMode ..

/-- Without the switch for unprofitable rehearsals, no mode accepts a trade without profit. -/
lemma eroded_iff {cfg : BotConfig} (strict : cfg.allowNegativeExpectedProfitDryrun = false) (mode)
    {pnl : ℚ} :
    (pnl ≤ 0 ∧ ¬((inMode cfg mode).mode = .dryRun ∧
      (inMode cfg mode).allowNegativeExpectedProfitDryrun = true)) ↔ pnl ≤ 0 := by
  refine and_iff_left fun h => ?_
  have lax : cfg.allowNegativeExpectedProfitDryrun = true := h.2
  rw [strict] at lax
  cases lax

lemma executeMakerTaker_same {cfg : BotConfig}
    (strict : cfg.allowNegativeExpectedProfitDryrun = false) (s opp nowTs base) :
    SameOutcome (.ok (executeMakerTaker (inMode cfg .paper) s opp nowTs base))
      (.ok (executeMakerTaker (inMode cfg .dryRun) s opp nowTs base)) := by
  unfold executeMakerTaker
  rw [makerLoop_inMode, makerLoop_inMode]
  dsimp only
  simp only [eroded_iff strict]
  split
  case isTrue => exact registerFailure_same ..
  case isFalse =>
    have penalty : ∀ mode k, requotePenalty (inMode cfg mode) opp k = requotePenalty cfg opp k :=
      fun _ _ => rfl
    rw [penalty, penalty]
    split
    case isTrue => exact registerFailure_same ..
    case isFalse => exact finalizeExecution_same ..

/-- Dry-run rehearses paper. Without the switch for unprofitable rehearsals, a call on two copies of a
state raises in both modes, or it gives the same answer in both and leaves states that differ only in
balances, PnL and a drawdown block. -/
theorem dry_run_rehearses {cfg : BotConfig}
    (strict : cfg.allowNegativeExpectedProfitDryrun = false) (s nowTs opp) :
    SameOutcome (execute (inMode cfg .paper) s nowTs opp)
      (execute (inMode cfg .dryRun) s nowTs opp) := by
  have cooling : cooldownActive (inMode cfg .dryRun) s opp nowTs =
      cooldownActive (inMode cfg .paper) s opp nowTs := rfl
  unfold execute
  split
  case isTrue => exact registerFailure_same ..
  case isFalse =>
    by_cases hot : cooldownActive (inMode cfg .paper) s opp nowTs
    · rw [if_pos hot, if_pos (cooling ▸ hot)]
      exact registerFailure_same ..
    · rw [if_neg hot, if_neg (cooling ▸ hot)]
      cases splitSymbol opp.symbol with
      | error => exact .raised
      | ok p =>
        cases s.balances.get? opp.buyExchange with
        | none => exact registerFailure_same ..
        | some buyBal =>
          cases s.balances.get? opp.sellExchange with
          | none => exact registerFailure_same ..
          | some sellBal =>
            dsimp only
            split
            · exact registerFailure_same ..
            · split
              · exact registerFailure_same ..
              · split
                · exact executeMakerTaker_same strict ..
                · exact finalizeExecution_same ..

/-- The sample route on a freshly built executor is rehearsed as it is traded. -/
theorem dry_run_rehearses_sample : ∃ s₀, init defaultConfig = .ok s₀ ∧
    SameOutcome (execute (inMode defaultConfig .paper) s₀ 0 sampleRoute)
      (execute (inMode defaultConfig .dryRun) s₀ 0 sampleRoute) := by
  obtain ⟨s₀, hinit⟩ := init_default
  exact ⟨s₀, hinit, dry_run_rehearses rfl s₀ 0 sampleRoute⟩

end ArbBot.PaperExecutor
