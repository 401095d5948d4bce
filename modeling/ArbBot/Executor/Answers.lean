import ArbBot.Executor.Ledger

/-!
# What a call answers

`Answer` sorts the exits of `execute` by the reason that they answer: the executor is blocked, the
route is cooling down, a later check rejects the call, the maker order is cancelled, or the trade is
accepted; `execute_answer` is the inversion. Against `Call` it keeps the reasons and what becomes of
the counters and of the order payload, and it forgets the balances of an accepted trade.

`execute_atomic` says what a call leaves: a failed one has changed nothing but its counters and,
when the maker order was cancelled, the payload.
-/

namespace ArbBot.PaperExecutor

/-- What an accepted trade does to the counters. -/
structure Counted (cfg : BotConfig) (risk risk' : RiskState) : Prop where
  tradesExecuted : risk'.tradesExecuted = risk.tradesExecuted + 1
  tradesFailed : risk'.tradesFailed = risk.tradesFailed
  consecutiveFailures : risk'.consecutiveFailures = 0
  blocked : risk'.blocked = true → risk'.realizedPnlUsdt ≤ -maxLoss cfg

/-- `execute` on `opp` in state `s` at `nowTs` answers with a result and a next state. -/
inductive Answer (cfg : BotConfig) (s : PaperExecutor) (nowTs : ℚ) (opp : Opportunity) :
    TradeResult → PaperExecutor → Prop where
  | blocked (hb : s.risk.blocked = true) :
      Answer cfg s nowTs opp
        (tradeResult opp false (s.risk.blockedReason.elim .riskBlocked .blocked) 0)
        { s with risk := countFailure cfg s.risk }
  | cooling (free : s.risk.blocked = false) (hot : cooldownActive cfg s opp nowTs) :
      Answer cfg s nowTs opp (tradeResult opp false .cooldownActive 0)
        { s with risk := countFailure cfg s.risk }
  | rejected {reason requotes} (free : s.risk.blocked = false)
      (cooled : ¬cooldownActive cfg s opp nowTs) (other : reason ≠ .cooldownActive) :
      Answer cfg s nowTs opp (tradeResult opp false reason 0)
        { s with risk := countFailure cfg { s.risk with makerRequotes := requotes } }
  | cancelled {timeouts requotes payload} (free : s.risk.blocked = false)
      (cooled : ¬cooldownActive cfg s opp nowTs) :
      Answer cfg s nowTs opp (tradeResult opp false .makerTimeoutCancelled 0)
        { s with
          risk := countFailure cfg
            { s.risk with makerTimeouts := timeouts, makerRequotes := requotes }
          lastOrderPayload := payload }
  | accepted {reason pnl balances risk payload} (free : s.risk.blocked = false)
      (cooled : ¬cooldownActive cfg s opp nowTs) (other : reason ≠ .cooldownActive)
      (counted : Counted cfg s.risk risk) :
      Answer cfg s nowTs opp (tradeResult opp true reason pnl)
        { s with
          balances
          risk
          lastTradeAt := s.lastTradeAt.set (routeKey opp) nowTs
          lastOrderPayload := payload }

/-! ## Counters -/

@[simp] lemma countFailure_tradesFailed (cfg : BotConfig) (risk : RiskState) :
    (countFailure cfg risk).tradesFailed = risk.tradesFailed + 1 := by
  unfold countFailure
  dsimp only
  split <;> rfl

@[simp] lemma countFailure_tradesExecuted (cfg : BotConfig) (risk : RiskState) :
    (countFailure cfg risk).tradesExecuted = risk.tradesExecuted := by
  unfold countFailure
  dsimp only
  split <;> rfl

/-- The counters of a rehearsed trade. -/
lemma counted_countSuccess {cfg risk} (free : risk.blocked = false) (requotes) :
    Counted cfg risk (countSuccess { risk with makerRequotes := requotes }) where
  tradesExecuted := rfl
  tradesFailed := rfl
  consecutiveFailures := rfl
  blocked hb := by
    have : risk.blocked = true := hb
    rw [free] at this
    cases this

/-- The counters of a booked trade. -/
lemma counted_evaluateDrawdownGuard {cfg risk} (free : risk.blocked = false) (requotes pnl) :
    Counted cfg risk (evaluateDrawdownGuard cfg (countSuccess
      { risk with makerRequotes := requotes, realizedPnlUsdt := pnl })) := by
  unfold evaluateDrawdownGuard
  split
  case isTrue loss => exact ⟨rfl, rfl, rfl, fun _ => loss⟩
  case isFalse =>
    refine ⟨rfl, rfl, rfl, fun hb => ?_⟩
    have : risk.blocked = true := hb
    rw [free] at this
    cases this

/-! ## Inversion -/

/-- `_finalize_execution` accepts. -/
lemma finalizeExecution_answer {cfg s nowTs opp base spent received pnl reasonOk dryReason payload
    r s'} (free : s.risk.blocked = false) (cooled : ¬cooldownActive cfg s opp nowTs) (requotes)
    (ok : reasonOk ≠ .cooldownActive) (dry : dryReason ≠ .cooldownActive)
    (e : finalizeExecution cfg { s with risk := { s.risk with makerRequotes := requotes } } opp nowTs
        base spent received pnl reasonOk dryReason payload = (r, s')) :
    Answer cfg s nowTs opp r s' := by
  unfold finalizeExecution at e
  split at e
  case isTrue =>
    cases e
    exact .accepted free cooled dry (counted_countSuccess free requotes)
  case isFalse =>
    cases e
    exact .accepted free cooled ok (counted_evaluateDrawdownGuard free requotes _)

/-- Inversion of `_execute_maker_taker`. -/
lemma executeMakerTaker_answer {cfg s nowTs opp base r s'} (free : s.risk.blocked = false)
    (cooled : ¬cooldownActive cfg s opp nowTs)
    (e : executeMakerTaker cfg s opp nowTs base = (r, s')) : Answer cfg s nowTs opp r s' := by
  unfold executeMakerTaker at e
  dsimp only at e
  split at e
  case isTrue => cases e; exact .cancelled free cooled
  case isFalse =>
    split at e
    case isTrue => cases e; exact .rejected free cooled nofun
    case isFalse => exact finalizeExecution_answer free cooled _ (by decide) (by decide) e

/-- Inversion of `execute`, by its answer. -/
theorem execute_answer {cfg s nowTs opp r s'} (e : execute cfg s nowTs opp = .ok (r, s')) :
    Answer cfg s nowTs opp r s' := by
  unfold execute at e
  split at e
  case isTrue hb => cases e; exact .blocked hb
  case isFalse hb =>
    have free : s.risk.blocked = false := Bool.eq_false_iff.2 hb
    split at e
    case isTrue hot => cases e; exact .cooling free hot
    case isFalse cooled =>
      have rejected : ∀ {reason}, reason ≠ .cooldownActive →
          .ok (failed cfg s reason opp) = (.ok (r, s') : Except PyError _) →
          Answer cfg s nowTs opp r s' := fun other e => by
        cases e
        exact .rejected free cooled other
      split at e
      case h_1 => cases e
      case h_2 =>
        split at e
        case h_1 =>
          split at e
          case isTrue => exact rejected (by decide) e
          case isFalse =>
            split at e
            case isTrue => exact rejected (by decide) e
            case isFalse =>
              split at e
              case isTrue => exact executeMakerTaker_answer free cooled (Except.ok.inj e)
              case isFalse =>
                exact finalizeExecution_answer free cooled s.risk.makerRequotes (by decide)
                  (by decide) (Except.ok.inj e)
        case h_2 => exact rejected (by decide) e

/-! ## Failed calls are atomic -/

/-- A failed call has changed its two counters, and nothing else that a later call could see; the
order payload is a new one only when the maker order was cancelled. -/
structure FailsAtomically (s : PaperExecutor) (r : TradeResult) (s' : PaperExecutor) : Prop where
  balances : s'.balances = s.balances
  lastTradeAt : s'.lastTradeAt = s.lastTradeAt
  lastRebalanceAt : s'.lastRebalanceAt = s.lastRebalanceAt
  realizedPnlUsdt : s'.risk.realizedPnlUsdt = s.risk.realizedPnlUsdt
  tradesExecuted : s'.risk.tradesExecuted = s.risk.tradesExecuted
  tradesFailed : s'.risk.tradesFailed = s.risk.tradesFailed + 1
  consecutiveFailures : s'.risk.consecutiveFailures = s.risk.consecutiveFailures + 1
  payload : s'.lastOrderPayload ≠ s.lastOrderPayload → r.reason = .makerTimeoutCancelled

/-- A successful call has counted itself and stamped its own route. -/
structure Succeeds (s : PaperExecutor) (opp : Opportunity) (s' : PaperExecutor) : Prop where
  tradesExecuted : s'.risk.tradesExecuted = s.risk.tradesExecuted + 1
  tradesFailed : s'.risk.tradesFailed = s.risk.tradesFailed
  consecutiveFailures : s'.risk.consecutiveFailures = 0
  lastTradeAt : ∀ key, key ≠ routeKey opp → s'.lastTradeAt.get? key = s.lastTradeAt.get? key

/-- What the failing exits have in common. -/
lemma failsAtomically {cfg s payload} {r : TradeResult} (timeouts requotes)
    (h : payload ≠ s.lastOrderPayload → r.reason = .makerTimeoutCancelled) :
    FailsAtomically s r { s with
      risk := countFailure cfg { s.risk with makerTimeouts := timeouts, makerRequotes := requotes }
      lastOrderPayload := payload } where
  balances := rfl
  lastTradeAt := rfl
  lastRebalanceAt := rfl
  realizedPnlUsdt := by simp
  tradesExecuted := by simp
  tradesFailed := by simp
  consecutiveFailures := by simp
  payload := h

/-- A call on a `BASE/QUOTE` symbol returns, and it either fails atomically or succeeds. -/
theorem execute_atomic (cfg s nowTs) {opp} (split : ∃ base quote,
    splitSymbol opp.symbol = .ok (base, quote)) :
    ∃ r s', execute cfg s nowTs opp = .ok (r, s') ∧
      (r.success = false → FailsAtomically s r s') ∧ (r.success = true → Succeeds s opp s') := by
  obtain ⟨base, quote, split⟩ := split
  obtain ⟨r, s', e⟩ := execute_ok_of_split cfg s nowTs split
  refine ⟨r, s', e, ?_⟩
  cases execute_answer e with
  | blocked => exact ⟨fun _ => failsAtomically _ _ fun h => absurd rfl h, nofun⟩
  | cooling => exact ⟨fun _ => failsAtomically _ _ fun h => absurd rfl h, nofun⟩
  | rejected => exact ⟨fun _ => failsAtomically _ _ fun h => absurd rfl h, nofun⟩
  | cancelled => exact ⟨fun _ => failsAtomically _ _ fun _ => rfl, nofun⟩
  | accepted _ _ _ counted =>
    exact ⟨nofun, fun _ => ⟨counted.tradesExecuted, counted.tradesFailed,
      counted.consecutiveFailures, fun key h => OrdDict.get?_set_of_ne _ _ h⟩⟩

/-- A route for which no account has the money. -/
def dearRoute : Opportunity := { sampleRoute with executionStyle := .takerTaker, quantity := 1 }

/-- A route whose maker order is not likely to be filled. -/
def idleRoute : Opportunity := { sampleRoute with fillProbability := 1 / 10 }

/-- Whether a call succeeds, and the reason that it gives. -/
def verdict (cfg : BotConfig) (s : PaperExecutor) (opp : Opportunity) : Option (Bool × Reason) :=
  (execute cfg s 0 opp).toOption.map fun p => (p.1.success, p.1.reason)

lemma of_verdict {cfg s opp r s' success reason} (h : verdict cfg s opp = some (success, reason))
    (e : execute cfg s 0 opp = .ok (r, s')) : r.success = success ∧ r.reason = reason := by
  rw [verdict, e] at h
  exact Prod.mk.inj (Option.some.inj h)

/-- On a freshly built executor the sample route trades; a route that is too dear is refused, and an idle
one is cancelled. -/
theorem execute_atomic_sample :
    ∃ s₀, init defaultConfig = .ok s₀ ∧
      (∃ r s', execute defaultConfig s₀ 0 sampleRoute = .ok (r, s') ∧ Succeeds s₀ sampleRoute s') ∧
      (∃ r s', execute defaultConfig s₀ 0 dearRoute = .ok (r, s') ∧ FailsAtomically s₀ r s' ∧
        s'.lastOrderPayload = s₀.lastOrderPayload) ∧
      ∃ r s', execute defaultConfig s₀ 0 idleRoute = .ok (r, s') ∧ FailsAtomically s₀ r s' ∧
        r.reason = .makerTimeoutCancelled := by
  obtain ⟨s₀, hinit, h⟩ := Loop.exists_ok_of_any (x := init defaultConfig)
    (p := fun s₀ => verdict defaultConfig s₀ sampleRoute = some (true, .makerTakerOk) ∧
      verdict defaultConfig s₀ dearRoute = some (false, .insufficientQuoteOnBuyExchange) ∧
      verdict defaultConfig s₀ idleRoute = some (false, .makerTimeoutCancelled))
    (by decide +kernel)
  obtain ⟨trades, refused, cancelled⟩ := of_decide_eq_true h
  have split : ∃ base quote, splitSymbol "BTC/USDT" = .ok (base, quote) :=
    ⟨"BTC", "USDT", by decide +kernel⟩
  refine ⟨s₀, hinit, ?_, ?_, ?_⟩
  · obtain ⟨r, s', e, -, succeeds⟩ := @execute_atomic defaultConfig s₀ 0 sampleRoute split
    exact ⟨r, s', e, succeeds (of_verdict trades e).1⟩
  · obtain ⟨r, s', e, fails, -⟩ := @execute_atomic defaultConfig s₀ 0 dearRoute split
    obtain ⟨failed, reason⟩ := of_verdict refused e
    refine ⟨r, s', e, fails failed, ?_⟩
    by_contra payload
    rw [(fails failed).payload payload] at reason
    cases reason
  · obtain ⟨r, s', e, fails, -⟩ := @execute_atomic defaultConfig s₀ 0 idleRoute split
    obtain ⟨failed, reason⟩ := of_verdict cancelled e
    exact ⟨r, s', e, fails failed, reason⟩

end ArbBot.PaperExecutor
