import ArbBot.Engine.Units
import ArbBot.Executor.Inversion

/-!
# The executor in another unit of money

The executor on an opportunity in another unit of money, one old unit being `k` new ones. Its state
counts the same holdings in the new unit (`InUnit`), except for the amounts of money in the order payload,
which are rounded. A call raises in both units or answers alike in both, and leaves such states again
(`execute_inUnit`, `rebalance_inUnit`).
-/

namespace ArbBot

/-- The holdings, with money in another unit. -/
def ExchangeBalance.inUnit (k : ℚ) (bal : ExchangeBalance) : ExchangeBalance :=
  { bal with quoteFree := k * bal.quoteFree }

/-- The risk state, with money in another unit. -/
def RiskState.inUnit (k : ℚ) (risk : RiskState) : RiskState :=
  { risk with realizedPnlUsdt := k * risk.realizedPnlUsdt }

/-- The answer, with money in another unit. -/
def TradeResult.inUnit (k : ℚ) (r : TradeResult) : TradeResult :=
  { r with realizedPnlUsdt := k * r.realizedPnlUsdt }

/-- The payload without its amounts of money, which are rounded. -/
def OrderPayload.unpriced (payload : OrderPayload) : OrderPayload where
  buy := { payload.buy with price := 0 }
  sell := { payload.sell with price := 0 }
  info := { payload.info with expectedProfitUsdt := 0 }

namespace PaperExecutor

/-- The state `s'` counts what the state `s` holds in another unit. -/
structure InUnit (k : ℚ) (s s' : PaperExecutor) : Prop where
  risk : s'.risk = s.risk.inUnit k
  balances : s'.balances = s.balances.mapVal (ExchangeBalance.inUnit k)
  lastTradeAt : s'.lastTradeAt = s.lastTradeAt
  lastRebalanceAt : s'.lastRebalanceAt = s.lastRebalanceAt
  lastOrderPayload : s'.lastOrderPayload.map OrderPayload.unpriced =
    s.lastOrderPayload.map OrderPayload.unpriced

/-- The executor, with money in another unit. -/
def inUnit (k : ℚ) (s : PaperExecutor) : PaperExecutor :=
  { s with risk := s.risk.inUnit k, balances := s.balances.mapVal (ExchangeBalance.inUnit k) }

lemma inUnit_inUnit (k : ℚ) (s : PaperExecutor) : InUnit k s (s.inUnit k) := ⟨rfl, rfl, rfl, rfl, rfl⟩

/-- The same answer in both units, and the states after it. -/
structure Answers (k : ℚ) (p p' : TradeResult × PaperExecutor) : Prop where
  answer : p'.1 = p.1.inUnit k
  state : InUnit k p.2 p'.2

/-- A call raises in both units, or it returns in both, with the same answer. -/
inductive SameInUnit (k : ℚ) : Except PyError (TradeResult × PaperExecutor) →
    Except PyError (TradeResult × PaperExecutor) → Prop where
  | raised {e} : SameInUnit k (.error e) (.error e)
  | returned {p p'} (same : Answers k p p') : SameInUnit k (.ok p) (.ok p')

/-- The same branch is taken in both units. -/
lemma ite_inUnit {α : Type} {R : α → α → Prop} {p q : Prop} [Decidable p] [Decidable q] {x y x' y' : α}
    (h : q ↔ p) (hx : R x x') (hy : R y y') : R (if p then x else y) (if q then x' else y') := by
  rw [if_congr h rfl rfl]
  split
  case isTrue => exact hx
  case isFalse => exact hy

variable {k : ℚ} {cfg : BotConfig} {s s' : PaperExecutor}

/-! ## The start -/

lemma initBalances_inUnit (k : ℚ) (cfg : BotConfig) :
    initBalances (cfg.inUnit k) =
      (initBalances cfg).map (OrdDict.mapVal (ExchangeBalance.inUnit k)) := by
  have account : ∀ (balances : OrdDict String ExchangeBalance) (ex : String),
      (do
        let baseInventory ← initInventory cfg
        return (balances.mapVal (ExchangeBalance.inUnit k)).set ex
          { quoteFree := k * cfg.capitalPerExchangeUsdt, baseFree := baseInventory }) =
        (do
          let baseInventory ← initInventory cfg
          return balances.set ex
            { quoteFree := cfg.capitalPerExchangeUsdt, baseFree := baseInventory } :
          Except PyError (OrdDict String ExchangeBalance)).map
          (OrdDict.mapVal (ExchangeBalance.inUnit k)) := fun balances ex => by
    cases initInventory cfg with
    | error e => rfl
    | ok baseInventory =>
      exact congrArg Except.ok (OrdDict.set_mapVal (f := ExchangeBalance.inUnit k) balances ex
        ⟨cfg.capitalPerExchangeUsdt, baseInventory⟩)
  rw [initBalances, ← List.map_id (cfg.inUnit k).exchanges]
  exact Loop.foldlM_hom (g := OrdDict.mapVal (ExchangeBalance.inUnit k)) (h := id)
    (fun balances ex _ => account balances ex) .empty

/-- A fresh executor holds the configured capital, in either unit. -/
lemma init_map_inUnit (k : ℚ) (cfg : BotConfig) : init (cfg.inUnit k) = (init cfg).map (inUnit k) := by
  rw [init, init, initBalances_inUnit]
  cases initBalances cfg with
  | error e => rfl
  | ok balances =>
    refine congrArg Except.ok ?_
    rw [inUnit, RiskState.inUnit, mul_zero]

lemma init_inUnit (k : ℚ) (e : init cfg = .ok s) :
    ∃ s', init (cfg.inUnit k) = .ok s' ∧ InUnit k s s' := by
  refine ⟨s.inUnit k, ?_, inUnit_inUnit k s⟩
  rw [init_map_inUnit, e]
  rfl

/-! ## Failures and trades -/

lemma countFailure_inUnit (k : ℚ) (cfg : BotConfig) (risk : RiskState) :
    countFailure (cfg.inUnit k) (risk.inUnit k) = (countFailure cfg risk).inUnit k := by
  unfold countFailure
  dsimp only
  rw [apply_ite (RiskState.inUnit k)]
  rfl

lemma registerFailure_inUnit (cfg : BotConfig) (state : InUnit k s s') (reason : Reason)
    (opp : Opportunity) :
    Answers k (registerFailure cfg s reason opp)
      (registerFailure (cfg.inUnit k) s' reason (opp.inUnit k)) where
  answer := by
    rw [registerFailure, registerFailure, TradeResult.inUnit, mul_zero]
    rfl
  state := {
    risk := (congrArg (countFailure (cfg.inUnit k)) state.risk).trans (countFailure_inUnit k cfg _)
    balances := state.balances
    lastTradeAt := state.lastTradeAt
    lastRebalanceAt := state.lastRebalanceAt
    lastOrderPayload := state.lastOrderPayload }

lemma maxLoss_inUnit (k : ℚ) (cfg : BotConfig) : maxLoss (cfg.inUnit k) = k * maxLoss cfg := by
  show cfg.maxDailyDrawdownPct / 100 * (k * cfg.capitalPerExchangeUsdt * cfg.exchanges.length) =
    k * (cfg.maxDailyDrawdownPct / 100 * (cfg.capitalPerExchangeUsdt * cfg.exchanges.length))
  ring

lemma evaluateDrawdownGuard_inUnit (pos : 0 < k) (cfg : BotConfig) (risk : RiskState) :
    evaluateDrawdownGuard (cfg.inUnit k) (risk.inUnit k) =
      (evaluateDrawdownGuard cfg risk).inUnit k := by
  have limit : (risk.inUnit k).realizedPnlUsdt ≤ -maxLoss (cfg.inUnit k) ↔
      risk.realizedPnlUsdt ≤ -maxLoss cfg := by
    show k * _ ≤ _ ↔ _
    rw [maxLoss_inUnit, ← mul_neg, mul_le_mul_iff_right₀ pos]
  unfold evaluateDrawdownGuard
  rw [apply_ite (RiskState.inUnit k)]
  exact if_congr limit rfl rfl

lemma addQuote_inUnit (k : ℚ) (balances : OrdDict String ExchangeBalance) (ex : String) (x : ℚ) :
    addQuote (balances.mapVal (ExchangeBalance.inUnit k)) ex (k * x) =
      (addQuote balances ex x).mapVal (ExchangeBalance.inUnit k) :=
  OrdDict.modify_mapVal _ _ fun bal => by
    rw [ExchangeBalance.inUnit, ExchangeBalance.inUnit, mul_add]

lemma addBase_inUnit (k : ℚ) (balances : OrdDict String ExchangeBalance) (ex base : String) (x : ℚ) :
    addBase (balances.mapVal (ExchangeBalance.inUnit k)) ex base x =
      (addBase balances ex base x).mapVal (ExchangeBalance.inUnit k) :=
  OrdDict.modify_mapVal _ _ fun _ => rfl

lemma finalizeExecution_inUnit (pos : 0 < k) (state : InUnit k s s') (opp : Opportunity) (nowTs : ℚ)
    (base : String) (spent received pnl : ℚ) (reasonOk dryReason : Reason)
    {payload payload' : OrderPayload} (same : payload'.unpriced = payload.unpriced) :
    Answers k (finalizeExecution cfg s opp nowTs base spent received pnl reasonOk dryReason payload)
      (finalizeExecution (cfg.inUnit k) s' (opp.inUnit k) nowTs base (k * spent) (k * received)
        (k * pnl) reasonOk dryReason payload') := by
  have route : routeKey (opp.inUnit k) = routeKey opp := rfl
  have count : countSuccess s'.risk = (countSuccess s.risk).inUnit k := by
    rw [state.risk]
    rfl
  have trades : s'.lastTradeAt.set (routeKey (opp.inUnit k)) nowTs =
      s.lastTradeAt.set (routeKey opp) nowTs := by
    rw [state.lastTradeAt, route]
  refine ite_inUnit (R := Answers k) Iff.rfl ⟨rfl, ?_⟩ ⟨rfl, ?_⟩
  · exact {
      risk := count
      balances := state.balances
      lastTradeAt := trades
      lastRebalanceAt := state.lastRebalanceAt
      lastOrderPayload := congrArg some same }
  · refine {
      risk := ?_
      balances := ?_
      lastTradeAt := trades
      lastRebalanceAt := state.lastRebalanceAt
      lastOrderPayload := congrArg some same }
    · show evaluateDrawdownGuard _ (countSuccess { s'.risk with
        realizedPnlUsdt := s'.risk.realizedPnlUsdt + k * pnl }) = _
      rw [← evaluateDrawdownGuard_inUnit pos, state.risk]
      refine congrArg _ ?_
      simp only [countSuccess, RiskState.inUnit, mul_add]
    · show addQuote (addBase (addBase (addQuote s'.balances opp.buyExchange (-(k * spent)))
        opp.buyExchange base opp.quantity) opp.sellExchange base (-opp.quantity)) opp.sellExchange
        (k * received) = _
      rw [state.balances, ← mul_neg, addQuote_inUnit, addBase_inUnit, addBase_inUnit, addQuote_inUnit]

/-! ## The calls -/

/-- The cancel-requote loop looks at no money. -/
lemma makerAttempts_inUnit (k : ℚ) (cfg : BotConfig) (opp : Opportunity) (n : ℕ) (p : ℚ) (r : ℕ) :
    makerAttempts (cfg.inUnit k) (opp.inUnit k) n p r = makerAttempts cfg opp n p r := by
  induction n generalizing p r with
  | zero => rfl
  | succ n ih =>
    have step : boost (cfg.inUnit k) p = boost cfg p := rfl
    rw [makerAttempts, makerAttempts, ih, step]
    rfl

lemma makerLoop_inUnit (k : ℚ) (cfg : BotConfig) (opp : Opportunity) :
    makerLoop (cfg.inUnit k) (opp.inUnit k) = makerLoop cfg opp :=
  makerAttempts_inUnit ..

lemma quoteSpent_inUnit (k : ℚ) (opp : Opportunity) (fee : ℚ) :
    quoteSpent (opp.inUnit k) fee = k * quoteSpent opp fee := by
  show opp.quantity * (k * opp.buyPrice) * (1 + fee) = k * (opp.quantity * opp.buyPrice * (1 + fee))
  ring

lemma quoteReceived_inUnit (k : ℚ) (opp : Opportunity) (fee : ℚ) :
    quoteReceived (opp.inUnit k) fee = k * quoteReceived opp fee := by
  show opp.quantity * (k * opp.sellPrice) * (1 - fee) = k * (opp.quantity * opp.sellPrice * (1 - fee))
  ring

lemma requotePenalty_inUnit (k : ℚ) (cfg : BotConfig) (opp : Opportunity) (n : ℕ) :
    requotePenalty (cfg.inUnit k) (opp.inUnit k) n = k * requotePenalty cfg opp n := by
  show opp.quantity * (k * opp.buyPrice) * (cfg.makerRequoteStepBps / 10000) * n =
    k * (opp.quantity * opp.buyPrice * (cfg.makerRequoteStepBps / 10000) * n)
  ring

lemma executeMakerTaker_inUnit (pos : 0 < k) (state : InUnit k s s') (opp : Opportunity) (nowTs : ℚ)
    (base : String) :
    Answers k (executeMakerTaker cfg s opp nowTs base)
      (executeMakerTaker (cfg.inUnit k) s' (opp.inUnit k) nowTs base) := by
  -- the state in which the loop leaves the executor, with any number of timeouts
  have looped : ∀ timeouts (payload payload' : Option OrderPayload),
      payload'.map OrderPayload.unpriced = payload.map OrderPayload.unpriced → InUnit k
      { s with
        risk := { s.risk with
          makerRequotes := s.risk.makerRequotes + (makerLoop cfg opp).requotes
          makerTimeouts := s.risk.makerTimeouts + timeouts }
        lastOrderPayload := payload }
      { s' with
        risk := { s'.risk with
          makerRequotes := s'.risk.makerRequotes + (makerLoop cfg opp).requotes
          makerTimeouts := s'.risk.makerTimeouts + timeouts }
        lastOrderPayload := payload' } := fun timeouts payload payload' same =>
    { risk := by
        rw [state.risk]
        rfl
      balances := state.balances
      lastTradeAt := state.lastTradeAt
      lastRebalanceAt := state.lastRebalanceAt
      lastOrderPayload := same }
  unfold executeMakerTaker
  rw [makerLoop_inUnit]
  dsimp only
  rw [quoteSpent_inUnit, quoteReceived_inUnit, requotePenalty_inUnit, ← mul_sub, ← mul_sub]
  refine ite_inUnit (R := Answers k) Iff.rfl (registerFailure_inUnit cfg (looped 1 _ _ (by rfl)) _ _) ?_
  refine ite_inUnit (R := Answers k) (and_congr (nonpos_inUnit pos) Iff.rfl)
    (registerFailure_inUnit cfg (looped 0 _ _ state.lastOrderPayload) _ _) ?_
  exact finalizeExecution_inUnit pos (looped 0 _ _ state.lastOrderPayload) _ _ _ _ _ _ _ _ rfl

/-- Execution in another unit of money. -/
lemma execute_inUnit (cfg : BotConfig) (pos : 0 < k) (state : InUnit k s s') (nowTs : ℚ)
    (opp : Opportunity) :
    SameInUnit k (execute cfg s nowTs opp) (execute (cfg.inUnit k) s' nowTs (opp.inUnit k)) := by
  have blocked : s'.risk.blocked = s.risk.blocked := by
    rw [state.risk]
    rfl
  have reason : s'.risk.blockedReason = s.risk.blockedReason := by
    rw [state.risk]
    rfl
  have hot : cooldownActive (cfg.inUnit k) s' (opp.inUnit k) nowTs ↔ cooldownActive cfg s opp nowTs := by
    rw [cooldownActive, state.lastTradeAt]
    exact Iff.rfl
  have refused := fun reason => SameInUnit.returned (registerFailure_inUnit cfg state reason opp)
  unfold execute
  rw [blocked, reason]
  refine ite_inUnit (R := SameInUnit k) Iff.rfl (refused _) (ite_inUnit hot (refused _) ?_)
  rw [show (opp.inUnit k).symbol = opp.symbol from rfl,
    show (opp.inUnit k).buyExchange = opp.buyExchange from rfl,
    show (opp.inUnit k).sellExchange = opp.sellExchange from rfl, state.balances,
    OrdDict.get?_mapVal, OrdDict.get?_mapVal]
  cases splitSymbol opp.symbol with
  | error => exact .raised
  | ok p =>
    cases s.balances.get? opp.buyExchange with
    | none => exact refused _
    | some buyBal =>
      cases s.balances.get? opp.sellExchange with
      | none => exact refused _
      | some sellBal =>
        have short : (buyBal.inUnit k).quoteFree < opp.quantity * (opp.inUnit k).buyPrice ↔
            buyBal.quoteFree < opp.quantity * opp.buyPrice := by
          show k * _ < _ * (k * _) ↔ _
          rw [mul_left_comm, mul_lt_mul_iff_right₀ pos]
        refine ite_inUnit (R := SameInUnit k) short (refused _)
          (ite_inUnit Iff.rfl (refused _) (ite_inUnit Iff.rfl ?_ ?_))
        · exact .returned (executeMakerTaker_inUnit pos state ..)
        · dsimp only
          rw [quoteSpent_inUnit, quoteReceived_inUnit, ← mul_sub]
          exact .returned (finalizeExecution_inUnit pos state _ _ _ _ _ _ _ _ rfl)

/-- A rebalance moves no money. -/
lemma rebalance_inUnit (cfg : BotConfig) (state : InUnit k s s') (nowTs : ℚ) (symbol : String) :
    (∃ e, rebalanceSymbolInventory cfg s nowTs symbol = .error e ∧
      rebalanceSymbolInventory (cfg.inUnit k) s' nowTs symbol = .error e) ∨
    ∃ message t t', rebalanceSymbolInventory cfg s nowTs symbol = .ok (message, t) ∧
      rebalanceSymbolInventory (cfg.inUnit k) s' nowTs symbol = .ok (message, t') ∧ InUnit k t t' := by
  have recent : rebalancedRecently (cfg.inUnit k) s' symbol nowTs =
      rebalancedRecently cfg s symbol nowTs := by
    rw [rebalancedRecently, state.lastRebalanceAt]
    rfl
  have holdings : ∀ base, baseByExchange (cfg.inUnit k) s' base = baseByExchange cfg s base := by
    intro base
    refine List.foldl_ext _ _ _ fun d ex _ => ?_
    rw [state.balances, OrdDict.get?_mapVal]
    cases s.balances.get? ex with
    | none => rfl
    | some bal => rfl
  unfold rebalanceSymbolInventory
  rw [recent]
  cases rebalancedRecently cfg s symbol nowTs with
  | true => exact .inr ⟨none, s, s', rfl, rfl, state⟩
  | false =>
    cases splitSymbol symbol with
    | error e => exact .inl ⟨e, rfl, rfl⟩
    | ok p =>
      have plan : planTransfer (cfg.inUnit k) symbol (baseByExchange (cfg.inUnit k) s' p.1) =
          planTransfer cfg symbol (baseByExchange cfg s p.1) := by
        rw [holdings]
        rfl
      simp only [Bool.false_eq_true, if_false, plan]
      cases planTransfer cfg symbol (baseByExchange cfg s p.1) with
      | none => exact .inr ⟨none, s, s', rfl, rfl, state⟩
      | some message =>
        refine .inr ⟨some message, _, _, rfl, rfl, ?_⟩
        exact {
          risk := state.risk
          balances := by rw [state.balances, addBase_inUnit, addBase_inUnit]
          lastTradeAt := state.lastTradeAt
          lastRebalanceAt := by rw [state.lastRebalanceAt]
          lastOrderPayload := state.lastOrderPayload }

end PaperExecutor

end ArbBot
