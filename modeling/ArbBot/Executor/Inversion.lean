import ArbBot.Executor.Rebalance
import ArbBot.Lib.Machine

/-!
# Inversion of the executor's calls

What one call can do, said once. `Call` has one case for each way in which `execute` returns: the
call is refused, it is rehearsed (dry-run), or it is booked. `execute_call` is the inversion of
`execute`. `Step` adds the calls of `rebalance_symbol_inventory` and the calls that raise, and
`machine` is the executor as a machine whose inputs are calls with their clock readings and whose
outputs are events; `next_step` is its inversion. Every invariant of the executor is proved by
cases on `Call` or `Step`.

`Accepts` is the condition, on the state before the call and its arguments, under which `execute`
succeeds. It is `Admitted`, the checks in `execute` itself, and `FillsAfter`, which depends on the
configuration and the opportunity alone.
-/

namespace ArbBot.PaperExecutor

/-! ## When a call succeeds -/

/-- The buy fee that the executor charges, as a fraction. -/
def buyFee (cfg : BotConfig) (opp : Opportunity) : ℚ :=
  if opp.executionStyle = .makerTaker then opp.buyFeePct / 100 else takerFee cfg opp.buyExchange

/-- The sell fee that the executor charges, as a fraction. -/
def sellFee (cfg : BotConfig) (opp : Opportunity) : ℚ :=
  if opp.executionStyle = .makerTaker then opp.sellFeePct / 100 else takerFee cfg opp.sellExchange

/-- The quote currency that a trade takes from the buy exchange. -/
def spentOn (cfg : BotConfig) (opp : Opportunity) : ℚ := quoteSpent opp (buyFee cfg opp)

/-- The quote currency that a trade brings to the sell exchange. -/
def receivedFor (cfg : BotConfig) (opp : Opportunity) : ℚ := quoteReceived opp (sellFee cfg opp)

/-- The PnL of a trade whose maker leg, if it has one, was requoted `k` times. -/
def pnlAfter (cfg : BotConfig) (opp : Opportunity) (k : ℕ) : ℚ :=
  receivedFor cfg opp - spentOn cfg opp - requotePenalty cfg opp k

/-- The order fills after `k` requotes and is not rejected for its PnL. -/
inductive FillsAfter (cfg : BotConfig) (opp : Opportunity) : ℕ → Prop where
  | taker (style : opp.executionStyle ≠ .makerTaker) : FillsAfter cfg opp 0
  | maker (style : opp.executionStyle = .makerTaker) (filled : (makerLoop cfg opp).filled = true)
      (worth : 0 < pnlAfter cfg opp (makerLoop cfg opp).requotes ∨
        cfg.mode = .dryRun ∧ cfg.allowNegativeExpectedProfitDryrun = true) :
      FillsAfter cfg opp (makerLoop cfg opp).requotes

/-- The checks that `execute` makes before it places the order. -/
structure Admitted (cfg : BotConfig) (s : PaperExecutor) (nowTs : ℚ) (opp : Opportunity)
    (base : String) : Prop where
  notBlocked : s.risk.blocked = false
  cooled : ¬cooldownActive cfg s opp nowTs
  split : ∃ quote, splitSymbol opp.symbol = .ok (base, quote)
  canBuy : ∃ bal, s.balances.get? opp.buyExchange = some bal ∧
    opp.quantity * opp.buyPrice ≤ bal.quoteFree
  canSell : ∃ bal, s.balances.get? opp.sellExchange = some bal ∧
    opp.quantity ≤ bal.baseFree.getD base 0

/-- `execute` succeeds. -/
def Accepts (cfg : BotConfig) (s : PaperExecutor) (nowTs : ℚ) (opp : Opportunity) : Prop :=
  ∃ base k, Admitted cfg s nowTs opp base ∧ FillsAfter cfg opp k

/-! ## The ways in which `execute` returns -/

/-- A trade result about `opp`. -/
def tradeResult (opp : Opportunity) (success : Bool) (reason : Reason) (pnl : ℚ) : TradeResult :=
  ⟨success, reason, opp.symbol, opp.buyExchange, opp.sellExchange, opp.quantity, pnl⟩

/-- The balances after a trade. -/
def settle (cfg : BotConfig) (balances : OrdDict String ExchangeBalance) (opp : Opportunity)
    (base : String) : OrdDict String ExchangeBalance :=
  addQuote (addBase (addBase (addQuote balances opp.buyExchange (-spentOn cfg opp))
    opp.buyExchange base opp.quantity) opp.sellExchange base (-opp.quantity))
    opp.sellExchange (receivedFor cfg opp)

/-- `execute` on `opp` in state `s` at `nowTs` returns a result and a next state. -/
inductive Call (cfg : BotConfig) (s : PaperExecutor) (nowTs : ℚ) (opp : Opportunity) :
    TradeResult → PaperExecutor → Prop where
  | refused {reason timeouts requotes payload} (rej : ¬Accepts cfg s nowTs opp) :
      Call cfg s nowTs opp (tradeResult opp false reason 0)
        { s with
          risk := countFailure cfg
            { s.risk with makerTimeouts := timeouts, makerRequotes := requotes }
          lastOrderPayload := payload }
  | rehearsed {base k reason payload} (dry : cfg.mode = .dryRun)
      (adm : Admitted cfg s nowTs opp base) (fill : FillsAfter cfg opp k) :
      Call cfg s nowTs opp (tradeResult opp true reason (pnlAfter cfg opp k))
        { s with
          risk := countSuccess { s.risk with makerRequotes := s.risk.makerRequotes + k }
          lastTradeAt := s.lastTradeAt.set (routeKey opp) nowTs
          lastOrderPayload := some payload }
  | booked {base k reason payload} (live : cfg.mode ≠ .dryRun)
      (adm : Admitted cfg s nowTs opp base) (fill : FillsAfter cfg opp k) :
      Call cfg s nowTs opp (tradeResult opp true reason (pnlAfter cfg opp k))
        { s with
          balances := settle cfg s.balances opp base
          risk := evaluateDrawdownGuard cfg (countSuccess { s.risk with
            makerRequotes := s.risk.makerRequotes + k
            realizedPnlUsdt := s.risk.realizedPnlUsdt + pnlAfter cfg opp k })
          lastTradeAt := s.lastTradeAt.set (routeKey opp) nowTs
          lastOrderPayload := some payload }

/-- `_finalize_execution` rehearses or books. -/
lemma finalizeExecution_call {cfg s nowTs opp base k reasonOk dryReason payload r s'}
    (adm : Admitted cfg s nowTs opp base) (fill : FillsAfter cfg opp k)
    (e : finalizeExecution cfg
        { s with risk := { s.risk with makerRequotes := s.risk.makerRequotes + k } } opp nowTs base
        (spentOn cfg opp) (receivedFor cfg opp) (pnlAfter cfg opp k) reasonOk dryReason payload
      = (r, s')) :
    Call cfg s nowTs opp r s' := by
  unfold finalizeExecution at e
  split at e
  case isTrue dry => cases e; exact .rehearsed dry adm fill
  case isFalse live => cases e; exact .booked live adm fill

/-- Inversion of `_execute_maker_taker` on an admitted opportunity. -/
lemma executeMakerTaker_call {cfg s nowTs opp base r s'}
    (adm : Admitted cfg s nowTs opp base) (style : opp.executionStyle = .makerTaker)
    (e : executeMakerTaker cfg s opp nowTs base = (r, s')) : Call cfg s nowTs opp r s' := by
  have hspent : quoteSpent opp (opp.buyFeePct / 100) = spentOn cfg opp := by
    simp [spentOn, buyFee, style]
  have hreceived : quoteReceived opp (opp.sellFeePct / 100) = receivedFor cfg opp := by
    simp [receivedFor, sellFee, style]
  simp only [executeMakerTaker, hspent, hreceived] at e
  split at e
  case isTrue unfilled =>
    -- the last quote is not good enough or too late
    cases e
    refine .refused ?_
    rintro ⟨_, _, _, fill⟩
    cases fill with
    | taker h => exact h style
    | maker _ filled _ => rw [unfilled] at filled; cases filled
  case isFalse filled =>
    split at e
    case isTrue eroded =>
      -- the requotes cost more than the trade is worth
      cases e
      refine .refused ?_
      rintro ⟨_, _, _, fill⟩
      cases fill with
      | taker h => exact h style
      | maker _ _ worth =>
        cases worth with
        | inl pos => exact absurd pos (not_lt.2 eroded.1)
        | inr dry => exact eroded.2 dry
    case isFalse worth =>
      have filled' : (makerLoop cfg opp).filled = true := by simpa using filled
      refine finalizeExecution_call adm (.maker style filled' ?_) e
      rcases not_and_or.1 worth with h | h
      · exact .inl (not_le.1 h)
      · exact .inr (not_not.1 h)

/-- A refusal in `execute` itself: one of its checks does not hold. -/
lemma registerFailure_call {cfg s nowTs opp reason r s'}
    (rej : ∀ base, ¬Admitted cfg s nowTs opp base)
    (e : registerFailure cfg s reason opp = (r, s')) : Call cfg s nowTs opp r s' := by
  cases e
  exact .refused fun ⟨base, _, adm, _⟩ => rej base adm

/-- Inversion of `execute`. -/
theorem execute_call {cfg s nowTs opp r s'}
    (e : execute cfg s nowTs opp = .ok (r, s')) : Call cfg s nowTs opp r s' := by
  unfold execute at e
  split at e
  case isTrue blocked =>
    refine registerFailure_call (fun base adm => ?_) (Except.ok.inj e)
    rw [adm.notBlocked] at blocked; cases blocked
  case isFalse notBlocked =>
    split at e
    case isTrue hot => exact registerFailure_call (fun base adm => adm.cooled hot) (Except.ok.inj e)
    case isFalse cooled =>
      split at e
      case h_1 => cases e
      case h_2 base quote split =>
        -- every admission from here on is for the base that the symbol splits into
        have hbase : ∀ base', Admitted cfg s nowTs opp base' → base' = base := by
          intro base' adm
          obtain ⟨quote', h⟩ := adm.split
          rw [split] at h; cases h; rfl
        split at e
        case h_1 buyBal sellBal hbuy hsell =>
          split at e
          case isTrue poor =>
            refine registerFailure_call (fun base' adm => ?_) (Except.ok.inj e)
            obtain ⟨bal, hbal, hle⟩ := adm.canBuy
            rw [hbuy] at hbal; cases hbal
            exact absurd poor (not_lt.2 hle)
          case isFalse afford =>
            split at e
            case isTrue short =>
              refine registerFailure_call (fun base' adm => ?_) (Except.ok.inj e)
              obtain ⟨bal, hbal, hle⟩ := adm.canSell
              rw [hsell] at hbal; cases hbal
              rw [hbase base' adm] at hle
              exact absurd short (not_lt.2 hle)
            case isFalse stocked =>
              have adm : Admitted cfg s nowTs opp base :=
                ⟨by simpa using notBlocked, cooled, ⟨quote, split⟩, ⟨buyBal, hbuy, not_lt.1 afford⟩,
                  ⟨sellBal, hsell, not_lt.1 stocked⟩⟩
              split at e
              case isTrue style => exact executeMakerTaker_call adm style (Except.ok.inj e)
              case isFalse style =>
                -- the taker-taker path is a trade after no requote
                have hpnl : receivedFor cfg opp - spentOn cfg opp = pnlAfter cfg opp 0 := by
                  simp [pnlAfter, requotePenalty]
                have hspent : quoteSpent opp (takerFee cfg opp.buyExchange) = spentOn cfg opp := by
                  simp [spentOn, buyFee, style]
                have hreceived : quoteReceived opp (takerFee cfg opp.sellExchange)
                    = receivedFor cfg opp := by
                  simp [receivedFor, sellFee, style]
                simp only [hspent, hreceived, hpnl] at e
                exact finalizeExecution_call adm (.taker style) (Except.ok.inj e)
        case h_2 missing =>
          -- one of the two exchanges has no account
          refine registerFailure_call (fun base' adm => ?_) (Except.ok.inj e)
          obtain ⟨buyBal, hbuy, _⟩ := adm.canBuy
          obtain ⟨sellBal, hsell, _⟩ := adm.canSell
          exact missing buyBal sellBal hbuy hsell

/-- A call succeeds exactly when it is accepted. -/
lemma Call.success_iff {cfg s nowTs opp r s'} (call : Call cfg s nowTs opp r s') :
    r.success = true ↔ Accepts cfg s nowTs opp := by
  cases call with
  | refused rej => exact ⟨nofun, fun acc => absurd acc rej⟩
  | rehearsed _ adm fill => exact ⟨fun _ => ⟨_, _, adm, fill⟩, fun _ => rfl⟩
  | booked _ adm fill => exact ⟨fun _ => ⟨_, _, adm, fill⟩, fun _ => rfl⟩

/-- A call on a `BASE/QUOTE` symbol returns. -/
lemma execute_ok_of_split {opp base quote} (cfg s nowTs)
    (split : splitSymbol opp.symbol = .ok (base, quote)) :
    ∃ r s', execute cfg s nowTs opp = .ok (r, s') := by
  unfold execute
  rw [split]
  split
  · exact ⟨_, _, rfl⟩
  · split
    · exact ⟨_, _, rfl⟩
    · cases s.balances.get? opp.buyExchange with
      | none => exact ⟨_, _, rfl⟩
      | some _ =>
        cases s.balances.get? opp.sellExchange with
        | none => exact ⟨_, _, rfl⟩
        | some _ => dsimp only; split_ifs <;> exact ⟨_, _, rfl⟩

/-- An accepted call returns and succeeds. -/
lemma execute_of_accepts {cfg s nowTs opp} (acc : Accepts cfg s nowTs opp) :
    ∃ r s', execute cfg s nowTs opp = .ok (r, s') ∧ r.success = true := by
  obtain ⟨base, k, adm, fill⟩ := acc
  obtain ⟨quote, split⟩ := adm.split
  obtain ⟨r, s', e⟩ := execute_ok_of_split cfg s nowTs split
  exact ⟨r, s', e, (execute_call e).success_iff.2 ⟨base, k, adm, fill⟩⟩

/-! ## Calls as the steps of a machine -/

/-- A call on the executor, with its clock reading. -/
inductive Op where
  | execute (nowTs : ℚ) (opp : Opportunity)
  | rebalance (nowTs : ℚ) (symbol : String)

/-- What a call answered. -/
inductive Event where
  | raised (e : PyError)
  | traded (opp : Opportunity) (r : TradeResult)
  | rebalanced (symbol : String) (message : Option RebalanceMessage)

/-- One call; a call that raises has written nothing. -/
def step (cfg : BotConfig) (s : PaperExecutor) : Op → PaperExecutor × Event
  | .execute nowTs opp =>
    match execute cfg s nowTs opp with
    | .ok (r, s') => (s', .traded opp r)
    | .error e => (s, .raised e)
  | .rebalance nowTs symbol =>
    match rebalanceSymbolInventory cfg s nowTs symbol with
    | .ok (message, s') => (s', .rebalanced symbol message)
    | .error e => (s, .raised e)

/-- The executor with a fixed configuration. -/
def machine (cfg : BotConfig) : Machine PaperExecutor Op Event := ⟨step cfg⟩

/-- A call in state `s` answers with an event and a next state. -/
inductive Step (cfg : BotConfig) (s : PaperExecutor) : Op → Event → PaperExecutor → Prop where
  | executeRaised {nowTs opp e} (rej : ¬Accepts cfg s nowTs opp) :
      Step cfg s (.execute nowTs opp) (.raised e) s
  | rebalanceRaised {nowTs symbol e} : Step cfg s (.rebalance nowTs symbol) (.raised e) s
  | called {nowTs opp r s'} (call : Call cfg s nowTs opp r s') :
      Step cfg s (.execute nowTs opp) (.traded opp r) s'
  | idle {nowTs symbol} : Step cfg s (.rebalance nowTs symbol) (.rebalanced symbol none) s
  | shipped {nowTs symbol base quote m} (split : splitSymbol symbol = .ok (base, quote))
      (plan : planTransfer cfg symbol (baseByExchange cfg s base) = some m) :
      Step cfg s (.rebalance nowTs symbol) (.rebalanced symbol (some m))
        { s with
          balances := addBase (addBase s.balances m.source base (-m.gross)) m.target base m.net
          lastRebalanceAt := s.lastRebalanceAt.set symbol nowTs }

/-- Inversion of one step of the machine. -/
theorem next_step (cfg : BotConfig) (s : PaperExecutor) (op : Op) :
    Step cfg s op ((machine cfg).out s op) ((machine cfg).next s op) := by
  cases op with
  | execute nowTs opp =>
    simp only [Machine.next, Machine.out, machine, step]
    cases e : execute cfg s nowTs opp with
    | error _ =>
      refine .executeRaised fun acc => ?_
      obtain ⟨r, s', e', _⟩ := execute_of_accepts acc
      rw [e'] at e; cases e
    | ok p => exact .called (execute_call e)
  | rebalance nowTs symbol =>
    simp only [Machine.next, Machine.out, machine, step, rebalanceSymbolInventory]
    cases rebalancedRecently cfg s symbol nowTs with
    | true => exact .idle
    | false =>
      cases split : splitSymbol symbol with
      | error _ => exact .rebalanceRaised
      | ok p =>
        cases plan : planTransfer cfg symbol (baseByExchange cfg s p.1) with
        | none => simp only [Bool.false_eq_true, if_false, plan]; exact .idle
        | some m => simp only [Bool.false_eq_true, if_false, plan]; exact .shipped split plan

end ArbBot.PaperExecutor
