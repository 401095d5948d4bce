import ArbBot.Executor.Ledger

/-!
# Overdrafts

`execute` lets a trade through when the buy exchange holds its cost, and `_finalize_execution` then
debits the cost and the fee. `Step.cashNonneg` is the exact condition for one step from a state
without overdrafts, `overdraft_iff` the consequence for runs: no exchange is overdrawn in any state
of a run exactly when every accepted call of the run finds the cost with the fee on its buy exchange.
-/

namespace ArbBot.PaperExecutor

/-- The opportunity of a call is as the scanner emits it: positive quantity and prices, two different
exchanges, and, where the executor reads them, fees in `[0, 100)` percent. -/
def Op.Emittable : Op → Prop
  | .execute nowTs opp => Op.Positive (.execute nowTs opp) ∧ opp.buyExchange ≠ opp.sellExchange ∧
      (opp.executionStyle = .makerTaker →
        (0 ≤ opp.buyFeePct ∧ opp.buyFeePct < 100) ∧ 0 ≤ opp.sellFeePct ∧ opp.sellFeePct < 100)
  | .rebalance _ _ => True

/-- An accepted call finds the cost of its trade, with the fee, on the buy exchange. -/
def CanPay (cfg : BotConfig) (s : PaperExecutor) : Op → Prop
  | .execute nowTs opp => Accepts cfg s nowTs opp →
      ∀ bal, s.balances.get? opp.buyExchange = some bal →
        opp.quantity * opp.buyPrice * (1 + buyFee cfg opp) ≤ bal.quoteFree
  | .rebalance _ _ => True

/-- No exchange is overdrawn in quote currency. -/
def NoOverdraft (s : PaperExecutor) : Prop :=
  ∀ ex bal, s.balances.get? ex = some bal → 0 ≤ bal.quoteFree

lemma noOverdraft_iff (s : PaperExecutor) : s.NoOverdraft ↔ s.books.CashNonneg := by
  constructor
  · intro h ex
    cases hbal : s.balances.get? ex with
    | none => simp [books, booksOf, hbal]
    | some bal => simpa [books, booksOf, hbal] using h ex bal hbal
  · intro h ex bal hbal
    simpa [books, booksOf, hbal] using h ex

/-- A fee from a dictionary of fees below one, or its default, is below one. -/
lemma takerFee_lt_one {cfg : BotConfig} (fees : ∀ f ∈ cfg.feesTaker.values, 0 ≤ f ∧ f < 1)
    (ex : String) : takerFee cfg ex < 1 := by
  unfold takerFee OrdDict.getD
  cases h : cfg.feesTaker.get? ex with
  | none => norm_num
  | some f => exact (fees f (List.mem_map.2 ⟨_, OrdDict.mem_of_get? h, rfl⟩)).2

lemma receivedFor_nonneg {cfg : BotConfig} (fees : ∀ f ∈ cfg.feesTaker.values, 0 ≤ f ∧ f < 1)
    {nowTs : ℚ} {opp : Opportunity} (emit : Op.Emittable (.execute nowTs opp)) :
    0 ≤ receivedFor cfg opp := by
  obtain ⟨⟨hq, _, hp⟩, _, hpct⟩ := emit
  have hfee : sellFee cfg opp ≤ 1 := by
    unfold sellFee
    split
    case isTrue style => have := (hpct style).2.2; linarith
    case isFalse => exact (takerFee_lt_one fees opp.sellExchange).le
  exact mul_nonneg (mul_pos hq hp).le (sub_nonneg.2 hfee)

/-- A step from a state without overdrafts leads to one exactly when an accepted call can pay. -/
lemma Step.cashNonneg {cfg s op ev s'} (st : Step cfg s op ev s') (paper : cfg.mode = .paper)
    (fees : ∀ f ∈ cfg.feesTaker.values, 0 ≤ f ∧ f < 1) (emit : op.Emittable)
    (hs : s.NoOverdraft) : s'.NoOverdraft ↔ CanPay cfg s op := by
  rw [noOverdraft_iff] at hs ⊢
  rw [st.books.books]
  cases st with
  | executeRaised rej => exact iff_of_true hs fun acc => absurd acc rej
  | rebalanceRaised => exact iff_of_true hs trivial
  | idle => exact iff_of_true hs trivial
  | shipped split _ =>
    simp only [moveOf, split]
    exact iff_of_true hs trivial
  | @called _ opp _ _ call =>
    cases call with
    | refused rej => exact iff_of_true hs fun acc => absurd acc rej
    | rehearsed dry => rw [paper] at dry; cases dry
    | @booked base k _ _ live adm fill =>
      obtain ⟨_, split⟩ := adm.split
      obtain ⟨bal, hbal, _⟩ := adm.canBuy
      have hcash : s.books.cash opp.buyExchange = bal.quoteFree := by
        simp [PaperExecutor.books, booksOf, hbal]
      simp only [moveOf, tradeResult, live, split, ne_eq, not_false_eq_true, and_self, if_true,
        Option.elim_some]
      rw [Books.cash_nonneg_trade_iff hs emit.2.1 (receivedFor_nonneg fees emit), hcash]
      constructor
      · intro h _ bal' hbal'
        rw [hbal] at hbal'; cases hbal'; exact h
      · intro h
        exact h ⟨base, k, adm, fill⟩ bal hbal

/-- In paper mode, with fees below one and calls as the scanner emits them, no exchange is overdrawn
in any state of a run from a fresh executor exactly when every accepted call can pay. -/
theorem overdraft_iff {cfg s₀ ops} (hinit : init cfg = .ok s₀) (paper : cfg.mode = .paper)
    (capital : 0 ≤ cfg.capitalPerExchangeUsdt)
    (fees : ∀ f ∈ cfg.feesTaker.values, 0 ≤ f ∧ f < 1) (emit : ∀ op ∈ ops, op.Emittable) :
    (∀ pre, pre <+: ops → ((machine cfg).run s₀ pre).NoOverdraft) ↔
    (machine cfg).Along (CanPay cfg) s₀ ops := by
  have h0 : s₀.NoOverdraft := fun ex bal h =>
    (init_fresh hinit).quoteFree ex bal h ▸ capital
  refine Machine.forall_prefix_iff_along (I := fun _ => True) trivial h0
    (fun _ _ _ _ => trivial) ?_ (Machine.along_of_forall emit)
  intro s op _ hemit hs
  exact (next_step cfg s op).cashNonneg paper fees hemit hs

/-- The default configuration with 150 USDT on each exchange. -/
def tightConfig : BotConfig := { defaultConfig with capitalPerExchangeUsdt := 150 }

/-- A taker-taker route over the whole capital of `tightConfig`. -/
def fullRoute : Opportunity :=
  { sampleRoute with executionStyle := .takerTaker, quantity := 1 / 400 }

lemma fullRoute_emittable (nowTs : ℚ) : Op.Emittable (.execute nowTs fullRoute) :=
  ⟨by norm_num [Op.Positive, fullRoute, sampleRoute], by decide, nofun⟩

/-- A smaller trade than the capital leaves no overdraft. -/
theorem no_overdraft_small :
    ∃ s₀, init defaultConfig = .ok s₀ ∧
      ∀ pre, pre <+: [Op.execute 0 fullRoute] →
        ((machine defaultConfig).run s₀ pre).NoOverdraft := by
  obtain ⟨s₀, hinit⟩ := init_default
  refine ⟨s₀, hinit, (overdraft_iff hinit rfl ?_ ?_ ?_).2 ?_⟩
  · norm_num [defaultConfig]
  · intro f hf
    simp only [defaultConfig, OrdDict.values, List.map_cons, List.map_nil, List.mem_cons,
      List.not_mem_nil, or_false, or_self] at hf
    rw [hf]; norm_num
  · intro op hop
    rw [List.mem_singleton.1 hop]
    exact fullRoute_emittable 0
  · refine ⟨fun _ bal h => ?_, trivial⟩
    rw [(init_fresh hinit).quoteFree _ bal h]
    decide +kernel

/-- With 150 USDT on each exchange, a taker-taker trade that costs 150 USDT passes the check and
leaves the buy exchange at -0.15 USDT. -/
theorem overdraft_of_fee :
    ∃ s₀, init tightConfig = .ok s₀ ∧ tightConfig.mode = .paper ∧
      Op.Emittable (.execute 0 fullRoute) ∧
      ((machine tightConfig).run s₀ [.execute 0 fullRoute]).books.cash "binance" = -15 / 100 ∧
      ¬((machine tightConfig).run s₀ [.execute 0 fullRoute]).NoOverdraft := by
  obtain ⟨s₀, hinit, h⟩ := Loop.exists_ok_of_any (x := init tightConfig)
    (p := fun s₀ => ((machine tightConfig).run s₀ [.execute 0 fullRoute]).books.cash "binance"
      = -15 / 100) (by decide +kernel)
  have hcash := of_decide_eq_true h
  refine ⟨s₀, hinit, rfl, fullRoute_emittable 0, hcash, fun hno => ?_⟩
  have hneg := (noOverdraft_iff _).1 hno "binance"
  rw [hcash] at hneg
  norm_num at hneg

end ArbBot.PaperExecutor
