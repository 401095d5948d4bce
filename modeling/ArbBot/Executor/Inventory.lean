import ArbBot.Executor.Ledger

/-!
# Base inventory

Trades move base inventory between exchanges and rebalances lose their fee on the way.
`inventory_conserved` is the account of a whole run: no exchange's inventory of any base asset goes
below zero, and the total of a base asset has shrunk by the fees of the rebalances of that asset and
by nothing else. `dry_run_frozen` is the frame result for dry-run mode: the rebalancer does not look
at the mode, but it never fires, because it finds the same inventory on every exchange as long as
nothing has been traded.
-/

namespace ArbBot.PaperExecutor

/-- What an event costs in base asset `c`: the fee `transfer_size * rebalance_fee_pct / 100` of a
rebalance that was performed on a symbol with base `c`. -/
def rebalanceFee (cfg : BotConfig) (c : String) : Event → ℚ
  | .rebalanced symbol (some m) =>
    match splitSymbol symbol with
    | .ok (base, _) => if c = base then m.gross * (cfg.rebalanceFeePct / 100) else 0
    | .error _ => 0
  | _ => 0

/-- The quantity of the opportunity of a call is positive. -/
def Op.PositiveQuantity : Op → Prop
  | .execute _ opp => 0 < opp.quantity
  | .rebalance _ _ => True

/-- No exchange holds a negative amount of any base asset. -/
def NoShortage (s : PaperExecutor) : Prop :=
  ∀ ex bal c q, s.balances.get? ex = some bal → bal.baseFree.get? c = some q → 0 ≤ q

lemma noShortage_of_books {s : PaperExecutor} (h : s.books.StockNonneg) : s.NoShortage := by
  intro ex bal c q hbal hq
  have hstock := h ex c
  simpa [books, booksOf, hbal, OrdDict.getD, hq] using hstock

/-- The holding that a planned transfer takes from is the stock of its source. -/
lemma planned_stock {cfg s symbol base m vs vt}
    (plan : Planned cfg symbol (baseByExchange cfg s base) m vs vt) :
    s.books.stock m.source base = vs ∧ s.books.stock m.target base = vt := by
  have hread : ∀ {ex v}, (baseByExchange cfg s base).get? ex = some v →
      s.books.stock ex base = v := by
    intro ex v h
    rw [get?_baseByExchange] at h
    split at h
    · obtain ⟨bal, hbal, hv⟩ := Option.map_eq_some_iff.1 h
      simpa [books, booksOf, hbal] using hv
    · cases h
  exact ⟨hread plan.source, hread plan.target⟩

/-- The move of a step finds what it takes in stock. -/
lemma Step.inStock {cfg s op ev s'} (st : Step cfg s op ev s') (pos : op.PositiveQuantity)
    (nn : s.books.StockNonneg) : ∀ m ∈ moveOf cfg ev, s.books.InStock m := by
  intro m hm
  cases st with
  | executeRaised => cases hm
  | rebalanceRaised => cases hm
  | idle => cases hm
  | called call =>
    cases call with
    | refused => cases hm
    | rehearsed dry => simp [moveOf, dry] at hm
    | @booked base k _ _ live adm _ =>
      obtain ⟨_, split⟩ := adm.split
      obtain ⟨bal, hbal, hle⟩ := adm.canSell
      simp only [moveOf, tradeResult, live, split, ne_eq, not_false_eq_true, and_self, if_true,
        Option.mem_def, Option.some.injEq] at hm
      subst hm
      refine ⟨le_of_lt pos, ?_⟩
      simpa [PaperExecutor.books, booksOf, hbal] using hle
  | shipped split plan =>
    obtain ⟨vs, vt, plan⟩ := planTransfer_planned plan
    obtain ⟨hvs, hvt⟩ := planned_stock plan
    simp only [moveOf, split, Option.mem_def, Option.some.injEq] at hm
    subst hm
    refine ⟨?_, plan.net_pos.le⟩
    -- the source gives what it holds above the average, and the average is above the target
    have hgross := plan.gross_eq.le.trans (min_le_left _ _)
    have htarget := plan.threshold_pos.trans_le plan.target_under
    have hvt_nonneg := nn _ _ |>.trans_eq hvt
    rw [hvs]
    linarith

/-- A step keeps all inventories non-negative. -/
lemma Step.stockNonneg {cfg s op ev s'} (st : Step cfg s op ev s') (pos : op.PositiveQuantity)
    (nn : s.books.StockNonneg) : s'.books.StockNonneg := by
  rw [st.books.books]
  cases h : moveOf cfg ev with
  | none => exact nn
  | some m => exact Books.stock_nonneg_apply nn (st.inStock pos nn m h)

/-- A fresh executor holds no negative amount, when the position cap is not negative. -/
lemma Fresh.stockNonneg {cfg s} (fresh : Fresh cfg s)
    (cap : 0 ≤ cfg.maxPositionPerSymbol) : s.books.StockNonneg := by
  intro ex c
  show 0 ≤ (s.balances.get? ex).elim 0 (·.baseFree.getD c 0)
  cases hbal : s.balances.get? ex with
  | none => exact le_rfl
  | some bal =>
    show 0 ≤ (bal.baseFree.get? c).getD 0
    cases hq : bal.baseFree.get? c with
    | none => exact le_rfl
    | some q =>
      rw [initInventory_get? (fresh.baseFree ex bal hbal) hq]
      exact mul_nonneg cap (by norm_num)

/-- A step loses the fee of its rebalance. -/
lemma Step.baseTotal {cfg s op ev s'} (st : Step cfg s op ev s') (c : String) :
    s'.baseTotal c = s.baseTotal c + -rebalanceFee cfg c ev := by
  rw [st.books.baseTotal c, sub_eq_add_neg]
  congr 2
  cases st with
  | executeRaised => rfl
  | rebalanceRaised => rfl
  | idle => rfl
  | called call =>
    simp only [moveOf, rebalanceFee]
    split
    · split <;> rfl
    · rfl
  | shipped split plan =>
    obtain ⟨_, _, plan⟩ := planTransfer_planned plan
    simp only [moveOf, split, Option.elim_some, Move.loss, rebalanceFee]
    rw [plan.net_eq, plan.fee_eq, sub_sub_cancel]

/-- Over a run from a fresh executor, no exchange's inventory of any base asset goes below zero, and
the total of a base asset shrinks by the fees of its rebalances. -/
theorem inventory_conserved {cfg s₀ ops} (hinit : init cfg = .ok s₀)
    (cap : 0 ≤ cfg.maxPositionPerSymbol) (pos : ∀ op ∈ ops, op.PositiveQuantity) :
    ((machine cfg).run s₀ ops).NoShortage ∧
    ∀ c, ((machine cfg).run s₀ ops).baseTotal c =
      s₀.baseTotal c - (((machine cfg).outs s₀ ops).map (rebalanceFee cfg c)).sum := by
  have al : (machine cfg).Along (fun _ op => op.PositiveQuantity) s₀ ops :=
    Machine.along_of_forall pos
  constructor
  · exact noShortage_of_books (Machine.inv_run (I := fun s : PaperExecutor => s.books.StockNonneg)
      ((init_fresh hinit).stockNonneg cap) (fun s op nn hpos => (next_step cfg s op).stockNonneg hpos nn) al)
  · intro c
    have hsum := Machine.run_sum (I := fun _ => True) (φ := fun s : PaperExecutor => s.baseTotal c)
      (δ := fun ev => -rebalanceFee cfg c ev) trivial
      (fun s op _ _ => ⟨trivial, (next_step cfg s op).baseTotal c⟩) al
    rw [hsum, sub_eq_add_neg, List.sum_neg, List.map_map]
    rfl

/-- A route at a price at which a small trade moves much. -/
def slightRoute : Opportunity :=
  { sampleRoute with
    executionStyle := .takerTaker
    buyPrice := 6000
    sellPrice := 6100
    quantity := 1 / 80 }

/-- Two trades that call for a rebalance. -/
def tradingRun : List Op := [.execute 0 slightRoute, .execute 9 slightRoute, .rebalance 10 "BTC/USDT"]

/-- Two trades and a rebalance of the default configuration keep the account. -/
theorem inventory_conserved_default :
    ∃ s₀, init defaultConfig = .ok s₀ ∧
      ((machine defaultConfig).run s₀ tradingRun).risk.tradesExecuted = 2 ∧
      0 < (((machine defaultConfig).outs s₀ tradingRun).map (rebalanceFee defaultConfig "BTC")).sum ∧
      ((machine defaultConfig).run s₀ tradingRun).NoShortage ∧
      ∀ c, ((machine defaultConfig).run s₀ tradingRun).baseTotal c = s₀.baseTotal c -
        (((machine defaultConfig).outs s₀ tradingRun).map (rebalanceFee defaultConfig c)).sum := by
  obtain ⟨s₀, hinit, h⟩ := Loop.exists_ok_of_any (x := init defaultConfig)
    (p := fun s₀ => ((machine defaultConfig).run s₀ tradingRun).risk.tradesExecuted = 2 ∧
      0 < (((machine defaultConfig).outs s₀ tradingRun).map (rebalanceFee defaultConfig "BTC")).sum)
    (by decide +kernel)
  obtain ⟨trades, fee⟩ := of_decide_eq_true h
  refine ⟨s₀, hinit, trades, fee, inventory_conserved hinit (by norm_num [defaultConfig]) ?_⟩
  intro op hop
  simp only [tradingRun, List.mem_cons, List.not_mem_nil, or_false] at hop
  rcases hop with rfl | rfl | rfl
  · norm_num [Op.PositiveQuantity, slightRoute]
  · norm_num [Op.PositiveQuantity, slightRoute]
  · trivial

/-! ## Dry-run -/

/-- No transfer is planned where every exchange has the same inventory. -/
lemma planTransfer_level {cfg s symbol base} {inventory : OrdDict String ℚ}
    (level : ∀ ex bal, s.balances.get? ex = some bal → bal.baseFree = inventory) :
    planTransfer cfg symbol (baseByExchange cfg s base) = none := by
  cases h : planTransfer cfg symbol (baseByExchange cfg s base) with
  | none => rfl
  | some m =>
    obtain ⟨vs, vt, plan⟩ := planTransfer_planned h
    have hread : ∀ {ex v}, (baseByExchange cfg s base).get? ex = some v →
        v = inventory.getD base 0 := by
      intro ex v h
      rw [get?_baseByExchange] at h
      split at h
      · obtain ⟨bal, hbal, hv⟩ := Option.map_eq_some_iff.1 h
        rw [← hv, level ex bal hbal]
      · cases h
    have hpos := plan.threshold_pos
    have hsource := plan.source_over
    have htarget := plan.target_under
    rw [hread plan.source] at hsource
    rw [hread plan.target] at htarget
    linarith

/-- In dry-run mode a step from a level inventory changes neither the balances nor the PnL. -/
lemma Step.dry_run {cfg s op ev s'} (st : Step cfg s op ev s') (dry : cfg.mode = .dryRun)
    {inventory : OrdDict String ℚ}
    (level : ∀ ex bal, s.balances.get? ex = some bal → bal.baseFree = inventory) :
    s'.balances = s.balances ∧ s'.risk.realizedPnlUsdt = s.risk.realizedPnlUsdt := by
  cases st with
  | executeRaised => exact ⟨rfl, rfl⟩
  | rebalanceRaised => exact ⟨rfl, rfl⟩
  | idle => exact ⟨rfl, rfl⟩
  | called call =>
    cases call with
    | refused => exact ⟨rfl, by simp⟩
    | rehearsed => exact ⟨rfl, rfl⟩
    | booked live => exact absurd dry live
  | shipped _ plan => rw [planTransfer_level level] at plan; cases plan

/-- In dry-run mode the balances and the realized PnL never change. -/
theorem dry_run_frozen {cfg s₀ ops} (hinit : init cfg = .ok s₀) (dry : cfg.mode = .dryRun) :
    ((machine cfg).run s₀ ops).balances = s₀.balances ∧
    ((machine cfg).run s₀ ops).risk.realizedPnlUsdt = s₀.risk.realizedPnlUsdt := by
  have level : ∃ inventory : OrdDict String ℚ,
      ∀ ex bal, s₀.balances.get? ex = some bal → bal.baseFree = inventory := by
    cases hinv : initInventory cfg with
    | ok inventory =>
      refine ⟨inventory, fun ex bal h => ?_⟩
      have hbal := (init_fresh hinit).baseFree ex bal h
      rw [hinv] at hbal; exact (Except.ok.inj hbal).symm
    | error e =>
      refine ⟨.empty, fun ex bal h => ?_⟩
      have hbal := (init_fresh hinit).baseFree ex bal h
      rw [hinv] at hbal; cases hbal
  obtain ⟨inventory, level⟩ := level
  refine Machine.inv_run (P := fun _ _ => True)
    (I := fun s : PaperExecutor =>
      s.balances = s₀.balances ∧ s.risk.realizedPnlUsdt = s₀.risk.realizedPnlUsdt)
    ⟨rfl, rfl⟩ ?_ (Machine.along_of_forall fun _ _ => trivial)
  rintro s op ⟨hb, hp⟩ -
  obtain ⟨hb', hp'⟩ := (next_step cfg s op).dry_run dry (hb ▸ level)
  exact ⟨hb'.trans hb, hp'.trans hp⟩

/-- The default configuration in dry-run mode, on a trade and a rebalance. -/
theorem dry_run_frozen_default :
    ∃ s₀, init { defaultConfig with mode := .dryRun } = .ok s₀ ∧
      ((machine { defaultConfig with mode := .dryRun }).run s₀
        [.execute 0 sampleRoute, .rebalance 1 "BTC/USDT"]).balances = s₀.balances := by
  obtain ⟨s₀, hinit, _⟩ := Loop.exists_ok_of_any
    (x := init { defaultConfig with mode := .dryRun }) (p := fun _ => true) (by decide +kernel)
  exact ⟨s₀, hinit, (dry_run_frozen hinit rfl).1⟩

end ArbBot.PaperExecutor
