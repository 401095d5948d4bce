import ArbBot.Executor.Inventory
import ArbBot.Lib.Counting
import ArbBot.Lib.Spacing
import Mathlib.Algebra.Order.BigOperators.Group.Finset

/-!
# What rebalancing may cost

The rebalances of a symbol are spaced by `rebalance_interval_sec`, and each one burns its fee. So there is
a limit to how much of an inventory they burn in a given time, whatever is traded in between.
`shipments` lists the rebalances of a run. `ShippedInv` is the invariant: the time stamps are those of
the last shipments, and the shipments of a symbol are spaced. A shipment leaves at least the fraction of
the inventory that the fee does not take (`Step.baseTotal_ge`), and `upkeep_bounded` counts them.
-/

namespace ArbBot.PaperExecutor

/-- A shipment, with the reading of the clock at which it is made. -/
def shipmentOf : Op × Event → Option (ℚ × RebalanceMessage)
  | (.rebalance nowTs _, .rebalanced _ (some m)) => some (nowTs, m)
  | _ => none

/-- The shipments of a run, in order. -/
def shipments (cfg : BotConfig) (s : PaperExecutor) (ops : List Op) : List (ℚ × RebalanceMessage) :=
  ((machine cfg).trace s ops).filterMap shipmentOf

/-- The shipments of one symbol. -/
def shipmentsOf (history : List (ℚ × RebalanceMessage)) (symbol : String) :
    List (ℚ × RebalanceMessage) :=
  history.filter fun h => h.2.symbol = symbol

lemma shipmentsOf_concat (history : List (ℚ × RebalanceMessage)) (h : ℚ × RebalanceMessage) (symbol) :
    shipmentsOf (history ++ [h]) symbol =
      if h.2.symbol = symbol then shipmentsOf history symbol ++ [h] else shipmentsOf history symbol := by
  rw [shipmentsOf, List.filter_append]
  by_cases same : h.2.symbol = symbol
  · rw [if_pos same, List.filter_cons_of_pos (by simpa using same), List.filter_nil]
    rfl
  · rw [if_neg same, List.filter_cons_of_neg (by simpa using same), List.filter_nil, List.append_nil]
    rfl

/-! ## The interval -/

/-- A step ships nothing and leaves the time stamps alone, or it ships, past the interval, and stamps its
symbol. -/
lemma next_shipped (cfg : BotConfig) (s : PaperExecutor) (op : Op) :
    (shipmentOf (op, (machine cfg).out s op) = none ∧
      ((machine cfg).next s op).lastRebalanceAt = s.lastRebalanceAt) ∨
    ∃ nowTs m, op = .rebalance nowTs m.symbol ∧
      shipmentOf (op, (machine cfg).out s op) = some (nowTs, m) ∧
      rebalancedRecently cfg s m.symbol nowTs = false ∧
      ((machine cfg).next s op).lastRebalanceAt = s.lastRebalanceAt.set m.symbol nowTs := by
  cases op with
  | execute nowTs opp =>
    have st := next_step cfg s (.execute nowTs opp)
    generalize (machine cfg).out s (.execute nowTs opp) = ev at *
    generalize (machine cfg).next s (.execute nowTs opp) = s' at *
    cases st with
    | executeRaised => exact .inl ⟨rfl, rfl⟩
    | called call => cases call <;> exact .inl ⟨rfl, rfl⟩
  | rebalance nowTs symbol =>
    simp only [Machine.next, Machine.out, machine, step, rebalanceSymbolInventory]
    cases recent : rebalancedRecently cfg s symbol nowTs with
    | true => exact .inl ⟨rfl, rfl⟩
    | false =>
      cases split : splitSymbol symbol with
      | error _ => exact .inl ⟨rfl, rfl⟩
      | ok p =>
        cases plan : planTransfer cfg symbol (baseByExchange cfg s p.1) with
        | none =>
          simp only [Bool.false_eq_true, if_false, plan]
          exact .inl ⟨rfl, trivial⟩
        | some m =>
          simp only [Bool.false_eq_true, if_false, plan]
          obtain ⟨_, _, planned⟩ := planTransfer_planned plan
          have same := planned.symbol_eq
          subst same
          exact .inr ⟨nowTs, m, rfl, rfl, recent, rfl⟩

/-- What the time stamps say after a run. -/
structure ShippedInv (cfg : BotConfig) (s : PaperExecutor) (history : List (ℚ × RebalanceMessage)) :
    Prop where
  stamp : ∀ symbol, s.lastRebalanceAt.get? symbol =
    (shipmentsOf history symbol).getLast?.map Prod.fst
  spaced : ∀ symbol, Spaced Prod.fst (cfg.rebalanceIntervalSec : ℚ) (shipmentsOf history symbol)

lemma ShippedInv.concat {cfg s history nowTs m s'} (inv : ShippedInv cfg s history)
    (interval : 0 ≤ cfg.rebalanceIntervalSec) (due : rebalancedRecently cfg s m.symbol nowTs = false)
    (stamped : s'.lastRebalanceAt = s.lastRebalanceAt.set m.symbol nowTs) :
    ShippedInv cfg s' (history ++ [(nowTs, m)]) where
  stamp symbol := by
    rw [stamped, OrdDict.get?_set, shipmentsOf_concat, inv.stamp]
    by_cases same : m.symbol = symbol
    · rw [if_pos same, if_pos same.symm, List.getLast?_concat]
      rfl
    · rw [if_neg same, if_neg fun e => same e.symm]
  spaced symbol := by
    rw [shipmentsOf_concat]
    by_cases same : m.symbol = symbol
    · rw [if_pos same]
      subst same
      refine Spaced.concat (inv.spaced _) (Int.cast_nonneg interval) fun last mem => ?_
      unfold rebalancedRecently at due
      rw [inv.stamp, show (shipmentsOf history m.symbol).getLast? = some last from mem] at due
      exact not_lt.1 (of_decide_eq_false due)
    · rw [if_neg same]
      exact inv.spaced symbol

/-- In a run from a fresh executor, the shipments of a symbol are spaced by the interval. -/
lemma shippedInv {cfg s₀} (fresh : Fresh cfg s₀) (interval : 0 ≤ cfg.rebalanceIntervalSec)
    (ops : List Op) : ShippedInv cfg ((machine cfg).run s₀ ops) (shipments cfg s₀ ops) := by
  induction ops using List.reverseRecOn with
  | nil =>
    refine ⟨fun symbol => ?_, fun symbol => .nil⟩
    rw [Machine.run_nil, fresh.lastRebalanceAt, OrdDict.get?_empty]
    rfl
  | append_singleton ops op ih =>
    rw [shipments, Machine.trace_concat, List.filterMap_append, ← shipments, Machine.run_concat]
    rcases next_shipped cfg ((machine cfg).run s₀ ops) op with
      ⟨silent, stamped⟩ | ⟨nowTs, m, rfl, shipped, due, stamped⟩
    · rw [List.filterMap_cons_none silent, List.filterMap_nil, List.append_nil]
      exact ⟨by rw [stamped]; exact ih.stamp, ih.spaced⟩
    · rw [List.filterMap_cons_some shipped, List.filterMap_nil]
      exact ih.concat interval due stamped

/-- A shipment is made by a call for its symbol. -/
lemma mem_shipments {cfg s} {ops : List Op} {h} (mem : h ∈ shipments cfg s ops) :
    Op.rebalance h.1 h.2.symbol ∈ ops := by
  induction ops generalizing s with
  | nil => cases mem
  | cons op ops ih =>
    have split : shipments cfg s (op :: ops) =
        (shipmentOf (op, (machine cfg).out s op)).toList ++
          shipments cfg ((machine cfg).next s op) ops := by
      rw [shipments, Machine.trace, List.filterMap_cons]
      cases shipmentOf (op, (machine cfg).out s op) <;> rfl
    rw [split] at mem
    rcases List.mem_append.1 mem with here | later
    · rcases next_shipped cfg s op with ⟨silent, _⟩ | ⟨nowTs, m, rfl, shipped, _⟩
      · rw [silent] at here
        cases here
      · rw [shipped] at here
        rw [List.mem_singleton.1 here]
        exact List.mem_cons_self
    · exact List.mem_cons_of_mem _ (ih later)

/-! ## The fees -/

/-- The symbol has base asset `c`. -/
def HasBase (c symbol : String) : Prop := (splitSymbol symbol).toOption.map Prod.fst = some c

instance (c symbol : String) : Decidable (HasBase c symbol) :=
  inferInstanceAs (Decidable (_ = _))

/-- What a holder has is part of the total. -/
lemma stock_le_baseTotal {s : PaperExecutor} (nn : s.books.StockNonneg) (ex c : String) :
    s.books.stock ex c ≤ s.baseTotal c := by
  rw [baseTotal_eq]
  by_cases known : ex ∈ s.balances.keys.toFinset
  · exact Finset.single_le_sum (fun ex _ => nn ex c) known
  · have none : s.balances.get? ex = none := by
      refine Option.eq_none_iff_forall_ne_some.2 fun bal e => known ?_
      exact List.mem_toFinset.2 (OrdDict.mem_keys_of_get? e)
    have zero : s.books.stock ex c = 0 := by simp [books, booksOf, none]
    rw [zero]
    exact Finset.sum_nonneg fun ex _ => nn ex c

/-- A shipment leaves the fraction of the inventory that its fee does not take; other steps leave it
whole. -/
lemma next_baseTotal_ge {cfg s} {op : Op} (fee : 0 ≤ cfg.rebalanceFeePct) (nn : s.books.StockNonneg)
    (c : String) :
    (1 - cfg.rebalanceFeePct / 100) ^ ((shipmentOf (op, (machine cfg).out s op)).toList.countP
        fun h => HasBase c h.2.symbol) * s.baseTotal c ≤ ((machine cfg).next s op).baseTotal c := by
  have st := next_step cfg s op
  have total := st.baseTotal c
  generalize (machine cfg).out s op = ev at *
  generalize (machine cfg).next s op = s' at *
  rw [total]
  cases st with
  | executeRaised => simp [shipmentOf, rebalanceFee]
  | rebalanceRaised => simp [shipmentOf, rebalanceFee]
  | idle => simp [shipmentOf, rebalanceFee]
  | called => simp [shipmentOf, rebalanceFee]
  | @shipped nowTs symbol base quote m split plan =>
    obtain ⟨vs, vt, plan⟩ := planTransfer_planned plan
    obtain ⟨hvs, hvt⟩ := planned_stock plan
    have same := plan.symbol_eq
    simp only [shipmentOf, rebalanceFee, split, Option.toList_some, HasBase, same, Except.toOption,
      Option.map_some, Option.some.injEq, List.countP_cons, List.countP_nil, Nat.zero_add,
      decide_eq_true_eq]
    by_cases here : c = base
    · subst here
      rw [if_pos rfl, if_pos rfl, pow_one]
      -- the source gives no more than it has
      have gross : m.gross ≤ s.baseTotal c := by
        have excess := plan.gross_eq.le.trans (min_le_left _ _)
        have deficit := plan.threshold_pos.trans_le plan.target_under
        have target := (nn m.target c).trans_eq hvt
        have held := stock_le_baseTotal nn m.source c
        rw [hvs] at held
        linarith
      have burnt := mul_le_mul_of_nonneg_right gross (div_nonneg fee (by norm_num : (0 : ℚ) ≤ 100))
      linarith
    · rw [if_neg fun e => here e.symm, if_neg here, pow_zero, one_mul, neg_zero, add_zero]

/-- A run leaves so much of an inventory, by the number of its shipments. -/
lemma run_baseTotal_ge {cfg s₀} (fresh : Fresh cfg s₀) (cap : 0 ≤ cfg.maxPositionPerSymbol)
    (fee : 0 ≤ cfg.rebalanceFeePct) (fee' : cfg.rebalanceFeePct ≤ 100) {ops : List Op}
    (pos : ∀ op ∈ ops, op.PositiveQuantity) (c : String) :
    ((machine cfg).run s₀ ops).books.StockNonneg ∧
    (1 - cfg.rebalanceFeePct / 100) ^ ((shipments cfg s₀ ops).countP fun h => HasBase c h.2.symbol) *
      s₀.baseTotal c ≤ ((machine cfg).run s₀ ops).baseTotal c := by
  induction ops using List.reverseRecOn with
  | nil =>
    refine ⟨fresh.stockNonneg cap, ?_⟩
    rw [show shipments cfg s₀ [] = [] from rfl, List.countP_nil, pow_zero, one_mul]
    exact le_rfl
  | append_singleton ops op ih =>
    obtain ⟨nn, before⟩ := ih fun op mem => pos op (List.mem_append_left _ mem)
    have step := @next_baseTotal_ge cfg _ op fee nn c
    have nonneg : 0 ≤ 1 - cfg.rebalanceFeePct / 100 := by linarith
    rw [shipments, Machine.trace_concat, List.filterMap_append, ← shipments, List.countP_append,
      Machine.run_concat]
    have last : List.filterMap shipmentOf [(op, (machine cfg).out ((machine cfg).run s₀ ops) op)] =
        (shipmentOf (op, (machine cfg).out ((machine cfg).run s₀ ops) op)).toList := by
      rw [List.filterMap_cons]
      cases shipmentOf (op, (machine cfg).out ((machine cfg).run s₀ ops) op) <;> rfl
    rw [last, pow_add, mul_comm (_ ^ _) (_ ^ _), mul_assoc]
    refine ⟨(next_step cfg _ op).stockNonneg (pos op (by simp)) nn, ?_⟩
    exact (mul_le_mul_of_nonneg_left before (pow_nonneg nonneg _)).trans step

/-- The upkeep is bounded. In a run from a fresh executor, whatever is traded, the rebalances of a symbol
are spaced by `rebalance_interval_sec`; so when the main loop asks for rebalances of configured symbols
within some window of time, each symbol has at most one for each interval that fits into the window, and
one more, and the inventory of a base asset is left up to the fees of so many. -/
theorem upkeep_bounded {cfg s₀} (hinit : init cfg = .ok s₀) (cap : 0 ≤ cfg.maxPositionPerSymbol)
    (fee : 0 ≤ cfg.rebalanceFeePct) (fee' : cfg.rebalanceFeePct ≤ 100)
    (interval : 0 < cfg.rebalanceIntervalSec) {ops : List Op} (pos : ∀ op ∈ ops, op.PositiveQuantity)
    {lo width : ℚ} (calls : ∀ nowTs symbol, Op.rebalance nowTs symbol ∈ ops →
      symbol ∈ cfg.symbols ∧ lo ≤ nowTs ∧ nowTs ≤ lo + width) (c : String) :
    (∀ symbol, Spaced Prod.fst (cfg.rebalanceIntervalSec : ℚ)
      (shipmentsOf (shipments cfg s₀ ops) symbol)) ∧
    (1 - cfg.rebalanceFeePct / 100) ^ ((cfg.symbols.filter fun symbol => HasBase c symbol).dedup.length *
        (⌊width / cfg.rebalanceIntervalSec⌋₊ + 1)) * s₀.baseTotal c ≤
      ((machine cfg).run s₀ ops).baseTotal c := by
  have fresh := init_fresh hinit
  have inv := shippedInv fresh interval.le ops
  refine ⟨inv.spaced, ?_⟩
  obtain ⟨_, left⟩ := run_baseTotal_ge fresh cap fee fee' pos c
  have made : ∀ h ∈ shipments cfg s₀ ops, _ := fun h mem => calls _ _ (mem_shipments mem)
  generalize shipments cfg s₀ ops = history at inv left made
  -- the shipments of the base asset, symbol by symbol
  have few : (history.filter fun h => HasBase c h.2.symbol).length ≤
      (cfg.symbols.filter fun symbol => HasBase c symbol).dedup.length *
        (⌊width / (cfg.rebalanceIntervalSec : ℚ)⌋₊ + 1) := by
    refine @List.length_le_of_classes _ _ _ _ (fun h : ℚ × RebalanceMessage => h.2.symbol) _
      (List.nodup_dedup _) (fun h mem => ?_) _ fun symbol => ?_
    · obtain ⟨mem, here⟩ := List.mem_filter.1 mem
      exact List.mem_dedup.2 (List.mem_filter.2 ⟨(made h mem).1, here⟩)
    · rw [List.filter_comm]
      have spaced : Spaced Prod.fst (cfg.rebalanceIntervalSec : ℚ) ((shipmentsOf history symbol).filter
          fun h => HasBase c h.2.symbol) := Spaced.sublist (inv.spaced symbol) List.filter_sublist
      have within : ∀ h ∈ (shipmentsOf history symbol).filter fun h => HasBase c h.2.symbol,
          lo ≤ h.1 ∧ h.1 ≤ lo + width :=
        fun h mem => (made h (List.mem_filter.1 (List.mem_filter.1 mem).1).1).2
      exact spaced.length_le (Int.cast_pos.2 interval) within
  rw [List.countP_eq_length_filter] at left
  have total : 0 ≤ s₀.baseTotal c := by
    rw [baseTotal_eq]
    exact Finset.sum_nonneg fun ex _ => fresh.stockNonneg cap ex c
  have nonneg : 0 ≤ 1 - cfg.rebalanceFeePct / 100 := by linarith
  refine (mul_le_mul_of_nonneg_right ?_ total).trans left
  exact pow_le_pow_of_le_one nonneg (by linarith) few

/-- A trade that calls for a rebalance by itself. -/
def cheapRoute : Opportunity := { slightRoute with quantity := 1 / 40 }

/-- By default, a trade and the rebalance that it calls for leave all but a 5000th of the 0.24 BTC. -/
theorem upkeep_bounded_sample :
    ∃ s₀, init defaultConfig = .ok s₀ ∧
      (shipments defaultConfig s₀ [.execute 0 cheapRoute, .rebalance 10 "BTC/USDT"]).length = 1 ∧
      (1 - 1 / 5000) * (24 / 100) ≤ ((machine defaultConfig).run s₀
        [.execute 0 cheapRoute, .rebalance 10 "BTC/USDT"]).baseTotal "BTC" := by
  obtain ⟨s₀, hinit, h⟩ := Loop.exists_ok_of_any (x := init defaultConfig)
    (p := fun s₀ => (shipments defaultConfig s₀
      [.execute 0 cheapRoute, .rebalance 10 "BTC/USDT"]).length = 1 ∧
        s₀.baseTotal "BTC" = 24 / 100) (by decide +kernel)
  obtain ⟨one, start⟩ := of_decide_eq_true h
  refine ⟨s₀, hinit, one, ?_⟩
  have bounded := (@upkeep_bounded _ _ hinit (by decide +kernel) (by decide +kernel) (by decide +kernel)
    (by decide +kernel) [.execute 0 cheapRoute, .rebalance 10 "BTC/USDT"] ?_ 0 10 ?_ "BTC").2
  · have once : (defaultConfig.symbols.filter fun symbol => HasBase "BTC" symbol).dedup.length *
        (⌊(10 : ℚ) / defaultConfig.rebalanceIntervalSec⌋₊ + 1) = 1 := by decide +kernel
    rw [once, pow_one, start] at bounded
    refine le_trans (le_of_eq ?_) bounded
    decide +kernel
  · intro op mem
    simp only [List.mem_cons, List.not_mem_nil, or_false] at mem
    rcases mem with rfl | rfl
    · norm_num [Op.PositiveQuantity, cheapRoute]
    · trivial
  · intro nowTs symbol mem
    simp only [List.mem_cons, List.not_mem_nil, or_false, reduceCtorEq, false_or,
      Op.rebalance.injEq] at mem
    obtain ⟨rfl, rfl⟩ := mem
    decide +kernel

end ArbBot.PaperExecutor
