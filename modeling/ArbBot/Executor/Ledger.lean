import ArbBot.Executor.Accounts
import Mathlib.Tactic.Linarith
import Mathlib.Tactic.FieldSimp

/-!
# Cash and booked PnL

The executor books the PnL of a trade in `risk.realized_pnl_usdt` and its cash in the balances.
`Step.gap` says by how much a step moves the two apart: by the requote penalty of the trade that it
books, which `_execute_maker_taker` takes off the PnL and from no balance. `ledger_iff` is the
consequence for runs: cash and PnL agree in every state of a run exactly when no call of the run
books a maker-taker trade at the price of a requote.
-/

namespace ArbBot.PaperExecutor

/-! ## How many requotes a filled order took -/

lemma makerAttempts_requotes_le (cfg : BotConfig) (opp : Opportunity) (n : ℕ) (p : ℚ) (r : ℕ) :
    r ≤ (makerAttempts cfg opp n p r).requotes := by
  induction n generalizing p r with
  | zero => exact le_rfl
  | succ n ih =>
    rw [makerAttempts]
    split_ifs
    · exact le_rfl
    · exact le_rfl
    · exact (Nat.le_succ r).trans (ih (boost cfg p) (r + 1))

lemma makerAttempts_timedOut {cfg : BotConfig} {opp : Opportunity} (late : timedOut cfg opp)
    (n : ℕ) (p : ℚ) (r : ℕ) : (makerAttempts cfg opp n p r).filled = false := by
  induction n generalizing p r with
  | zero => rfl
  | succ n ih =>
    rw [makerAttempts, if_neg fun h => h.2 late]
    split_ifs
    · rfl
    · exact ih (boost cfg p) (r + 1)

/-- A filled order took no requote exactly when its first quote was good enough. -/
lemma makerAttempts_no_requote {cfg : BotConfig} {opp : Opportunity} {n : ℕ} {p : ℚ} {r : ℕ}
    (filled : (makerAttempts cfg opp n p r).filled = true) :
    (makerAttempts cfg opp n p r).requotes = r ↔ cfg.makerMinFillProbability ≤ p := by
  cases n with
  | zero => cases filled
  | succ n =>
    rw [makerAttempts] at filled ⊢
    split_ifs at filled ⊢ with fills last
    · exact ⟨fun _ => fills.1, fun _ => rfl⟩
    · have hle := makerAttempts_requotes_le cfg opp n (boost cfg p) (r + 1)
      have hlate : ¬timedOut cfg opp := fun late => by
        rw [makerAttempts_timedOut late] at filled; cases filled
      constructor
      · intro e; omega
      -- a good first quote fills unless it is late, and then no quote fills
      · intro good; exact absurd ⟨good, hlate⟩ fills

lemma makerLoop_no_requote {cfg : BotConfig} {opp : Opportunity}
    (filled : (makerLoop cfg opp).filled = true) :
    (makerLoop cfg opp).requotes = 0 ↔
      cfg.makerMinFillProbability ≤ clamp opp.fillProbability 0 (99 / 100) :=
  makerAttempts_no_requote filled

/-! ## The gap between cash and PnL -/

/-- The quantity and the prices of the opportunity of a call are positive. -/
def Op.Positive : Op → Prop
  | .execute _ opp => 0 < opp.quantity ∧ 0 < opp.buyPrice ∧ 0 < opp.sellPrice
  | .rebalance _ _ => True

/-- The call books a maker-taker trade whose first quote does not fill and whose requotes have a
price. -/
def BooksPenalty (cfg : BotConfig) (s : PaperExecutor) : Op → Prop
  | .execute nowTs opp => Accepts cfg s nowTs opp ∧ opp.executionStyle = .makerTaker ∧
      clamp opp.fillProbability 0 (99 / 100) < cfg.makerMinFillProbability ∧
      cfg.makerRequoteStepBps ≠ 0
  | .rebalance _ _ => False

/-- The cash of all exchanges less the booked PnL. -/
def gap (s : PaperExecutor) : ℚ := s.quoteTotal - s.risk.realizedPnlUsdt

/-- The penalty of a filled order vanishes exactly when it was not requoted at a price. -/
lemma requotePenalty_eq_zero_iff {cfg : BotConfig} {opp : Opportunity} {k : ℕ}
    (hq : 0 < opp.quantity) (hp : 0 < opp.buyPrice) :
    requotePenalty cfg opp k = 0 ↔ cfg.makerRequoteStepBps = 0 ∨ k = 0 := by
  have hcost : opp.quantity * opp.buyPrice ≠ 0 := (mul_pos hq hp).ne'
  simp [requotePenalty, hcost]

/-- A booked trade pays a penalty exactly when the call is one that `BooksPenalty` describes. -/
lemma penalty_iff {cfg s nowTs opp base k} (adm : Admitted cfg s nowTs opp base)
    (fill : FillsAfter cfg opp k) (pos : Op.Positive (.execute nowTs opp)) :
    requotePenalty cfg opp k = 0 ↔ ¬BooksPenalty cfg s (.execute nowTs opp) := by
  obtain ⟨hq, hp, _⟩ := pos
  have acc : Accepts cfg s nowTs opp := ⟨base, k, adm, fill⟩
  rw [requotePenalty_eq_zero_iff hq hp]
  cases fill with
  | taker style => exact ⟨fun _ h => style h.2.1, fun _ => .inr rfl⟩
  | maker style filled worth =>
    rw [makerLoop_no_requote filled]
    constructor
    · rintro (h | h) hbad
      · exact hbad.2.2.2 h
      · exact absurd hbad.2.2.1 (not_lt.2 h)
    · intro hgood
      by_contra h
      rw [not_or, not_le] at h
      exact hgood ⟨acc, style, h.2, h.1⟩

/-- In paper mode a step keeps the gap exactly when it does not book a penalty. -/
lemma Step.gap {cfg s op ev s'} (st : Step cfg s op ev s') (paper : cfg.mode = .paper)
    (pos : op.Positive) : s'.gap = s.gap ↔ ¬BooksPenalty cfg s op := by
  have hquote := st.books.quoteTotal
  unfold PaperExecutor.gap
  rw [hquote]
  cases st with
  | executeRaised rej => simp [moveOf, BooksPenalty, rej]
  | rebalanceRaised => simp [moveOf, BooksPenalty]
  | idle => simp [moveOf, BooksPenalty]
  | @shipped _ _ _ _ m split _ => simp [moveOf, split, Move.income, BooksPenalty]
  | called call =>
    cases call with
    | refused rej => simp [moveOf, tradeResult, BooksPenalty, rej]
    | rehearsed dry => rw [paper] at dry; cases dry
    | @booked base k _ _ live adm fill =>
      obtain ⟨_, split⟩ := adm.split
      rw [← penalty_iff adm fill pos]
      simp only [moveOf, tradeResult, live, ne_eq, not_false_eq_true, and_self, if_true, split,
        Option.elim_some, Move.income, evaluateDrawdownGuard_realizedPnlUsdt, countSuccess,
        pnlAfter]
      constructor
      · intro h; linarith
      · intro h; linarith

/-- A fresh executor has booked nothing. -/
lemma Fresh.gap {cfg s} (fresh : Fresh cfg s) : s.gap = s.quoteTotal := by
  simp [PaperExecutor.gap, fresh.risk]

/-- In paper mode the cash of all exchanges moves with the booked PnL, in every state of a run from
a fresh executor, exactly when no call of the run books a trade at the price of a requote. -/
theorem ledger_iff {cfg s₀ ops} (hinit : init cfg = .ok s₀) (paper : cfg.mode = .paper)
    (pos : ∀ op ∈ ops, op.Positive) :
    (∀ pre, pre <+: ops →
      ((machine cfg).run s₀ pre).quoteTotal - s₀.quoteTotal =
        ((machine cfg).run s₀ pre).risk.realizedPnlUsdt) ↔
    (machine cfg).Along (fun s op => ¬BooksPenalty cfg s op) s₀ ops := by
  have hgap : ∀ s : PaperExecutor,
      s.quoteTotal - s₀.quoteTotal = s.risk.realizedPnlUsdt ↔ s.gap = s₀.gap := by
    intro s
    rw [(init_fresh hinit).gap, PaperExecutor.gap, sub_eq_iff_eq_add, sub_eq_iff_eq_add, add_comm]
  simp only [hgap]
  refine Machine.forall_prefix_iff_along (I := fun _ => True) (Q := fun s => gap s = gap s₀)
    trivial rfl (fun _ _ _ _ => trivial) ?_ (Machine.along_of_forall pos)
  intro s op _ hpos hs
  rw [← hs]
  exact (next_step cfg s op).gap paper hpos

/-- A route as the scanner emits it in maker-taker style. -/
def sampleRoute : Opportunity where
  symbol := "BTC/USDT"
  executionStyle := .makerTaker
  buyExchange := "binance"
  sellExchange := "bybit"
  makerExchange := "binance"
  takerExchange := "bybit"
  makerSide := .buy
  takerSide := .sell
  buyPrice := 60000
  sellPrice := 61000
  buyPriceSource := .ticker
  sellPriceSource := .orderbook
  buyFeePct := 6 / 100
  sellFeePct := 10 / 100
  buySlippagePct := 0
  sellSlippagePct := 5 / 100
  feeCostPct := 16 / 100
  slippageCostPct := 5 / 100
  dynamicThresholdPct := 15 / 100
  queueRiskScore := 1 / 2
  fillProbability := 40 / 100
  expectedFillTimeMs := 1100
  grossSpreadPct := 5 / 3
  netSpreadPct := 14 / 10
  quantity := 1 / 100
  expectedProfitUsdt := 8
  timestampMs := 0

lemma sampleRoute_positive (nowTs : ℚ) : Op.Positive (.execute nowTs sampleRoute) := by
  norm_num [Op.Positive, sampleRoute]

/-- On a taker-taker route `ledger_iff` gives agreement in every state. -/
theorem ledger_taker_taker :
    ∃ s₀, init defaultConfig = .ok s₀ ∧
      ∀ pre, pre <+: [Op.execute 0 { sampleRoute with executionStyle := .takerTaker }] →
        ((machine defaultConfig).run s₀ pre).quoteTotal - s₀.quoteTotal =
          ((machine defaultConfig).run s₀ pre).risk.realizedPnlUsdt := by
  obtain ⟨s₀, hinit⟩ := init_default
  refine ⟨s₀, hinit, (ledger_iff hinit rfl ?_).2 ?_⟩
  · intro op hop
    rw [List.mem_singleton.1 hop]
    exact sampleRoute_positive 0
  · exact ⟨fun h => (nomatch h.2.1), trivial⟩

/-- The default configuration books `sampleRoute` after one requote; its penalty of 0.048 USDT is in
the PnL and in no balance. -/
theorem ledger_gap_of_requote :
    ∃ s₀, init defaultConfig = .ok s₀ ∧ defaultConfig.mode = .paper ∧
      Op.Positive (.execute 0 sampleRoute) ∧
      ((machine defaultConfig).run s₀ [.execute 0 sampleRoute]).quoteTotal - s₀.quoteTotal =
        ((machine defaultConfig).run s₀ [.execute 0 sampleRoute]).risk.realizedPnlUsdt
          + 48 / 1000 ∧
      ((machine defaultConfig).run s₀ [.execute 0 sampleRoute]).quoteTotal - s₀.quoteTotal ≠
        ((machine defaultConfig).run s₀ [.execute 0 sampleRoute]).risk.realizedPnlUsdt := by
  obtain ⟨s₀, hinit, h⟩ := Loop.exists_ok_of_any (x := init defaultConfig)
    (p := fun s₀ =>
      ((machine defaultConfig).run s₀ [.execute 0 sampleRoute]).quoteTotal - s₀.quoteTotal =
        ((machine defaultConfig).run s₀ [.execute 0 sampleRoute]).risk.realizedPnlUsdt
          + 48 / 1000) (by decide +kernel)
  have hgap := of_decide_eq_true h
  refine ⟨s₀, hinit, rfl, sampleRoute_positive 0, hgap, ?_⟩
  rw [hgap]
  norm_num

end ArbBot.PaperExecutor
