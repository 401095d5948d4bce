import ArbBot.Engine.Filters
import ArbBot.Executor.Accounts

/-!
# Engine and executor together

The engine scans markets, and the executor is called with opportunities. `System` is the two of them
with one configuration, and with the opportunities that the engine has returned so far; a run is any
sequence of scans and calls. `FromScan` restricts it to runs that execute only what a scan returned.

Both components compute the economics of a trade, the engine from fees and slippages, the executor
from fees and requotes. `pnlAfter_emitted` compares the two for one opportunity: the executor does
not charge the slippages, and it charges the requotes. `Agrees` is this comparison for an execution,
and `engine_executor_agree` carries it to runs.
-/

namespace ArbBot

open OpportunityEngine PaperExecutor

/-! ## The system -/

/-- Engine and executor, and the opportunities that the engine has returned. -/
structure System where
  engine : OpportunityEngine
  executor : PaperExecutor
  issued : List Opportunity

/-- A scan of a market, or a call on the executor. -/
inductive SystemOp where
  | scan (market : Market) (clock : ℕ → ℚ)
  | call (op : PaperExecutor.Op)

/-- What a scan returned, or what a call answered. -/
inductive SystemEvent where
  | scanned (result : Except PyError (List Opportunity))
  | answered (ev : PaperExecutor.Event)

namespace System

def step (cfg : BotConfig) (sys : System) : SystemOp → System × SystemEvent
  | .scan market clock =>
    let (result, engine) := findOpportunities cfg sys.engine market clock
    ({ sys with engine, issued := sys.issued ++ result.toOption.getD [] }, .scanned result)
  | .call op =>
    let (executor, ev) := PaperExecutor.step cfg sys.executor op
    ({ sys with executor }, .answered ev)

/-- Engine and executor with a fixed configuration. -/
def machine (cfg : BotConfig) : Machine System SystemOp SystemEvent := ⟨step cfg⟩

/-- What is executed was returned by an earlier scan. -/
def FromScan (sys : System) : SystemOp → Prop
  | .call (.execute _ opp) => opp ∈ sys.issued
  | .call (.rebalance _ _) => True
  | .scan _ _ => True

/-! ## One opportunity -/

/-- The engine returns the opportunity in some state of its averages, for some market. -/
def Emitted (cfg : BotConfig) (opp : Opportunity) : Prop :=
  ∃ ewma buyRow sellRow timestampMs, Passes cfg ewma buyRow sellRow ∧
    opp = opportunityOf cfg ewma timestampMs (legsOf cfg ewma buyRow sellRow) buyRow sellRow

/-- The slippages that the engine charges on an opportunity. -/
def slippageCharge (opp : Opportunity) : ℚ :=
  opp.quantity *
    (opp.buyPrice * opp.buySlippagePct / 100 + opp.sellPrice * opp.sellSlippagePct / 100)

/-- The executor charges the fees that the engine charges. -/
lemma fees_emitted (cfg ewma buyRow sellRow timestampMs) :
    buyFee cfg (opportunityOf cfg ewma timestampMs (legsOf cfg ewma buyRow sellRow) buyRow sellRow) =
        (legsOf cfg ewma buyRow sellRow).buyFee ∧
      sellFee cfg (opportunityOf cfg ewma timestampMs (legsOf cfg ewma buyRow sellRow) buyRow
        sellRow) = (legsOf cfg ewma buyRow sellRow).sellFee := by
  rcases legsOf_cases cfg ewma buyRow sellRow with ⟨style, h⟩ | ⟨style, _⟩ | ⟨style, _⟩
  · -- a taker-taker opportunity: both components look the fees up
    rw [h]
    simp only [buyFee, sellFee, opportunityOf, style, if_false]
    exact ⟨rfl, rfl⟩
  · simp [buyFee, sellFee, opportunityOf, style]
  · simp [buyFee, sellFee, opportunityOf, style]

/-- The PnL of an opportunity: what the engine expects, without the slippages, with the requotes. -/
lemma pnlAfter_emitted {cfg opp} (emitted : Emitted cfg opp) (k : ℕ) :
    pnlAfter cfg opp k =
      opp.expectedProfitUsdt + slippageCharge opp - requotePenalty cfg opp k := by
  obtain ⟨ewma, buyRow, sellRow, timestampMs, _, rfl⟩ := emitted
  obtain ⟨hbuy, hsell⟩ := fees_emitted cfg ewma buyRow sellRow timestampMs
  rw [pnlAfter, receivedFor, spentOn, hbuy, hsell]
  simp only [quoteReceived, quoteSpent, slippageCharge, opportunityOf, expectedProfitUsdt,
    Legs.netSell, Legs.netBuy]
  ring

/-- The slippages are not negative. -/
lemma slippageCharge_nonneg {cfg opp} (emitted : Emitted cfg opp) : 0 ≤ slippageCharge opp := by
  obtain ⟨ewma, buyRow, sellRow, timestampMs, passes, rfl⟩ := emitted
  obtain ⟨hbuy, hsell⟩ := legsOf_slippage_nonneg cfg ewma buyRow sellRow
  have hbuyPrice := passes.buyPrice.le
  have hsellPrice := passes.sellPrice.le
  refine mul_nonneg passes.quantity.le (add_nonneg ?_ ?_)
  · exact div_nonneg (mul_nonneg hbuyPrice hbuy) (by norm_num)
  · exact div_nonneg (mul_nonneg hsellPrice hsell) (by norm_num)

/-- Outside dry-run the engine expects a profit. -/
lemma expectedProfitUsdt_pos {cfg opp} (emitted : Emitted cfg opp) (live : cfg.mode ≠ .dryRun) :
    0 < opp.expectedProfitUsdt := by
  obtain ⟨ewma, buyRow, sellRow, timestampMs, passes, rfl⟩ := emitted
  exact passes.profit.resolve_right fun h => live h.1

/-! ## One execution -/

/-- The requotes of a maker-taker execution, priced; nothing for a taker-taker execution. -/
def chargedRequotes (cfg : BotConfig) (s s' : PaperExecutor) (opp : Opportunity) : ℚ :=
  if opp.executionStyle = .makerTaker then
    opp.quantity * opp.buyPrice * cfg.makerRequoteStepBps / 10000 *
      (s'.risk.makerRequotes - s.risk.makerRequotes)
  else 0

/-- An execution brings what the engine expects of it, without the slippages and with the requotes,
and this is a profit. -/
structure Agrees (cfg : BotConfig) (s s' : PaperExecutor) (opp : Opportunity) (r : TradeResult) :
    Prop where
  pnl : r.realizedPnlUsdt =
    opp.expectedProfitUsdt + slippageCharge opp - chargedRequotes cfg s s' opp
  positive : 0 < r.realizedPnlUsdt

/-- The penalty of the requotes that an accepted order needed. -/
lemma requotePenalty_eq {cfg opp k} (s s' : PaperExecutor) (fill : FillsAfter cfg opp k)
    (h : s'.risk.makerRequotes = s.risk.makerRequotes + k) :
    requotePenalty cfg opp k = chargedRequotes cfg s s' opp := by
  unfold chargedRequotes requotePenalty
  rw [h]
  cases fill with
  | taker style => simp [style]
  | maker style =>
    rw [if_pos style]
    push_cast
    ring

/-- A successful execution of an emitted opportunity agrees with the engine. -/
lemma agrees_of_call {cfg s nowTs opp r s'} (live : cfg.mode ≠ .dryRun) (emitted : Emitted cfg opp)
    (call : Call cfg s nowTs opp r s') (succeeds : r.success = true) : Agrees cfg s s' opp r := by
  cases call with
  | refused => cases succeeds
  | rehearsed dry => exact absurd dry live
  | @booked base k reason payload _ _ fill =>
    refine ⟨?_, ?_⟩
    · rw [← requotePenalty_eq s _ fill (by simp [countSuccess])]
      exact pnlAfter_emitted emitted k
    · show 0 < pnlAfter cfg opp k
      cases fill with
      | taker style =>
        rw [pnlAfter_emitted emitted]
        have hexp := expectedProfitUsdt_pos emitted live
        have hslip := slippageCharge_nonneg emitted
        simp only [requotePenalty, Nat.cast_zero, mul_zero, sub_zero]
        linarith
      | maker _ _ worth => exact worth.resolve_right fun h => live h.1

/-! ## Runs -/

/-- All opportunities that have been returned are emitted ones. -/
def Sound (cfg : BotConfig) (sys : System) : Prop := ∀ opp ∈ sys.issued, Emitted cfg opp

lemma Sound.next {cfg sys} (sound : Sound cfg sys) (op) : Sound cfg ((machine cfg).next sys op) := by
  cases op with
  | call => exact sound
  | scan market clock =>
    intro opp hopp
    simp only [Machine.next, machine, step] at hopp
    rcases e : findOpportunities cfg sys.engine market clock with ⟨result, engine⟩
    rw [e] at hopp
    cases result with
    | error =>
      exact sound opp (by simpa [Except.toOption] using hopp)
    | ok opps =>
      rcases List.mem_append.1 hopp with old | new
      · exact sound opp old
      · obtain ⟨j, timestampMs, hfound, rfl⟩ := findOpportunities_found e new
        exact ⟨j.1, j.2.1, j.2.2, timestampMs, hfound.passes, rfl⟩

/-- Executing emitted opportunities, the executor never loses and never reaches the loss limit. -/
structure Gains (cfg : BotConfig) (s s' : PaperExecutor) : Prop where
  pnl : s.risk.realizedPnlUsdt ≤ s'.risk.realizedPnlUsdt
  reason : 0 < maxLoss cfg → 0 ≤ s.risk.realizedPnlUsdt →
    s.risk.blockedReason ≠ some .dailyDrawdownLimit →
    s'.risk.blockedReason ≠ some .dailyDrawdownLimit

lemma Gains.of_risk {cfg s} {s' : PaperExecutor} (h : s'.risk = s.risk) : Gains cfg s s' where
  pnl := by rw [h]
  reason _ _ hs := by rw [h]; exact hs

lemma step_gains {cfg s op ev s'} (live : cfg.mode ≠ .dryRun)
    (emitted : ∀ nowTs opp, op = .execute nowTs opp → Emitted cfg opp)
    (st : Step cfg s op ev s') : Gains cfg s s' := by
  cases st with
  | executeRaised => exact .of_risk rfl
  | rebalanceRaised => exact .of_risk rfl
  | idle => exact .of_risk rfl
  | shipped => exact .of_risk rfl
  | @called nowTs opp r s' call =>
    have agrees := agrees_of_call live (emitted nowTs opp rfl) call
    cases call with
    | refused =>
      refine ⟨by simp, fun _ _ hs => ?_⟩
      rw [countFailure_blockedReason]
      split
      · exact nofun
      · exact hs
    | rehearsed dry => exact absurd dry live
    | @booked base k =>
      have pos : 0 < pnlAfter cfg opp k := (agrees rfl).positive
      refine ⟨?_, fun hloss hs hreason => ?_⟩
      · simp only [evaluateDrawdownGuard_realizedPnlUsdt, countSuccess]
        linarith
      · -- the guard does not fire above the limit
        unfold evaluateDrawdownGuard
        rw [if_neg (by simp only [countSuccess]; linarith)]
        exact hreason

lemma next_gains {cfg sys op} (live : cfg.mode ≠ .dryRun) (sound : Sound cfg sys)
    (from_scan : FromScan sys op) : Gains cfg sys.executor ((machine cfg).next sys op).executor := by
  cases op with
  | scan => exact .of_risk rfl
  | call op =>
    refine step_gains live (fun nowTs opp h => ?_) (next_step cfg sys.executor op)
    subst h
    exact sound opp from_scan

/-- Engine and executor agree. From a fresh executor and any engine with the same configuration in
paper mode, in a run that executes only what a scan has returned: every successful execution brings
what the engine expects of it, without the slippages and with the requotes, and this is a profit; the
realized PnL never decreases; and with a positive loss limit the drawdown guard never blocks. -/
theorem engine_executor_agree {cfg s₀} (hinit : PaperExecutor.init cfg = .ok s₀)
    (paper : cfg.mode = .paper) (engine₀ : OpportunityEngine) {ops}
    (from_scan : (machine cfg).Along FromScan ⟨engine₀, s₀, []⟩ ops) :
    (∀ pre nowTs opp r, pre ++ [.call (.execute nowTs opp)] <+: ops →
      (machine cfg).out ((machine cfg).run ⟨engine₀, s₀, []⟩ pre) (.call (.execute nowTs opp)) =
        .answered (.traded opp r) → r.success = true →
      Agrees cfg ((machine cfg).run ⟨engine₀, s₀, []⟩ pre).executor
        ((machine cfg).run ⟨engine₀, s₀, []⟩
          (pre ++ [.call (.execute nowTs opp)])).executor opp r) ∧
    (∀ pre later, pre ++ later <+: ops →
      ((machine cfg).run ⟨engine₀, s₀, []⟩ pre).executor.risk.realizedPnlUsdt ≤
        ((machine cfg).run ⟨engine₀, s₀, []⟩ (pre ++ later)).executor.risk.realizedPnlUsdt) ∧
    (0 < maxLoss cfg → ∀ pre, pre <+: ops →
      ((machine cfg).run ⟨engine₀, s₀, []⟩ pre).executor.risk.blockedReason ≠
        some .dailyDrawdownLimit) := by
  have live : cfg.mode ≠ .dryRun := by rw [paper]; exact nofun
  have fresh := init_fresh hinit
  have sound₀ : Sound cfg ⟨engine₀, s₀, []⟩ := fun _ h => nomatch h
  have sound : ∀ {pre}, pre <+: ops → Sound cfg ((machine cfg).run ⟨engine₀, s₀, []⟩ pre) :=
    fun hpre => Machine.inv_run sound₀ (fun sys op hs _ => hs.next op) (from_scan.pre hpre)
  refine ⟨fun pre nowTs opp r hpre hout succeeds => ?_, fun pre later hpre => ?_,
    fun hloss pre hpre => ?_⟩
  · -- the call executes what an earlier scan returned, which is an emitted opportunity
    have scanned := ((Machine.along_concat _ _).1 (from_scan.pre hpre)).2
    have emitted := sound ((List.prefix_append _ _).trans hpre) opp scanned
    rw [Machine.run_concat]
    generalize (machine cfg).run ⟨engine₀, s₀, []⟩ pre = sys at hout ⊢
    have st := next_step cfg sys.executor (.execute nowTs opp)
    have hev : (PaperExecutor.machine cfg).out sys.executor (.execute nowTs opp) =
        .traded opp r := SystemEvent.answered.inj hout
    rw [hev] at st
    cases st with
    | called call => exact agrees_of_call live emitted call succeeds
  · rw [Machine.run_append]
    exact Machine.rel_run (I := Sound cfg)
      (R := fun a b => a.executor.risk.realizedPnlUsdt ≤ b.executor.risk.realizedPnlUsdt)
      (fun _ => le_rfl) (fun hab hbc => hab.trans hbc)
      (sound ((List.prefix_append _ _).trans hpre))
      (fun sys op hs hop => ⟨hs.next op, (next_gains live hs hop).pnl⟩)
      ((Machine.along_append _ _).1 (from_scan.pre hpre)).2
  · have inv := Machine.inv_run (I := fun sys => Sound cfg sys ∧
        0 ≤ sys.executor.risk.realizedPnlUsdt ∧
        sys.executor.risk.blockedReason ≠ some .dailyDrawdownLimit)
      ⟨sound₀, by simp [fresh.risk], by simp [fresh.risk]⟩
      (fun sys op hs hop =>
        have gains := next_gains live hs.1 hop
        ⟨hs.1.next op, hs.2.1.trans gains.pnl, gains.reason hloss hs.2.1 hs.2.2⟩)
      (from_scan.pre hpre)
    exact inv.2.2

/-- The opportunity that the default configuration finds in the sample market. -/
def sampleOpportunity : Opportunity :=
  let buyRow := sampleSnapshot "binance" 49990 50000
  let sellRow := sampleSnapshot "bybit" 50500 50510
  opportunityFor defaultConfig 1000
    (updateSlippages defaultConfig (OpportunityEngine.init defaultConfig).exchangeSlippageEwmaPct
      buyRow sellRow, buyRow, sellRow)

/-- The default configuration scans the sample market, and executes what it finds at a profit. -/
theorem engine_executor_agree_sample :
    ∃ s₀ r, PaperExecutor.init defaultConfig = .ok s₀ ∧
      (machine defaultConfig).out
          ((machine defaultConfig).run ⟨OpportunityEngine.init defaultConfig, s₀, []⟩
            [.scan sampleMarket fun _ => 1])
          (.call (.execute 1 sampleOpportunity)) = .answered (.traded sampleOpportunity r) ∧
      0 < r.realizedPnlUsdt := by
  have found : sampleOpportunity ∈ [] ++ (findOpportunities defaultConfig
      (OpportunityEngine.init defaultConfig) sampleMarket fun _ => 1).1.toOption.getD [] := by
    decide +kernel
  obtain ⟨s₀, hinit, h⟩ := Loop.exists_ok_of_any (x := PaperExecutor.init defaultConfig)
    (p := fun s₀ => (execute defaultConfig s₀ 1 sampleOpportunity).toOption.any fun x => x.1.success)
    (by decide +kernel)
  obtain ⟨⟨r, s'⟩, hexec, succeeds⟩ := Loop.exists_ok_of_any h
  have hout : (machine defaultConfig).out
      ((machine defaultConfig).run ⟨OpportunityEngine.init defaultConfig, s₀, []⟩
        [.scan sampleMarket fun _ => 1])
      (.call (.execute 1 sampleOpportunity)) = .answered (.traded sampleOpportunity r) := by
    show SystemEvent.answered (PaperExecutor.step defaultConfig s₀ (.execute 1 sampleOpportunity)).2
      = _
    simp only [PaperExecutor.step, hexec]
  have from_scan : (machine defaultConfig).Along FromScan
      ⟨OpportunityEngine.init defaultConfig, s₀, []⟩
      [.scan sampleMarket fun _ => 1, .call (.execute 1 sampleOpportunity)] :=
    ⟨trivial, found, trivial⟩
  have agree := (engine_executor_agree hinit rfl _ from_scan).1 [.scan sampleMarket fun _ => 1] 1
    sampleOpportunity r List.prefix_rfl hout succeeds
  exact ⟨s₀, r, hinit, hout, agree.positive⟩

end System

end ArbBot
