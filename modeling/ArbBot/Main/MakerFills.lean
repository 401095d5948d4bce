import ArbBot.Executor.Requotes
import ArbBot.Main.System

/-!
# Which maker orders can fill

The engine estimates how likely and how slow a maker leg is, and the executor places it by these
estimates: it requotes while the leg is too unlikely, and gives up when the leg would be too slow, which
no requote changes. `emitted_estimated` bounds the estimates of whatever the engine emits by its queue
risk, and `timedOut_iff` is the time limit in terms of them. So the queue risk decides: up to one third
the time limit never stands in the way, and from seventeen fifteenths on (and a bit, by the length of the
limit) no leg ever fills, however many requotes there are. `maker_fills` says so of the calls.
-/

namespace ArbBot

open OpportunityEngine PaperExecutor

namespace System

/-- How the engine's estimates for a maker leg hang together. -/
structure Estimated (cfg : BotConfig) (opp : Opportunity) : Prop where
  risk_nonneg : 0 ≤ opp.queueRiskScore
  risk_le : opp.queueRiskScore ≤ 3 / 2
  likely : 45 / 100 - 35 / 100 * opp.queueRiskScore ≤ opp.fillProbability
  unlikely : opp.fillProbability ≤ 105 / 100 - 35 / 100 * opp.queueRiskScore
  time : opp.expectedFillTimeMs = pyInt (cfg.makerOrderTimeoutMs *
    clamp (12 / 10 - opp.fillProbability + opp.queueRiskScore * (4 / 10)) (25 / 100) (25 / 10))

lemma le_clamp (value : ℚ) {low high : ℚ} : low ≤ clamp value low high := le_max_left _ _

lemma clamp_le (value : ℚ) {low high : ℚ} (h : low ≤ high) : clamp value low high ≤ high :=
  max_le h (min_le_left _ _)

/-- The engine's estimates of the queue risk are between zero and three halves. -/
lemma estimateQueueRisk_between (cfg quantity queue) :
    0 ≤ estimateQueueRisk cfg quantity queue ∧ estimateQueueRisk cfg quantity queue ≤ 3 / 2 := by
  unfold estimateQueueRisk
  split
  · constructor
    · exact zero_le_one
    · norm_num
  · exact ⟨le_clamp _, clamp_le _ (by norm_num)⟩

/-- The fill probability falls with the queue risk, within a band. -/
lemma estimateFillProbability_between {cfg spread threshold risk quantity depth buyRow sellRow}
    (risk_nonneg : 0 ≤ risk) (risk_le : risk ≤ 3 / 2) :
    45 / 100 - 35 / 100 * risk ≤
        estimateFillProbability cfg spread threshold risk quantity depth buyRow sellRow ∧
      estimateFillProbability cfg spread threshold risk quantity depth buyRow sellRow ≤
        105 / 100 - 35 / 100 * risk := by
  unfold estimateFillProbability
  dsimp only
  have depth₀ := @le_clamp (depth / max quantity (1 / 10 ^ 9) / (3 / 2)) 0 1
  have depth₁ := clamp_le (depth / max quantity (1 / 10 ^ 9) / (3 / 2)) (zero_le_one (α := ℚ))
  have edge₀ := le_max_right (clamp ((spread - threshold) / max cfg.fillProbabilityEdgeRefPct (1 / 100))
    (-1) 1) 0
  have edge₁ : max (clamp ((spread - threshold) / max cfg.fillProbabilityEdgeRefPct (1 / 100)) (-1) 1)
      0 ≤ 1 := max_le (clamp_le _ (by norm_num)) zero_le_one
  have source : ∀ row : TickerSnapshot,
      0 ≤ (if row.marketDataSource = .ws then 5 / 100 else 0 : ℚ) ∧
        (if row.marketDataSource = .ws then 5 / 100 else 0 : ℚ) ≤ 5 / 100 := by
    intro row
    split
    · constructor <;> norm_num
    · constructor <;> norm_num
  obtain ⟨buy₀, buy₁⟩ := source buyRow
  obtain ⟨sell₀, sell₁⟩ := source sellRow
  generalize clamp (depth / max quantity (1 / 10 ^ 9) / (3 / 2)) 0 1 = d at *
  generalize max (clamp ((spread - threshold) / max cfg.fillProbabilityEdgeRefPct (1 / 100)) (-1) 1)
    0 = e at *
  constructor
  · refine le_max_of_le_right (le_min ?_ ?_)
    · linarith
    · linarith
  · refine max_le ?_ ((min_le_right _ _).trans ?_)
    · linarith
    · linarith

variable {cfg : BotConfig} {opp : Opportunity}

/-- What the engine emits is estimated so. -/
lemma emitted_estimated (style : cfg.executionStyle = .makerTaker) (emitted : Emitted cfg opp) :
    Estimated cfg opp := by
  obtain ⟨ewma, buyRow, sellRow, timestampMs, _, rfl⟩ := emitted
  have maker : executionStyle cfg = .makerTaker := if_pos style
  have estimates : makerEstimates cfg ewma (legsOf cfg ewma buyRow sellRow) buyRow sellRow = _ :=
    if_pos maker
  obtain ⟨risk₀, risk₁⟩ := estimateQueueRisk_between cfg
    (quantity cfg (legsOf cfg ewma buyRow sellRow) buyRow sellRow)
    (legsOf cfg ewma buyRow sellRow).makerQueueBase
  have probability := @estimateFillProbability_between cfg
    (legsOf cfg ewma buyRow sellRow).netSpreadPct
    (thresholdPct cfg ewma (legsOf cfg ewma buyRow sellRow) buyRow sellRow) _
    (quantity cfg (legsOf cfg ewma buyRow sellRow) buyRow sellRow)
    (legsOf cfg ewma buyRow sellRow).takerDepthBase buyRow sellRow risk₀ risk₁
  unfold opportunityOf
  dsimp only
  rw [estimates]
  exact ⟨risk₀, risk₁, probability.1, probability.2, rfl⟩

/-- When a leg is too slow, by its estimates. -/
lemma timedOut_iff (est : Estimated cfg opp) (timeout : 0 < cfg.makerOrderTimeoutMs) :
    timedOut cfg opp ↔
      1 / (cfg.makerOrderTimeoutMs : ℚ) + opp.fillProbability ≤ 2 / 10 + 4 / 10 * opp.queueRiskScore := by
  have one : (1 : ℚ) ≤ cfg.makerOrderTimeoutMs := by exact_mod_cast timeout
  have pos : (0 : ℚ) < cfg.makerOrderTimeoutMs := zero_lt_one.trans_le one
  have short : 1 / (cfg.makerOrderTimeoutMs : ℚ) ≤ 1 := (div_le_one pos).2 one
  have long : 0 < 1 / (cfg.makerOrderTimeoutMs : ℚ) := one_div_pos.2 pos
  rw [timedOut, est.time]
  generalize hshare : 12 / 10 - opp.fillProbability + opp.queueRiskScore * (4 / 10) = share
  have nonneg : 0 ≤ (cfg.makerOrderTimeoutMs : ℚ) * clamp share (25 / 100) (25 / 10) :=
    mul_nonneg pos.le ((by norm_num : (0 : ℚ) ≤ 25 / 100).trans (le_clamp share))
  rw [pyInt, if_pos nonneg, ← Int.add_one_le_iff, Int.le_floor, Int.cast_add, Int.cast_one]
  -- the limits of the share are out of reach of one more millisecond
  have reach : (cfg.makerOrderTimeoutMs : ℚ) + 1 ≤
      cfg.makerOrderTimeoutMs * clamp share (25 / 100) (25 / 10) ↔
        1 + 1 / (cfg.makerOrderTimeoutMs : ℚ) ≤ clamp share (25 / 100) (25 / 10) := by
    have limit : (cfg.makerOrderTimeoutMs : ℚ) + 1 =
        cfg.makerOrderTimeoutMs * (1 + 1 / cfg.makerOrderTimeoutMs) := by
      rw [mul_add, mul_one, mul_one_div_cancel pos.ne']
    rw [limit]
    exact mul_le_mul_iff_right₀ pos
  rw [reach, clamp, le_max_iff, le_min_iff]
  constructor
  · rintro (h | ⟨_, h⟩)
    · linarith
    · linarith
  · intro h
    exact .inr ⟨by linarith, by linarith⟩

/-- Up to one third, the queue risk leaves a probability of one third at least. -/
lemma fillProbabilityAfter_ge (est : Estimated cfg opp) (low : opp.queueRiskScore ≤ 1 / 3) (k : ℕ) :
    min (99 / 100) (1 / 3 + k * cfg.makerRequoteFillBoost) ≤ fillProbabilityAfter cfg opp k := by
  have likely := est.likely
  have start : 1 / 3 ≤ clamp opp.fillProbability 0 (99 / 100) :=
    le_max_of_le_right (le_min (by norm_num) (by linarith))
  exact min_le_min_left _ (add_le_add_left start _)

/-- Which maker orders can fill. In every run of engine and executor, when the executor admits what the
engine has issued, the order is cancelled unless it is in time by its queue risk and its fill probability,
and likely enough after the last requote. Up to a risk of one third it is always in time, however few
requotes it may take, and fills if so many requotes can lift one third to the least probability; and from a
risk of 17/15 on, and a little more for a short time limit, it is cancelled, however many requotes it may
take. -/
theorem maker_fills {cfg} (style : cfg.executionStyle = .makerTaker)
    (timeout : 0 < cfg.makerOrderTimeoutMs) (hboost : 0 ≤ cfg.makerRequoteFillBoost)
    (engine₀ : OpportunityEngine) (s₀ : PaperExecutor) {ops : List SystemOp}
    (from_scan : (machine cfg).Along FromScan ⟨engine₀, s₀, []⟩ ops) {opp nowTs base}
    (issued : opp ∈ ((machine cfg).run ⟨engine₀, s₀, []⟩ ops).issued)
    (adm : Admitted cfg ((machine cfg).run ⟨engine₀, s₀, []⟩ ops).executor nowTs opp base) :
    ∃ r t, execute cfg ((machine cfg).run ⟨engine₀, s₀, []⟩ ops).executor nowTs opp = .ok (r, t) ∧
      (r.reason ≠ .makerTimeoutCancelled ↔
        2 / 10 + 4 / 10 * opp.queueRiskScore <
            1 / (cfg.makerOrderTimeoutMs : ℚ) + opp.fillProbability ∧
          cfg.makerMinFillProbability ≤ fillProbabilityAfter cfg opp (maxRequotes cfg)) ∧
      (opp.queueRiskScore ≤ 1 / 3 → ¬timedOut cfg opp) ∧
      (opp.queueRiskScore ≤ 1 / 3 → cfg.makerMinFillProbability ≤
          min (99 / 100) (1 / 3 + maxRequotes cfg * cfg.makerRequoteFillBoost) →
        r.reason ≠ .makerTimeoutCancelled) ∧
      (17 / 15 + 4 / 3 * (1 / (cfg.makerOrderTimeoutMs : ℚ)) ≤ opp.queueRiskScore →
        r.reason = .makerTimeoutCancelled) := by
  have sound := Machine.inv_run (I := Sound cfg) (s := ⟨engine₀, s₀, []⟩)
    (fun _ h => absurd h List.not_mem_nil) (fun sys op hs _ => hs.next op) from_scan
  have emitted := sound opp issued
  have est := emitted_estimated style emitted
  have maker : opp.executionStyle = .makerTaker := by
    obtain ⟨_, _, _, _, _, rfl⟩ := emitted
    exact if_pos style
  have long : 0 < 1 / (cfg.makerOrderTimeoutMs : ℚ) :=
    one_div_pos.2 (Int.cast_pos.2 timeout)
  have cancelled := (@executeMakerTaker_requoted cfg
    ((machine cfg).run ⟨engine₀, s₀, []⟩ ops).executor opp nowTs base _ _ rfl).cancelled
  have filled := makerLoop_filled_iff hboost opp
  rw [← not_lt, show (cfg.makerOrderTimeoutMs < opp.expectedFillTimeMs ↔ _) from timedOut_iff est timeout,
    not_le] at filled
  have exact_iff := (not_congr cancelled).trans ((Bool.not_eq_false _).to_iff.trans filled)
  refine ⟨_, _, execute_makerTaker adm maker, exact_iff, fun low => ?_, fun low enough => ?_,
    fun high => ?_⟩
  · have likely := est.likely
    rw [timedOut_iff est timeout, not_le]
    linarith
  · have likely := est.likely
    refine exact_iff.2 ⟨by linarith, enough.trans (fillProbabilityAfter_ge est low _)⟩
  · have unlikely := est.unlikely
    refine not_not.1 fun other => ?_
    have inTime := (exact_iff.1 other).1
    linarith

/-- The default configuration, with maker orders. -/
def makerConfig : BotConfig := { defaultConfig with executionStyle := .makerTaker }

/-- What it finds in the sample market has a low queue risk, is in time, and fills. -/
theorem maker_fills_sample :
    ∃ s₀, PaperExecutor.init makerConfig = .ok s₀ ∧ ∃ opp r t, opp.queueRiskScore ≤ 1 / 3 ∧
      ¬timedOut makerConfig opp ∧
      execute makerConfig ((machine makerConfig).run ⟨OpportunityEngine.init makerConfig, s₀, []⟩
        [.scan sampleMarket fun _ => 1]).executor 1 opp = .ok (r, t) ∧
      r.reason ≠ .makerTimeoutCancelled := by
  have found : ((findOpportunities makerConfig (OpportunityEngine.init makerConfig) sampleMarket
      fun _ => 1).1.toOption.getD []).any fun opp => opp.queueRiskScore ≤ 1 / 3 := by decide +kernel
  obtain ⟨opp, mem, low⟩ := List.any_eq_true.1 found
  have issued : opp ∈ ([] ++ (findOpportunities makerConfig (OpportunityEngine.init makerConfig)
      sampleMarket fun _ => 1).1.toOption.getD []) := mem
  have works : ((findOpportunities makerConfig (OpportunityEngine.init makerConfig) sampleMarket
      fun _ => 1).1.toOption.getD []).all fun opp => (PaperExecutor.init makerConfig).toOption.any
        fun s₀ => (execute makerConfig s₀ 1 opp).toOption.any fun x => x.1.success := by
    decide +kernel
  obtain ⟨s₀, hinit, h⟩ := Loop.exists_ok_of_any (List.all_eq_true.1 works opp mem)
  obtain ⟨⟨r, t⟩, e, ok⟩ := Loop.exists_ok_of_any h
  obtain ⟨base, _, adm, _⟩ := (execute_call e).success_iff.1 ok
  obtain ⟨r', t', e', _, inTime, fills, _⟩ := @maker_fills makerConfig rfl (by decide +kernel)
    (by decide +kernel) (OpportunityEngine.init makerConfig) s₀ [.scan sampleMarket fun _ => 1]
    ⟨trivial, trivial⟩ opp 1 base issued adm
  have low := of_decide_eq_true low
  exact ⟨s₀, hinit, opp, r', t', low, inTime low, e', fills low (by decide +kernel)⟩

end System

end ArbBot
