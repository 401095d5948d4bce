import ArbBot.Executor.Ledger
import ArbBot.Lib.Retry

/-!
# The cancel-requote loop

The loop of `_execute_maker_taker` is a bounded retry (`makerLoop_ends`): it tries the fill
probability, raises it by `maker_requote_fill_boost` as long as the try fails, and gives up after
`maxRequotes` requotes. The probability after `k` requotes has a closed form, since it saturates at
0.99 (`boost_iterate`), and with it the loop: `makerLoop_filled_iff`, `makerLoop_requotes` and
`makerLoop_gives_up`. `maker_requotes` says what a call makes of it, and that a better probability, a
larger boost or more requotes never turn a success into a failure or a worse trade.
-/

namespace ArbBot.PaperExecutor

/-! ## Closed form -/

/-- The fill probability after `k` requotes. -/
def fillProbabilityAfter (cfg : BotConfig) (opp : Opportunity) (k : ℕ) : ℚ :=
  min (99 / 100) (clamp opp.fillProbability 0 (99 / 100) + k * cfg.makerRequoteFillBoost)

/-- The number of requotes that the loop may make. -/
def maxRequotes (cfg : BotConfig) : ℕ := (max 0 cfg.makerMaxRequotes).toNat

/-- A try fills at the probability `p`. -/
def Fills (cfg : BotConfig) (opp : Opportunity) (p : ℚ) : Prop :=
  cfg.makerMinFillProbability ≤ p ∧ ¬timedOut cfg opp

instance (cfg : BotConfig) (opp : Opportunity) : DecidablePred (Fills cfg opp) :=
  fun _ => inferInstanceAs (Decidable (_ ∧ _))

/-- The loop is a series of retries. -/
lemma makerAttempts_eq (cfg : BotConfig) (opp : Opportunity) (n : ℕ) (p : ℚ) (r : ℕ) :
    makerAttempts cfg opp n p r =
      ⟨(Retry.attempts (Fills cfg opp) (boost cfg) n p r).done,
        (Retry.attempts (Fills cfg opp) (boost cfg) n p r).last,
        (Retry.attempts (Fills cfg opp) (boost cfg) n p r).retries⟩ := by
  induction n generalizing p r with
  | zero => rfl
  | succ n ih =>
    rw [makerAttempts, Retry.attempts]
    by_cases fills : Fills cfg opp p
    · rw [if_pos fills]
      exact if_pos fills
    · rw [if_neg fills]
      refine (if_neg fills).trans ?_
      split
      · rfl
      · exact ih (boost cfg p) (r + 1)

lemma attempts_eq (cfg : BotConfig) :
    (max 1 (1 + cfg.makerMaxRequotes)).toNat = maxRequotes cfg + 1 := by
  unfold maxRequotes
  omega

/-- The retries that the loop makes. -/
abbrev series (cfg : BotConfig) (opp : Opportunity) : Retry.Outcome ℚ :=
  Retry.attempts (Fills cfg opp) (boost cfg) (maxRequotes cfg + 1)
    (clamp opp.fillProbability 0 (99 / 100)) 0

lemma makerLoop_eq (cfg : BotConfig) (opp : Opportunity) :
    makerLoop cfg opp = ⟨(series cfg opp).done, (series cfg opp).last, (series cfg opp).retries⟩ := by
  rw [makerLoop, attempts_eq]
  exact makerAttempts_eq ..

lemma clamp_probability_nonneg (p : ℚ) : 0 ≤ clamp p 0 (99 / 100) := le_max_left _ _

lemma clamp_probability_le (p : ℚ) : clamp p 0 (99 / 100) ≤ 99 / 100 :=
  max_le (by norm_num) (min_le_left _ _)

lemma clamp_probability_mono {p p' : ℚ} (h : p ≤ p') :
    clamp p 0 (99 / 100) ≤ clamp p' 0 (99 / 100) :=
  max_le_max_left _ (min_le_min_left _ h)

/-- The probabilities that the loop tries. -/
lemma boost_iterate {cfg : BotConfig} (hboost : 0 ≤ cfg.makerRequoteFillBoost) (opp : Opportunity)
    (k : ℕ) :
    (boost cfg)^[k] (clamp opp.fillProbability 0 (99 / 100)) = fillProbabilityAfter cfg opp k := by
  induction k with
  | zero =>
    rw [fillProbabilityAfter, Nat.cast_zero, zero_mul, add_zero]
    exact (min_eq_right (clamp_probability_le _)).symm
  | succ k ih =>
    have hstart := clamp_probability_nonneg opp.fillProbability
    have hsum : 0 ≤ (k : ℚ) * cfg.makerRequoteFillBoost := mul_nonneg k.cast_nonneg hboost
    have hp : 0 ≤ fillProbabilityAfter cfg opp k := le_min (by norm_num) (by linarith)
    rw [Function.iterate_succ_apply', ih]
    calc boost cfg (fillProbabilityAfter cfg opp k)
        = min (99 / 100) (fillProbabilityAfter cfg opp k + cfg.makerRequoteFillBoost) :=
          max_eq_right (le_min (by norm_num) (by linarith))
      _ = min (99 / 100) (min (99 / 100 + cfg.makerRequoteFillBoost)
            (clamp opp.fillProbability 0 (99 / 100) + k * cfg.makerRequoteFillBoost
              + cfg.makerRequoteFillBoost)) := by
          rw [fillProbabilityAfter, ← min_add_add_right]
      _ = min (99 / 100) (clamp opp.fillProbability 0 (99 / 100) + k * cfg.makerRequoteFillBoost
            + cfg.makerRequoteFillBoost) := by
          rw [← min_assoc, min_eq_left (le_add_of_nonneg_right hboost)]
      _ = fillProbabilityAfter cfg opp (k + 1) := by
          rw [fillProbabilityAfter, Nat.cast_succ, add_one_mul, add_assoc]

lemma fillProbabilityAfter_mono {cfg : BotConfig} (hboost : 0 ≤ cfg.makerRequoteFillBoost)
    (opp : Opportunity) : Monotone (fillProbabilityAfter cfg opp) := fun j k h => by
  have hsum : (j : ℚ) * cfg.makerRequoteFillBoost ≤ k * cfg.makerRequoteFillBoost :=
    mul_le_mul_of_nonneg_right (Nat.cast_le.2 h) hboost
  exact min_le_min_left _ (add_le_add_right hsum _)

/-- The maker leg fills exactly when it is in time and the last probability is good enough. -/
lemma makerLoop_filled_iff {cfg : BotConfig} (hboost : 0 ≤ cfg.makerRequoteFillBoost)
    (opp : Opportunity) :
    (makerLoop cfg opp).filled = true ↔ opp.expectedFillTimeMs ≤ cfg.makerOrderTimeoutMs ∧
      cfg.makerMinFillProbability ≤ fillProbabilityAfter cfg opp (maxRequotes cfg) := by
  have ends : (series cfg opp).done = true ↔ _ := (Retry.attempts_ends ..).done_iff
  rw [makerLoop_eq, ends]
  simp only [boost_iterate hboost, Fills, timedOut, not_lt]
  constructor
  · rintro ⟨k, hk, good, inTime⟩
    exact ⟨inTime, good.trans (fillProbabilityAfter_mono hboost opp hk)⟩
  · exact fun ⟨inTime, good⟩ => ⟨_, le_rfl, good, inTime⟩

/-- A maker leg that fills was requoted up to the first probability that is good enough. -/
lemma makerLoop_requotes {cfg : BotConfig} (hboost : 0 ≤ cfg.makerRequoteFillBoost)
    {opp : Opportunity} (filled : (makerLoop cfg opp).filled = true) :
    IsLeast {k | cfg.makerMinFillProbability ≤ fillProbabilityAfter cfg opp k}
      (makerLoop cfg opp).requotes := by
  have inTime := ((makerLoop_filled_iff hboost opp).1 filled).1
  rw [makerLoop_eq] at filled ⊢
  have least := (Retry.attempts_ends ..).isLeast filled
  simpa only [boost_iterate hboost, Fills, timedOut, not_lt, inTime, and_true] using least

/-- A maker leg that does not fill was requoted as often as it may. -/
lemma makerLoop_gives_up {cfg : BotConfig} {opp : Opportunity}
    (unfilled : (makerLoop cfg opp).filled = false) :
    (makerLoop cfg opp).requotes = maxRequotes cfg := by
  rw [makerLoop_eq] at unfilled ⊢
  exact (Retry.attempts_ends ..).retries_eq unfilled

/-! ## The calls that reach the loop -/

/-- An admitted maker-taker opportunity reaches `_execute_maker_taker`. -/
lemma execute_makerTaker {cfg s nowTs opp base} (adm : Admitted cfg s nowTs opp base)
    (style : opp.executionStyle = .makerTaker) :
    execute cfg s nowTs opp = .ok (executeMakerTaker cfg s opp nowTs base) := by
  obtain ⟨quote, split⟩ := adm.split
  obtain ⟨buyBal, hbuy, afford⟩ := adm.canBuy
  obtain ⟨sellBal, hsell, stocked⟩ := adm.canSell
  have free : ¬s.risk.blocked = true := by rw [adm.notBlocked]; exact Bool.false_ne_true
  unfold execute
  rw [if_neg free, if_neg adm.cooled, split, hbuy, hsell]
  dsimp only
  rw [if_neg (not_lt.2 afford), if_neg (not_lt.2 stocked), if_pos style]

/-- What a call that reaches the loop makes of it. -/
structure Requoted (cfg : BotConfig) (s : PaperExecutor) (opp : Opportunity) (r : TradeResult)
    (t : PaperExecutor) : Prop where
  requotes : t.risk.makerRequotes = s.risk.makerRequotes + (makerLoop cfg opp).requotes
  timeouts : t.risk.makerTimeouts =
    s.risk.makerTimeouts + if (makerLoop cfg opp).filled then 0 else 1
  cancelled : r.reason = .makerTimeoutCancelled ↔ (makerLoop cfg opp).filled = false

lemma executeMakerTaker_requoted {cfg s opp nowTs base r t}
    (e : executeMakerTaker cfg s opp nowTs base = (r, t)) : Requoted cfg s opp r t := by
  unfold executeMakerTaker at e
  dsimp only at e
  split at e
  case isTrue unfilled =>
    cases e
    exact ⟨by simp, by simp [unfilled], iff_of_true rfl unfilled⟩
  case isFalse filled =>
    have filled' : (makerLoop cfg opp).filled = true := by simpa using filled
    split at e
    case isTrue =>
      cases e
      exact ⟨by simp, by simp [filled'], iff_of_false (fun h => by cases h) filled⟩
    case isFalse =>
      unfold finalizeExecution at e
      split at e
      case isTrue =>
        cases e
        exact ⟨rfl, by simp [countSuccess, filled'], iff_of_false (fun h => by cases h) filled⟩
      case isFalse =>
        cases e
        exact ⟨by simp [countSuccess], by simp [countSuccess, filled'],
          iff_of_false (fun h => by cases h) filled⟩

/-! ## Better odds -/

/-- The configuration with another boost and another number of requotes. -/
def withRequotes (cfg : BotConfig) (b : ℚ) (m : ℤ) : BotConfig :=
  { cfg with makerRequoteFillBoost := b, makerMaxRequotes := m }

/-- The opportunity with another fill probability. -/
def withProbability (opp : Opportunity) (p : ℚ) : Opportunity := { opp with fillProbability := p }

lemma fillProbabilityAfter_le {cfg : BotConfig} {opp : Opportunity} {p b : ℚ} (m : ℤ)
    (hp : opp.fillProbability ≤ p) (hb : cfg.makerRequoteFillBoost ≤ b) (k : ℕ) :
    fillProbabilityAfter cfg opp k ≤
      fillProbabilityAfter (withRequotes cfg b m) (withProbability opp p) k :=
  min_le_min_left _ (add_le_add (clamp_probability_mono hp)
    (mul_le_mul_of_nonneg_left hb k.cast_nonneg))

/-- With better odds a maker leg that fills still fills, after no more requotes. -/
lemma makerLoop_mono {cfg : BotConfig} {opp : Opportunity} {p b : ℚ} {m : ℤ}
    (hboost : 0 ≤ cfg.makerRequoteFillBoost) (hp : opp.fillProbability ≤ p)
    (hb : cfg.makerRequoteFillBoost ≤ b) (hm : cfg.makerMaxRequotes ≤ m)
    (filled : (makerLoop cfg opp).filled = true) :
    (makerLoop (withRequotes cfg b m) (withProbability opp p)).filled = true ∧
      (makerLoop (withRequotes cfg b m) (withProbability opp p)).requotes ≤
        (makerLoop cfg opp).requotes := by
  have hboost' : 0 ≤ (withRequotes cfg b m).makerRequoteFillBoost := hboost.trans hb
  have hmax : maxRequotes cfg ≤ maxRequotes (withRequotes cfg b m) :=
    Int.toNat_le_toNat (max_le_max_left 0 hm)
  rw [makerLoop_eq] at filled
  rw [makerLoop_eq, makerLoop_eq]
  refine Retry.done_mono (fun k fills => ?_) hmax filled
  rw [boost_iterate hboost] at fills
  rw [boost_iterate hboost']
  exact ⟨fills.1.trans (fillProbabilityAfter_le m hp hb k), fills.2⟩

/-- Fewer requotes make a better trade. -/
lemma pnlAfter_antitone {cfg : BotConfig} {opp : Opportunity} {j k : ℕ} (hq : 0 ≤ opp.quantity)
    (hbuy : 0 ≤ opp.buyPrice) (hstep : 0 ≤ cfg.makerRequoteStepBps) (h : j ≤ k) :
    pnlAfter cfg opp k ≤ pnlAfter cfg opp j := by
  have hcost : 0 ≤ opp.quantity * opp.buyPrice * (cfg.makerRequoteStepBps / 10000) := by positivity
  exact sub_le_sub_left (mul_le_mul_of_nonneg_left (Nat.cast_le.2 h) hcost) _

/-- The PnL of a maker-taker trade: what the call answers and what it books. -/
lemma Call.makerTaker_pnl {cfg s nowTs opp r t} (call : Call cfg s nowTs opp r t)
    (style : opp.executionStyle = .makerTaker) (ok : r.success = true) :
    r.realizedPnlUsdt = pnlAfter cfg opp (makerLoop cfg opp).requotes ∧
      t.risk.realizedPnlUsdt = s.risk.realizedPnlUsdt +
        if cfg.mode = .dryRun then 0 else pnlAfter cfg opp (makerLoop cfg opp).requotes := by
  cases call with
  | refused => cases ok
  | rehearsed dry _ fill =>
    cases fill with
    | taker other => exact absurd style other
    | maker => exact ⟨rfl, by simp [countSuccess, dry]⟩
  | booked live _ fill =>
    cases fill with
    | taker other => exact absurd style other
    | maker => exact ⟨rfl, by simp [countSuccess, live]⟩

/-- With better odds a success stays a success, with no lower PnL. -/
lemma execute_mono {cfg s nowTs opp base r t} (adm : Admitted cfg s nowTs opp base)
    (style : opp.executionStyle = .makerTaker) (hq : 0 ≤ opp.quantity) (hbuy : 0 ≤ opp.buyPrice)
    (hboost : 0 ≤ cfg.makerRequoteFillBoost) (hstep : 0 ≤ cfg.makerRequoteStepBps)
    (e : execute cfg s nowTs opp = .ok (r, t)) (ok : r.success = true) {p b : ℚ} {m : ℤ}
    (hp : opp.fillProbability ≤ p) (hb : cfg.makerRequoteFillBoost ≤ b)
    (hm : cfg.makerMaxRequotes ≤ m) :
    ∃ r' t', execute (withRequotes cfg b m) s nowTs (withProbability opp p) = .ok (r', t') ∧
      r'.success = true ∧ r.realizedPnlUsdt ≤ r'.realizedPnlUsdt ∧
      t.risk.realizedPnlUsdt ≤ t'.risk.realizedPnlUsdt := by
  have call := execute_call e
  obtain ⟨_, _, _, fill⟩ := call.success_iff.1 ok
  obtain ⟨hpnl, hbooked⟩ := call.makerTaker_pnl style ok
  cases fill with
  | taker other => exact absurd style other
  | maker _ filled worth =>
    obtain ⟨filled', fewer⟩ := makerLoop_mono hboost hp hb hm filled
    have better : pnlAfter cfg opp (makerLoop cfg opp).requotes ≤
        pnlAfter (withRequotes cfg b m) (withProbability opp p)
          (makerLoop (withRequotes cfg b m) (withProbability opp p)).requotes :=
      pnlAfter_antitone hq hbuy hstep fewer
    have acc : Accepts (withRequotes cfg b m) s nowTs (withProbability opp p) :=
      ⟨base, _, ⟨adm.notBlocked, adm.cooled, adm.split, adm.canBuy, adm.canSell⟩,
        .maker style filled' (worth.imp_left fun pos => pos.trans_le better)⟩
    obtain ⟨r', t', e', ok'⟩ := execute_of_accepts acc
    obtain ⟨hpnl', hbooked'⟩ := (execute_call e').makerTaker_pnl style ok'
    refine ⟨r', t', e', ok', ?_, ?_⟩
    · rw [hpnl, hpnl']
      exact better
    · rw [hbooked, hbooked']
      refine add_le_add_right ?_ _
      change (if cfg.mode = .dryRun then _ else _) ≤ if cfg.mode = .dryRun then _ else _
      split
      · exact le_rfl
      · exact better

/-- The cancel-requote loop has its closed form and is monotone. When a maker-taker opportunity
reaches it, the maker leg fills exactly when it is in time and the probability after the last requote
is good enough; it has then been requoted up to the first good probability, and otherwise as often as
it may. The counters grow by the requotes made and by one for a leg that does not fill, and with a
better probability, a larger boost or more requotes a success stays one, with no lower PnL. -/
theorem maker_requotes {cfg s nowTs opp base} (adm : Admitted cfg s nowTs opp base)
    (style : opp.executionStyle = .makerTaker) (hq : 0 < opp.quantity) (hbuy : 0 < opp.buyPrice)
    (hboost : 0 ≤ cfg.makerRequoteFillBoost) (hstep : 0 ≤ cfg.makerRequoteStepBps) :
    ((makerLoop cfg opp).filled = true ↔ opp.expectedFillTimeMs ≤ cfg.makerOrderTimeoutMs ∧
      cfg.makerMinFillProbability ≤ fillProbabilityAfter cfg opp (maxRequotes cfg)) ∧
    ((makerLoop cfg opp).filled = true →
      IsLeast {k | cfg.makerMinFillProbability ≤ fillProbabilityAfter cfg opp k}
        (makerLoop cfg opp).requotes) ∧
    ((makerLoop cfg opp).filled = false → (makerLoop cfg opp).requotes = maxRequotes cfg) ∧
    ∃ r t, execute cfg s nowTs opp = .ok (r, t) ∧ Requoted cfg s opp r t ∧
      (r.success = true → ∀ p b m, opp.fillProbability ≤ p → cfg.makerRequoteFillBoost ≤ b →
        cfg.makerMaxRequotes ≤ m →
        ∃ r' t', execute (withRequotes cfg b m) s nowTs (withProbability opp p) = .ok (r', t') ∧
          r'.success = true ∧ r.realizedPnlUsdt ≤ r'.realizedPnlUsdt ∧
          t.risk.realizedPnlUsdt ≤ t'.risk.realizedPnlUsdt) := by
  have e := execute_makerTaker adm style
  refine ⟨makerLoop_filled_iff hboost opp, makerLoop_requotes hboost, makerLoop_gives_up,
    _, _, e, executeMakerTaker_requoted rfl, ?_⟩
  exact fun ok p b m hp hb hm => execute_mono adm style hq.le hbuy.le hboost hstep e ok hp hb hm

/-- A freshly built executor admits the sample route. -/
lemma sampleRoute_admitted : ∃ s₀, init defaultConfig = .ok s₀ ∧
    ∃ base, Admitted defaultConfig s₀ 0 sampleRoute base := by
  obtain ⟨s₀, hinit, h⟩ := Loop.exists_ok_of_any (x := init defaultConfig)
    (p := fun s₀ => (execute defaultConfig s₀ 0 sampleRoute).toOption.any fun p => p.1.success)
    (by decide +kernel)
  obtain ⟨⟨r, t⟩, e, ok⟩ := Loop.exists_ok_of_any h
  obtain ⟨base, _, adm, _⟩ := (execute_call e).success_iff.1 ok
  exact ⟨s₀, hinit, base, adm⟩

/-- The sample route fills after the least number of requotes that makes its probability good. -/
theorem maker_requotes_sample : ∃ s₀, init defaultConfig = .ok s₀ ∧
    ∃ r t, execute defaultConfig s₀ 0 sampleRoute = .ok (r, t) ∧
      Requoted defaultConfig s₀ sampleRoute r t ∧
      IsLeast {k | defaultConfig.makerMinFillProbability ≤
        fillProbabilityAfter defaultConfig sampleRoute k}
        (makerLoop defaultConfig sampleRoute).requotes := by
  obtain ⟨s₀, hinit, base, adm⟩ := sampleRoute_admitted
  obtain ⟨_, least, _, r, t, e, requoted, _⟩ := maker_requotes adm rfl (by norm_num [sampleRoute])
    (by norm_num [sampleRoute]) (by norm_num [defaultConfig]) (by norm_num [defaultConfig])
  exact ⟨s₀, hinit, r, t, e, requoted, least (by decide +kernel)⟩

end ArbBot.PaperExecutor
