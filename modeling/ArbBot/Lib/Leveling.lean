import Mathlib.Algebra.BigOperators.Field
import Mathlib.Algebra.Order.Archimedean.Basic
import Mathlib.Algebra.Order.BigOperators.Group.Finset
import Mathlib.Algebra.Order.Field.Basic
import Mathlib.Order.WellFounded
import Mathlib.Tactic.FieldSimp
import Mathlib.Tactic.Linarith
import Mathlib.Tactic.Ring

/-!
# Leveling

Holdings `h` over a finite set `S`, and shipments that bring them closer to their mean. A shipment
takes a gross amount from a source above a reference `a` and delivers at most as much to a target
below it, neither of them getting past `a` (`Levels`); what does not arrive is lost on the way.
`Levels.deviation_eq` says that the total deviation from `a` falls by what leaves and what arrives.

In a round the reference is the mean, the amount is the smaller one of the two distances, at least
the fraction `c` of the mean, and the fraction `f` of it is lost (`Round`). Then the mean itself
falls. `Rounds.deviation_le` says that the deviation pays for the amounts all the same,
`Rounds.mean_le_total` that at most half of the initial holdings can ever get lost, so that there
are finitely many rounds (`rounds_bounded`); and `Rounds.length_le` counts the rounds when nothing
is lost.
-/

namespace Leveling

variable {ι K : Type*} [Field K]

/-- The mean holding. -/
def mean (S : Finset ι) (h : ι → K) : K := (∑ i ∈ S, h i) / S.card

/-! ## Shipments -/

section Ship

variable [DecidableEq ι] {h : ι → K} {s t i : ι} {gross net : K}

/-- The holdings after a shipment. -/
def ship (h : ι → K) (s t : ι) (gross net : K) : ι → K :=
  fun i => h i - (if i = s then gross else 0) + (if i = t then net else 0)

lemma ship_source (hne : s ≠ t) : ship h s t gross net s = h s - gross := by
  simp [ship, hne]

lemma ship_target (hne : s ≠ t) : ship h s t gross net t = h t + net := by
  simp [ship, hne.symm]

lemma ship_other (hs : i ≠ s) (ht : i ≠ t) : ship h s t gross net i = h i := by
  simp [ship, hs, ht]

/-- A shipment changes a sum over the holdings in two places. -/
lemma sum_ship {S : Finset ι} (hs : s ∈ S) (ht : t ∈ S) (hne : s ≠ t) (φ : K → K) :
    ∑ i ∈ S, φ (ship h s t gross net i) = ∑ i ∈ S, φ (h i) +
      ((φ (h s - gross) - φ (h s)) + (φ (h t + net) - φ (h t))) := by
  have hdiff := Finset.sum_eq_add_of_mem (f := fun i => φ (ship h s t gross net i) - φ (h i))
    s t hs ht hne fun i _ hi => by simp only [ship_other hi.1 hi.2, sub_self]
  rw [Finset.sum_sub_distrib, ship_source hne, ship_target hne] at hdiff
  exact sub_eq_iff_eq_add'.1 hdiff

end Ship

variable [LinearOrder K]

/-- The total deviation of the holdings from a reference. -/
def deviation (S : Finset ι) (h : ι → K) (a : K) : K := ∑ i ∈ S, |h i - a|

/-- The number of holdings that differ from a reference. -/
def offCount (S : Finset ι) (h : ι → K) (a : K) : ℕ := (S.filter fun i => h i ≠ a).card

/-- The shipment brings source and target closer to `a`. -/
structure Levels (S : Finset ι) (h : ι → K) (a : K) (s t : ι) (gross net : K) : Prop where
  source : s ∈ S
  target : t ∈ S
  source_over : gross ≤ h s - a
  target_under : gross ≤ a - h t
  gross_pos : 0 < gross
  net_pos : 0 < net
  net_le : net ≤ gross

section Rounds

variable [DecidableEq ι] {S : Finset ι} {c f g : K} {h h' : ι → K} {s t : ι}

/-- A round ships the smaller one of the two distances to the mean, if both of them reach the
fraction `c` of it, and loses the fraction `f` on the way. -/
structure Round (S : Finset ι) (c f : K) (h : ι → K) (g : K) (h' : ι → K) (s t : ι) : Prop where
  source : s ∈ S
  target : t ∈ S
  gap_pos : 0 < mean S h * c
  source_over : mean S h * c ≤ h s - mean S h
  target_under : mean S h * c ≤ mean S h - h t
  gross_eq : g = min (h s - mean S h) (mean S h - h t)
  arrives : 0 < (1 - f) * g
  after : ∀ i ∈ S, h' i = ship h s t g ((1 - f) * g) i

/-- Some rounds in a row, with the amounts shipped. -/
inductive Rounds (S : Finset ι) (c f : K) (h : ι → K) : List K → (ι → K) → Prop where
  | nil : Rounds S c f h [] h
  | concat {gs g h' h'' s t} (rs : Rounds S c f h gs h') (r : Round S c f h' g h'' s t) :
      Rounds S c f h (gs ++ [g]) h''

lemma Round.gap_le (r : Round S c f h g h' s t) : mean S h * c ≤ g := by
  rw [r.gross_eq]
  exact le_min r.source_over r.target_under

lemma Round.gross_pos (r : Round S c f h g h' s t) : 0 < g := r.gap_pos.trans_le r.gap_le

end Rounds

variable [IsStrictOrderedRing K] {S : Finset ι} {h h' : ι → K} {a b c f g gross net : K} {s t : ι}

lemma Levels.ne (lv : Levels S h a s t gross net) : s ≠ t := by
  rintro rfl
  linarith [lv.source_over, lv.target_under, lv.gross_pos]

/-! ## The mean and the deviation from it -/

lemma card_mul_mean (hS : S.Nonempty) : (S.card : K) * mean S h = ∑ i ∈ S, h i :=
  mul_div_cancel₀ _ (Nat.cast_ne_zero.2 hS.card_pos.ne')

lemma deviation_nonneg (S : Finset ι) (h : ι → K) (a : K) : 0 ≤ deviation S h a :=
  Finset.sum_nonneg fun _ _ => abs_nonneg _

/-- The price of another reference. -/
lemma deviation_le_add (S : Finset ι) (h : ι → K) (a b : K) :
    deviation S h b ≤ deviation S h a + S.card * |a - b| := by
  rw [deviation, deviation, ← nsmul_eq_mul, ← Finset.sum_const, ← Finset.sum_add_distrib]
  exact Finset.sum_le_sum fun i _ => abs_sub_le (h i) a b

/-- The deviation from the mean is twice what lies above it. -/
lemma deviation_mean (hS : S.Nonempty) :
    deviation S h (mean S h) = 2 * ∑ i ∈ S, max (h i - mean S h) 0 := by
  have hbalance : ∑ i ∈ S, (h i - mean S h) = 0 := by
    rw [Finset.sum_sub_distrib, Finset.sum_const, nsmul_eq_mul, card_mul_mean hS, sub_self]
  have habs : ∀ x : K, |x| = 2 * max x 0 - x := by
    intro x
    rcases le_total 0 x with hx | hx
    · rw [abs_of_nonneg hx, max_eq_left hx]; ring
    · rw [abs_of_nonpos hx, max_eq_right hx]; ring
  rw [deviation, Finset.sum_congr rfl fun i _ => habs _, Finset.sum_sub_distrib, hbalance, sub_zero,
    Finset.mul_sum]

/-- Non-negative holdings deviate from their mean by at most twice what the others hold on average. -/
lemma deviation_mean_le (hS : S.Nonempty) (nn : ∀ i ∈ S, 0 ≤ h i) :
    deviation S h (mean S h) ≤ 2 * (∑ i ∈ S, h i - mean S h) := by
  have hmean : 0 ≤ mean S h := div_nonneg (Finset.sum_nonneg nn) (Nat.cast_nonneg _)
  -- some holding reaches the mean, and the part above the mean leaves it out
  obtain ⟨m, hm, hmax⟩ : ∃ m ∈ S, mean S h ≤ h m := by
    refine Finset.exists_le_of_sum_le hS ?_
    rw [Finset.sum_const, nsmul_eq_mul, card_mul_mean hS]
  rw [deviation_mean hS]
  refine mul_le_mul_of_nonneg_left ?_ zero_le_two
  classical
  rw [← Finset.add_sum_erase S _ hm, ← Finset.add_sum_erase S h hm,
    max_eq_left (sub_nonneg.2 hmax)]
  have hrest : ∑ i ∈ S.erase m, max (h i - mean S h) 0 ≤ ∑ i ∈ S.erase m, h i := by
    refine Finset.sum_le_sum fun i hi => max_le (sub_le_self _ hmean) ?_
    exact nn i (Finset.mem_of_mem_erase hi)
  linarith

/-- What an empty account lacks, another one has on top of the mean. -/
lemma exists_over_mean (ht : t ∈ S) (empty : h t = 0) (pos : 0 < ∑ i ∈ S, h i)
    (hc : c * (S.card - 1) ≤ 1) : ∃ i ∈ S, mean S h * (1 + c) ≤ h i := by
  classical
  have hsum : ∑ i ∈ S.erase t, h i = S.card * mean S h := by
    rw [card_mul_mean ⟨t, ht⟩, ← Finset.add_sum_erase S h ht, empty, zero_add]
  have hmean : 0 < mean S h := div_pos pos (Nat.cast_pos.2 (Finset.card_pos.2 ⟨t, ht⟩))
  have hothers : (S.erase t).Nonempty := by
    refine Finset.nonempty_of_sum_ne_zero (f := h) ?_
    rw [hsum, card_mul_mean ⟨t, ht⟩]
    exact pos.ne'
  have hcard : ((S.erase t).card : K) = S.card - 1 := by
    rw [Finset.card_erase_of_mem ht, Nat.cast_sub (Finset.card_pos.2 ⟨t, ht⟩), Nat.cast_one]
  obtain ⟨i, hi, hle⟩ : ∃ i ∈ S.erase t, mean S h * (1 + c) ≤ h i := by
    refine Finset.exists_le_of_sum_le hothers ?_
    rw [Finset.sum_const, nsmul_eq_mul, hcard, hsum]
    have := mul_le_mul_of_nonneg_left hc hmean.le
    linarith
  exact ⟨i, Finset.mem_of_mem_erase hi, hle⟩

/-! ## Leveling shipments -/

variable [DecidableEq ι]

lemma Levels.sum_eq (lv : Levels S h a s t gross net) :
    ∑ i ∈ S, ship h s t gross net i = ∑ i ∈ S, h i - (gross - net) := by
  have hsum : ∑ i ∈ S, id (ship h s t gross net i) = ∑ i ∈ S, id (h i) +
      ((id (h s - gross) - id (h s)) + (id (h t + net) - id (h t))) :=
    sum_ship lv.source lv.target lv.ne id
  simp only [id] at hsum
  linarith

/-- The deviation falls by what leaves the source and what arrives at the target. -/
theorem Levels.deviation_eq (lv : Levels S h a s t gross net) :
    deviation S (ship h s t gross net) a = deviation S h a - (gross + net) := by
  have hover := lv.source_over
  have hunder := lv.target_under
  have hpos := lv.gross_pos
  have hle := lv.net_le
  rw [deviation, sum_ship lv.source lv.target lv.ne fun x => |x - a|, deviation,
    abs_of_nonneg (by linarith : 0 ≤ h s - gross - a), abs_of_nonneg (by linarith : 0 ≤ h s - a),
    abs_of_nonpos (by linarith : h t + net - a ≤ 0), abs_of_nonpos (by linarith : h t - a ≤ 0)]
  ring

/-- No holding gets past the extremes. -/
lemma Levels.le_of_le (lv : Levels S h a s t gross net) (hb : ∀ i ∈ S, h i ≤ b) :
    ∀ i ∈ S, ship h s t gross net i ≤ b := by
  intro i hi
  rcases eq_or_ne i s with rfl | his
  · rw [ship_source lv.ne]
    linarith [hb i hi, lv.gross_pos]
  · rcases eq_or_ne i t with rfl | hit
    · rw [ship_target lv.ne]
      linarith [hb s lv.source, lv.source_over, lv.target_under, lv.net_le, lv.gross_pos]
    · rw [ship_other his hit]
      exact hb i hi

lemma Levels.ge_of_ge (lv : Levels S h a s t gross net) (hb : ∀ i ∈ S, b ≤ h i) :
    ∀ i ∈ S, b ≤ ship h s t gross net i := by
  intro i hi
  rcases eq_or_ne i t with rfl | hit
  · rw [ship_target lv.ne]
    linarith [hb i hi, lv.net_pos]
  · rcases eq_or_ne i s with rfl | his
    · rw [ship_source lv.ne]
      linarith [hb t lv.target, lv.source_over, lv.target_under, lv.gross_pos]
    · rw [ship_other his hit]
      exact hb i hi

/-! ## Rounds -/

/-- A round levels toward the mean. -/
lemma Round.levels (r : Round S c f h g h' s t) (hf : 0 ≤ f) :
    Levels S h (mean S h) s t g ((1 - f) * g) where
  source := r.source
  target := r.target
  source_over := r.gross_eq.le.trans (min_le_left _ _)
  target_under := r.gross_eq.le.trans (min_le_right _ _)
  gross_pos := r.gross_pos
  net_pos := r.arrives
  net_le := by linarith [mul_nonneg hf r.gross_pos.le]

lemma Round.sum_eq (r : Round S c f h g h' s t) (hf : 0 ≤ f) :
    ∑ i ∈ S, h' i = ∑ i ∈ S, h i - f * g := by
  rw [Finset.sum_congr rfl r.after, (r.levels hf).sum_eq]
  ring

/-- The deviation from the mean falls, although the mean moves. -/
lemma Round.deviation_le (r : Round S c f h g h' s t) (hf : 0 ≤ f) :
    deviation S h' (mean S h') + 2 * (1 - f) * g ≤ deviation S h (mean S h) := by
  have hcard : (0 : K) < S.card := Nat.cast_pos.2 (Finset.card_pos.2 ⟨s, r.source⟩)
  have hlevel : deviation S h' (mean S h) = deviation S h (mean S h) - (g + (1 - f) * g) := by
    rw [← (r.levels hf).deviation_eq]
    exact Finset.sum_congr rfl fun i hi => by rw [r.after i hi]
  have hmean : mean S h - mean S h' = f * g / S.card := by
    rw [mean, mean, r.sum_eq hf]
    ring
  have hmove : S.card * |mean S h - mean S h'| = f * g := by
    rw [hmean, abs_of_nonneg (div_nonneg (mul_nonneg hf r.gross_pos.le) hcard.le),
      mul_div_cancel₀ _ hcard.ne']
  have hle := deviation_le_add S h' (mean S h) (mean S h')
  linarith

lemma Rounds.sum_eq {gs} (rs : Rounds S c f h gs h') (hf : 0 ≤ f) :
    ∑ i ∈ S, h' i = ∑ i ∈ S, h i - f * gs.sum := by
  induction rs with
  | nil => simp
  | concat _ r ih =>
    rw [r.sum_eq hf, ih, List.sum_append, List.sum_singleton]
    ring

/-- The amounts of some rounds are paid for by the deviation. -/
theorem Rounds.deviation_le {gs} (rs : Rounds S c f h gs h') (hf : 0 ≤ f) :
    deviation S h' (mean S h') + 2 * (1 - f) * gs.sum ≤ deviation S h (mean S h) := by
  induction rs with
  | nil => simp
  | concat _ r ih =>
    have hstep := r.deviation_le hf
    rw [List.sum_append, List.sum_singleton]
    linarith

lemma Rounds.sum_le {gs} (rs : Rounds S c f h gs h') (hf : 0 ≤ f) :
    2 * (1 - f) * gs.sum ≤ deviation S h (mean S h) := by
  have hle := rs.deviation_le hf
  linarith [deviation_nonneg S h' (mean S h')]

lemma Rounds.sum_nonneg {gs} (rs : Rounds S c f h gs h') : 0 ≤ gs.sum := by
  induction rs with
  | nil => simp
  | concat _ r ih =>
    rw [List.sum_append, List.sum_singleton]
    exact add_nonneg ih r.gross_pos.le

/-- When at most half of an amount is lost, the holdings never fall below their initial mean. -/
theorem Rounds.mean_le_total {gs} (rs : Rounds S c f h gs h') (hS : S.Nonempty)
    (nn : ∀ i ∈ S, 0 ≤ h i) (hf : 0 ≤ f) (hf' : f ≤ 1 / 2) : mean S h ≤ ∑ i ∈ S, h' i := by
  have hpaid := rs.sum_le hf
  have hdev := deviation_mean_le hS nn
  have hlost : 2 * (f * gs.sum) ≤ 2 * (1 - f) * gs.sum := by
    have := mul_le_mul_of_nonneg_right (by linarith : 2 * f ≤ 2 * (1 - f)) rs.sum_nonneg
    linarith
  rw [rs.sum_eq hf]
  linarith

/-- Then no amount is smaller than a fixed fraction of the initial mean. -/
lemma Rounds.length_mul_le {gs} (rs : Rounds S c f h gs h') (hS : S.Nonempty)
    (nn : ∀ i ∈ S, 0 ≤ h i) (hc : 0 ≤ c) (hf : 0 ≤ f) (hf' : f ≤ 1 / 2) :
    gs.length * (mean S h / S.card * c) ≤ gs.sum := by
  induction rs with
  | nil => simp
  | concat rs r ih =>
    have hmean := div_le_div_of_nonneg_right (rs.mean_le_total hS nn hf hf')
      (Nat.cast_nonneg (α := K) S.card)
    have hgap := (mul_le_mul_of_nonneg_right hmean hc).trans r.gap_le
    rw [List.length_append, List.length_singleton, List.sum_append, List.sum_singleton]
    push_cast
    linarith

/-- There are finitely many rounds. -/
theorem rounds_bounded [Archimedean K] (nn : ∀ i ∈ S, 0 ≤ h i) (hc : 0 < c) (hf : 0 ≤ f)
    (hf' : f ≤ 1 / 2) : ∃ n : ℕ, ∀ gs h', Rounds S c f h gs h' → gs.length ≤ n := by
  rcases S.eq_empty_or_nonempty with rfl | hS
  · refine ⟨0, fun gs h' rs => ?_⟩
    cases rs with
    | nil => exact le_rfl
    | concat _ r => exact absurd r.source (Finset.notMem_empty _)
  · have hcard : (0 : K) < S.card := Nat.cast_pos.2 hS.card_pos
    have hmean : 0 ≤ mean S h := div_nonneg (Finset.sum_nonneg nn) hcard.le
    rcases hmean.eq_or_lt with hzero | hpos
    · -- nothing to ship
      refine ⟨0, fun gs h' rs => ?_⟩
      cases rs with
      | nil => exact le_rfl
      | @concat gs g h' h'' s t rs r =>
        have htotal : ∑ i ∈ S, h i = 0 := by rw [← card_mul_mean hS, ← hzero, mul_zero]
        have hlost := mul_nonneg hf rs.sum_nonneg
        have hle : mean S h' ≤ 0 := by
          rw [mean, rs.sum_eq hf, htotal]
          exact div_nonpos_of_nonpos_of_nonneg (by linarith) hcard.le
        exact absurd r.gap_pos (not_lt.2 (mul_nonpos_of_nonpos_of_nonneg hle hc.le))
    · have hunit : 0 < mean S h / S.card * c := mul_pos (div_pos hpos hcard) hc
      obtain ⟨n, hn⟩ := exists_nat_gt (deviation S h (mean S h) / (mean S h / S.card * c))
      refine ⟨n, fun gs h' rs => ?_⟩
      have hlen := rs.length_mul_le hS nn hc.le hf hf'
      have hsum : gs.sum ≤ 2 * (1 - f) * gs.sum :=
        le_mul_of_one_le_left rs.sum_nonneg (by linarith)
      have hle : gs.length * (mean S h / S.card * c) ≤ deviation S h (mean S h) :=
        hlen.trans (hsum.trans (rs.sum_le hf))
      exact_mod_cast ((le_div_iff₀ hunit).2 hle).trans hn.le

/-! ## Rounds without loss -/

/-- A round brings the source or the target to the mean. -/
lemma Round.offCount_lt (r : Round S c 0 h g h' s t) :
    offCount S h' (mean S h) < offCount S h (mean S h) ∧ 2 ≤ offCount S h (mean S h) := by
  have lv := r.levels le_rfl
  have hs : h s ≠ mean S h := fun e => by linarith [lv.source_over, lv.gross_pos]
  have ht : h t ≠ mean S h := fun e => by linarith [lv.target_under, lv.gross_pos]
  have hsource : h' s = h s - g := by rw [r.after s r.source, ship_source lv.ne]
  have htarget : h' t = h t + g := by
    rw [r.after t r.target, ship_target lv.ne, sub_zero, one_mul]
  constructor
  · refine Finset.card_lt_card (Finset.ssubset_iff_subset_ne.2 ⟨fun i hi => ?_, fun e => ?_⟩)
    · -- all others are where they were
      obtain ⟨hiS, hi⟩ := Finset.mem_filter.1 hi
      refine Finset.mem_filter.2 ⟨hiS, ?_⟩
      rcases eq_or_ne i s with rfl | his
      · exact hs
      · rcases eq_or_ne i t with rfl | hit
        · exact ht
        · rwa [r.after i hiS, ship_other his hit] at hi
    · have hsin : s ∈ S.filter fun i => h' i ≠ mean S h :=
        e ▸ Finset.mem_filter.2 ⟨r.source, hs⟩
      have htin : t ∈ S.filter fun i => h' i ≠ mean S h :=
        e ▸ Finset.mem_filter.2 ⟨r.target, ht⟩
      rcases min_choice (h s - mean S h) (mean S h - h t) with hmin | hmin
      · refine (Finset.mem_filter.1 hsin).2 ?_
        rw [hsource, r.gross_eq, hmin, sub_sub_cancel]
      · refine (Finset.mem_filter.1 htin).2 ?_
        rw [htarget, r.gross_eq, hmin, add_sub_cancel]
  · refine le_trans (Finset.card_pair lv.ne).ge (Finset.card_le_card fun i hi => ?_)
    rcases Finset.mem_insert.1 hi with rfl | hi
    · exact Finset.mem_filter.2 ⟨r.source, hs⟩
    · rw [Finset.mem_singleton.1 hi]
      exact Finset.mem_filter.2 ⟨r.target, ht⟩

/-- Without loss there are fewer rounds than holdings. -/
theorem Rounds.length_le {gs} (rs : Rounds S c 0 h gs h') : gs.length ≤ S.card - 1 := by
  suffices inv : mean S h' = mean S h ∧
      gs.length + (offCount S h' (mean S h) - 1) ≤ S.card - 1 from (Nat.le_add_right _ _).trans inv.2
  induction rs with
  | nil =>
    refine ⟨rfl, ?_⟩
    rw [List.length_nil, Nat.zero_add]
    exact Nat.sub_le_sub_right (Finset.card_filter_le _ _) 1
  | @concat gs g h' h'' s t _ r ih =>
    obtain ⟨hmean, hlen⟩ := ih
    have hkeep : mean S h'' = mean S h' := by
      rw [mean, r.sum_eq le_rfl, zero_mul, sub_zero, ← mean]
    have hless := r.offCount_lt
    rw [hmean] at hless
    refine ⟨hkeep.trans hmean, ?_⟩
    rw [List.length_append, List.length_singleton]
    omega

/-! ## Sequences that come to rest -/

/-- When the parts of a sequence that are something are bounded in number, they come to an end. -/
lemma eventually_none {α : Type*} {f : ℕ → Option α} {n : ℕ}
    (bounded : ∀ k, ((List.range k).filterMap f).length ≤ n) : ∃ K, ∀ k, K ≤ k → f k = none := by
  obtain ⟨K, hK⟩ : ∃ K, ∀ k,
      ((List.range k).filterMap f).length ≤ ((List.range K).filterMap f).length := by
    by_contra hno
    push Not at hno
    -- otherwise the number grows beyond every bound
    have grows : ∀ m, ∃ k, m ≤ ((List.range k).filterMap f).length := by
      intro m
      induction m with
      | zero => exact ⟨0, Nat.zero_le _⟩
      | succ m ih =>
        obtain ⟨k, hk⟩ := ih
        obtain ⟨k', hk'⟩ := hno k
        exact ⟨k', by omega⟩
    obtain ⟨k, hk⟩ := grows (n + 1)
    exact absurd (bounded k) (by omega)
  refine ⟨K, fun k hk => ?_⟩
  by_contra hsome
  obtain ⟨x, hx⟩ := Option.ne_none_iff_exists'.1 hsome
  have hmono : ((List.range K).filterMap f).length ≤ ((List.range k).filterMap f).length :=
    ((List.range_sublist.2 hk).filterMap f).length_le
  have hnext := hK (k + 1)
  rw [List.range_succ, List.filterMap_append, List.length_append] at hnext
  simp only [List.filterMap_cons, hx, List.filterMap_nil, List.length_singleton] at hnext
  omega

end Leveling
