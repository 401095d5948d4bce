import ArbBot.Engine.Scan
import ArbBot.Lib.Interpolation
import ArbBot.Lib.Loop
import Mathlib.Tactic.Linarith

/-!
# The statistics of a scan

`_percentile` and `_distribution` index into the sorted samples. `indices_inRange` says that every
index they use is in range, so that `find_opportunities` cannot fail on its way out
(`distribution_total`), and `percentile_eq` that a percentile is the linear interpolation of the sorted
samples at its position, whatever the percentage. `distribution_ordered` follows: percentiles are
monotone, meet the samples at the integer positions, and do not depend on the order of the samples.
-/

namespace ArbBot.OpportunityEngine

open Interpolation

/-! ## Indices -/

/-- An index in range, counted from either end, reads a sample. -/
lemma pyIndex_eq (samples : List ℚ) (index : ℤ) (lo : -(samples.length : ℤ) ≤ index)
    (hi : index < samples.length) :
    pyIndex samples index =
      .ok (extend samples (if index < 0 then index + samples.length else index)) := by
  unfold pyIndex
  dsimp only
  have hlo : 0 ≤ (if index < 0 then index + samples.length else index) := by split <;> omega
  have hhi : (if index < 0 then index + samples.length else index).toNat < samples.length := by
    split <;> omega
  rw [if_neg (not_lt.2 hlo), List.getElem?_eq_getElem hhi, extend_of_lt hhi]
  rfl

lemma pyInt_of_nonneg {x : ℚ} (h : 0 ≤ x) : pyInt x = ⌊x⌋ := if_pos h

/-- `position` of `_percentile`, among `n` samples. -/
def position (n : ℕ) (pct : ℚ) : ℚ := ((n - 1 : ℤ) : ℚ) * (pct / 100)

/-- `lower` of `_percentile`. -/
def lowerIndex (n : ℕ) (pct : ℚ) : ℤ := pyInt (position n pct)

/-- `upper` of `_percentile`. -/
def upperIndex (n : ℕ) (pct : ℚ) : ℤ := min (lowerIndex n pct + 1) (n - 1)

/-- The indices of a percentage between the ends are in range. -/
lemma indices_inRange {n pct} (hn : 0 < n) (pos : 0 < pct) (lt : pct < 100) :
    lowerIndex n pct = ⌊position n pct⌋ ∧ 0 ≤ lowerIndex n pct ∧
      lowerIndex n pct ≤ upperIndex n pct ∧ upperIndex n pct < n := by
  have hlast : (0 : ℚ) ≤ ((n - 1 : ℤ) : ℚ) := by
    exact_mod_cast (by omega : (0 : ℤ) ≤ n - 1)
  have hposition : 0 ≤ position n pct := mul_nonneg hlast (by linarith)
  have hlower : lowerIndex n pct = ⌊position n pct⌋ := pyInt_of_nonneg hposition
  have hle : ⌊position n pct⌋ ≤ n - 1 := by
    refine Int.floor_le_iff.2 ?_
    have inside : position n pct ≤ ((n - 1 : ℤ) : ℚ) := mul_le_of_le_one_right hlast (by linarith)
    linarith
  have hnonneg := Int.floor_nonneg.2 hposition
  rw [upperIndex, hlower]
  omega

/-! ## Percentiles -/

/-- `_percentile` between the ends: two samples, weighed. -/
def between (samples : List ℚ) (pct : ℚ) : Except PyError ℚ := do
  let weight := position samples.length pct - lowerIndex samples.length pct
  let atLower ← pyIndex samples (lowerIndex samples.length pct)
  let atUpper ← pyIndex samples (upperIndex samples.length pct)
  return atLower * (1 - weight) + atUpper * weight

lemma percentile_between {samples : List ℚ} {pct} (ne : samples ≠ []) (pos : 0 < pct)
    (lt : pct < 100) : percentile samples pct = between samples pct := by
  rw [percentile, if_neg ne, if_neg (not_le.2 pos), if_neg (not_le.2 lt)]
  rfl

/-- The ends of the samples are the percentiles at 0 and 100. -/
lemma percentile_ends {samples : List ℚ} (ne : samples ≠ []) :
    (∀ pct ≤ 0, percentile samples pct = pyIndex samples 0) ∧
      ∀ pct, 100 ≤ pct → percentile samples pct = pyIndex samples (-1) := by
  refine ⟨fun pct low => ?_, fun pct high => ?_⟩
  · rw [percentile, if_neg ne, if_pos low]
  · rw [percentile, if_neg ne, if_neg (by linarith), if_pos high]

/-- A percentile is the interpolation of the samples at its position. -/
theorem percentile_eq {samples : List ℚ} (ne : samples ≠ []) (pct : ℚ) :
    percentile samples pct = .ok (interp (extend samples) (position samples.length pct)) := by
  have hlen : 0 < samples.length := List.length_pos_iff.2 ne
  have hlast : (0 : ℚ) ≤ ((samples.length - 1 : ℤ) : ℚ) := by
    exact_mod_cast (by omega : (0 : ℤ) ≤ samples.length - 1)
  obtain ⟨first, last⟩ := percentile_ends ne
  by_cases low : pct ≤ 0
  · have before : position samples.length pct ≤ 0 :=
      mul_nonpos_of_nonneg_of_nonpos hlast (by linarith)
    rw [first pct low, pyIndex_eq samples 0 (by omega) (by omega), if_neg (lt_irrefl 0),
      interp_extend_before before]
  · by_cases high : 100 ≤ pct
    · have after : ((samples.length - 1 : ℤ) : ℚ) ≤ position samples.length pct :=
        le_mul_of_one_le_right hlast (by linarith)
      rw [last pct high, pyIndex_eq samples (-1) (by omega) (by omega), if_pos (by decide),
        neg_add_eq_sub, interp_extend_after after]
    · obtain ⟨floor, lower, le, upper⟩ := indices_inRange hlen (not_le.1 low) (not_le.1 high)
      have atLower := pyIndex_eq samples (lowerIndex samples.length pct) (by omega) (by omega)
      have atUpper := pyIndex_eq samples (upperIndex samples.length pct) (by omega) (by omega)
      rw [if_neg (by omega)] at atLower atUpper
      rw [upperIndex, extend_min, ← upperIndex] at atUpper
      rw [percentile_between ne (not_le.1 low) (not_le.1 high), interp, ← floor]
      exact Loop.bind_eq_ok.2 ⟨_, atLower, Loop.bind_eq_ok.2 ⟨_, atUpper, rfl⟩⟩

/-- The percentiles of sorted samples are monotone. -/
lemma percentiles_mono {sorted : List ℚ} (h : sorted.Pairwise (· ≤ ·)) (ne : sorted ≠ []) :
    Monotone fun pct => interp (extend sorted) (position sorted.length pct) := by
  refine (interp_mono (extend_mono h)).comp fun pct pct' le => ?_
  have hlen : 0 < sorted.length := List.length_pos_iff.2 ne
  have hlast : (0 : ℚ) ≤ ((sorted.length - 1 : ℤ) : ℚ) := by
    exact_mod_cast (by omega : (0 : ℤ) ≤ sorted.length - 1)
  exact mul_le_mul_of_nonneg_left (by linarith) hlast

/-- At an integer position the percentile is a sample. -/
lemma percentile_at {sorted : List ℚ} {k : ℕ} (hk : k < sorted.length) {pct : ℚ}
    (h : pct * (sorted.length - 1) = 100 * k) :
    interp (extend sorted) (position sorted.length pct) = sorted[k] := by
  have integer : position sorted.length pct = ((k : ℤ) : ℚ) := by
    rw [position]
    push_cast
    linarith
  rw [integer, interp_intCast, extend_natCast hk]

/-! ## Distributions -/

/-- The samples in order. -/
def sorted (samples : List ℚ) : List ℚ := samples.insertionSort (· ≤ ·)

/-- The percentile of some samples at a percentage. -/
def percentileOf (samples : List ℚ) (pct : ℚ) : ℚ :=
  interp (extend (sorted samples)) (position (sorted samples).length pct)

lemma sorted_pairwise (samples : List ℚ) : (sorted samples).Pairwise (· ≤ ·) :=
  List.pairwise_insertionSort _ _

lemma sorted_perm (samples : List ℚ) : (sorted samples).Perm samples :=
  List.perm_insertionSort _ _

lemma sorted_ne_nil {samples : List ℚ} (ne : samples ≠ []) : sorted samples ≠ [] := fun e =>
  ne (List.perm_nil.1 (e ▸ (sorted_perm samples).symm))

/-- Samples in another order are sorted to the same list. -/
lemma sorted_eq_of_perm {samples samples' : List ℚ} (h : samples.Perm samples') :
    sorted samples = sorted samples' :=
  ((sorted_perm samples).trans (h.trans (sorted_perm samples').symm)).eq_of_pairwise'
    (sorted_pairwise samples) (sorted_pairwise samples')

lemma percentile_sorted {samples : List ℚ} (ne : samples ≠ []) (pct : ℚ) :
    percentile (sorted samples) pct = .ok (percentileOf samples pct) :=
  percentile_eq (sorted_ne_nil ne) pct

lemma distribution_eq {samples : List ℚ} (ne : samples ≠ []) :
    distribution samples = .ok ⟨(sorted samples).length, percentileOf samples 50,
      percentileOf samples 90, percentileOf samples 100, percentileOf samples 0⟩ := by
  obtain ⟨first, last⟩ := percentile_ends (sorted_ne_nil ne)
  have smallest := (first 0 le_rfl).symm.trans (percentile_sorted ne 0)
  have largest := (last 100 le_rfl).symm.trans (percentile_sorted ne 100)
  rw [distribution, if_neg ne]
  exact Loop.bind_eq_ok.2 ⟨_, percentile_sorted ne 50, Loop.bind_eq_ok.2 ⟨_, percentile_sorted ne 90,
    Loop.bind_eq_ok.2 ⟨_, largest, Loop.bind_eq_ok.2 ⟨_, smallest, rfl⟩⟩⟩⟩

/-- The distribution of any samples exists. -/
theorem distribution_total (samples : List ℚ) : ∃ d, distribution samples = .ok d := by
  by_cases ne : samples = []
  · exact ⟨_, if_pos ne⟩
  · exact ⟨_, distribution_eq ne⟩

/-- The least and the greatest of some samples, and two percentiles between them. -/
structure Ordered (samples : List ℚ) (dist : Distribution) : Prop where
  min_mem : dist.min ∈ samples
  max_mem : dist.max ∈ samples
  min_le : ∀ x ∈ samples, dist.min ≤ x
  le_max : ∀ x ∈ samples, x ≤ dist.max
  min_le_p50 : dist.min ≤ dist.p50
  p50_le_p90 : dist.p50 ≤ dist.p90
  p90_le_max : dist.p90 ≤ dist.max

lemma percentileOf_mono {samples : List ℚ} (ne : samples ≠ []) : Monotone (percentileOf samples) :=
  percentiles_mono (sorted_pairwise samples) (sorted_ne_nil ne)

/-- The `k`-th smallest sample is the percentile at its position. -/
lemma percentileOf_at {samples : List ℚ} {k : ℕ} (hk : k < (sorted samples).length) {pct : ℚ}
    (h : pct * ((sorted samples).length - 1) = 100 * k) :
    percentileOf samples pct = (sorted samples)[k] := percentile_at hk h

/-- The distribution of some samples is ordered. -/
lemma ordered_distribution {samples : List ℚ} (ne : samples ≠ []) (count p50 p90) :
    p50 = percentileOf samples 50 → p90 = percentileOf samples 90 →
      Ordered samples ⟨count, p50, p90, percentileOf samples 100, percentileOf samples 0⟩ := by
  rintro rfl rfl
  have hlen : 0 < (sorted samples).length := List.length_pos_iff.2 (sorted_ne_nil ne)
  have first : percentileOf samples 0 = (sorted samples)[0] := percentileOf_at hlen (by simp)
  have last : percentileOf samples 100 = (sorted samples)[(sorted samples).length - 1] :=
    percentileOf_at (by omega) (by rw [Nat.cast_sub hlen, Nat.cast_one])
  have mem : ∀ {x}, x ∈ sorted samples ↔ x ∈ samples := (sorted_perm samples).mem_iff
  have mono := extend_mono (sorted_pairwise samples)
  refine ⟨?_, ?_, fun x hx => ?_, fun x hx => ?_, ?_, ?_, ?_⟩
  · rw [first]
    exact mem.1 (List.getElem_mem _)
  · rw [last]
    exact mem.1 (List.getElem_mem _)
  · obtain ⟨k, hk, rfl⟩ := List.mem_iff_getElem.1 (mem.2 hx)
    rw [first, ← extend_natCast hlen, ← extend_natCast hk]
    exact mono (by omega)
  · obtain ⟨k, hk, rfl⟩ := List.mem_iff_getElem.1 (mem.2 hx)
    rw [last, ← extend_natCast hk, ← extend_natCast (show _ - 1 < _ by omega)]
    exact mono (by omega)
  · exact percentileOf_mono ne (by norm_num)
  · exact percentileOf_mono ne (by norm_num)
  · exact percentileOf_mono ne (by norm_num)

/-- The distribution of the net spreads. For every list of samples, not empty, the indices that are used
between the ends are in range; the percentiles of the samples in order exist for every percentage, are
monotone over the whole line and meet the `k`-th smallest sample at its position; and the distribution
is ordered, with samples as its ends, and the same for the samples in any other order. -/
theorem distribution_ordered {samples : List ℚ} (ne : samples ≠ []) :
    (∀ pct, 0 < pct → pct < 100 →
      percentile (sorted samples) pct = between (sorted samples) pct ∧
      0 ≤ lowerIndex (sorted samples).length pct ∧
      lowerIndex (sorted samples).length pct ≤ upperIndex (sorted samples).length pct ∧
      upperIndex (sorted samples).length pct < (sorted samples).length) ∧
    (∃ p : ℚ → ℚ, (∀ pct, percentile (sorted samples) pct = .ok (p pct)) ∧ Monotone p ∧
      ∀ (k : ℕ) (hk : k < (sorted samples).length) (pct : ℚ),
        pct * ((sorted samples).length - 1) = 100 * k → p pct = (sorted samples)[k]) ∧
    ∃ dist, distribution samples = .ok dist ∧ Ordered samples dist ∧
      ∀ samples', samples'.Perm samples → distribution samples' = .ok dist := by
  have ne' := sorted_ne_nil ne
  refine ⟨fun pct pos lt => ⟨percentile_between ne' pos lt,
      (indices_inRange (List.length_pos_iff.2 ne') pos lt).2⟩,
    ⟨percentileOf samples, percentile_sorted ne, percentileOf_mono ne, fun k hk pct h =>
      percentileOf_at hk h⟩,
    _, distribution_eq ne, ordered_distribution ne _ _ _ rfl rfl, fun samples' perm => ?_⟩
  have other : samples' ≠ [] := fun e => ne (List.nil_perm.1 (e ▸ perm))
  rw [distribution_eq other]
  simp only [percentileOf, sorted_eq_of_perm perm]

/-- Of four samples in some order, the third smallest is the percentile at two thirds. -/
theorem distribution_ordered_sample :
    percentile (sorted [3, 1, 4, 2]) (200 / 3) = .ok 3 ∧
      ∃ dist, distribution [3, 1, 4, 2] = .ok dist ∧ distribution [1, 2, 3, 4] = .ok dist := by
  obtain ⟨_, ⟨p, eq, _, meets⟩, dist, hdist, _, blind⟩ :=
    @distribution_ordered [3, 1, 4, 2] (List.cons_ne_nil _ _)
  have order : sorted [3, 1, 4, 2] = [1, 2, 3, 4] := by decide +kernel
  simp only [order] at meets
  refine ⟨?_, dist, hdist, blind _ (by decide +kernel)⟩
  rw [eq, meets 2 (by decide) (200 / 3) (by norm_num)]
  rfl

end ArbBot.OpportunityEngine
