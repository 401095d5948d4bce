import Mathlib.Algebra.Order.BigOperators.Group.List
import Mathlib.Algebra.Order.Field.Basic
import Mathlib.Algebra.Order.Group.MinMax
import Mathlib.Data.Set.Finite.Lemmas
import Mathlib.Order.Interval.Set.Basic
import Mathlib.Tactic.Linarith
import Mathlib.Tactic.Ring

/-!
# Exponential smoothing with a floor

`smooth α x prev` moves an average by the fraction `α` toward a new value `x`, and not below zero;
`smoothAll` does so for a list of values. Whatever the order of the values, the average stays within
what they span: `Spanned S x` says that every interval that holds `S` holds `x`, which for a finite
set is to say that `x` lies between its least and its greatest element (`Spanned.between`). Of two
averages that are fed the same values, the one that starts higher stays higher (`smooth_mono`), and they
come together geometrically (`abs_smoothAll_sub_le`).
-/

variable {K : Type*} [Field K] [LinearOrder K]

/-- Every interval that holds all of `S` holds `x`. -/
def Spanned (S : Set K) (x : K) : Prop := ∀ lo hi, S ⊆ Set.Icc lo hi → x ∈ Set.Icc lo hi

/-- One step of the average. -/
def smooth (α x prev : K) : K := max 0 (α * x + (1 - α) * prev)

/-- The average after a list of values. -/
def smoothAll (α : K) (values : List K) (prev : K) : K :=
  values.foldl (fun prev x => smooth α x prev) prev

omit [Field K] in
lemma spanned_of_mem {S : Set K} {x : K} (h : x ∈ S) : Spanned S x := fun _ _ hS => hS h

omit [Field K] in
/-- What a finite set spans lies between two of its elements. -/
lemma Spanned.between {S : Set K} {x : K} (h : Spanned S x) (fin : S.Finite) (ne : S.Nonempty) :
    ∃ lo ∈ S, ∃ hi ∈ S, lo ≤ x ∧ x ≤ hi := by
  obtain ⟨lo, hlo, least⟩ := S.exists_min_image id fin ne
  obtain ⟨hi, hhi, greatest⟩ := S.exists_max_image id fin ne
  obtain ⟨above, below⟩ := h lo hi fun y hy => ⟨least y hy, greatest y hy⟩
  exact ⟨lo, hlo, hi, hhi, above, below⟩

variable [IsStrictOrderedRing K]

/-- The mean of some values is spanned by them. -/
lemma spanned_mean {l : List K} (ne : l ≠ []) : Spanned {x | x ∈ l} (l.sum / l.length) := by
  intro lo hi hl
  have count : (0 : K) < l.length := Nat.cast_pos.2 (List.length_pos_of_ne_nil ne)
  refine ⟨(le_div_iff₀ count).2 ?_, (div_le_iff₀ count).2 ?_⟩
  · rw [mul_comm, ← nsmul_eq_mul]
    exact List.card_nsmul_le_sum l lo fun x hx => (hl hx).1
  · rw [mul_comm, ← nsmul_eq_mul]
    exact List.sum_le_card_nsmul l hi fun x hx => (hl hx).2

/-- Moving toward a value that is spanned, and not negative, one stays within the span. -/
lemma Spanned.smooth {S : Set K} {α x prev : K} (hα : 0 ≤ α) (hα' : α ≤ 1) (hx : Spanned S x)
    (hprev : Spanned S prev) (nonneg : 0 ≤ x) : Spanned S (smooth α x prev) := by
  intro lo hi hS
  obtain ⟨hlox, hhix⟩ := hx lo hi hS
  obtain ⟨hlop, hhip⟩ := hprev lo hi hS
  have hα'' : 0 ≤ 1 - α := sub_nonneg.2 hα'
  refine ⟨le_max_of_le_right ?_, max_le (nonneg.trans hhix) ?_⟩
  · calc lo = α * lo + (1 - α) * lo := by ring
      _ ≤ α * x + (1 - α) * prev :=
        add_le_add (mul_le_mul_of_nonneg_left hlox hα) (mul_le_mul_of_nonneg_left hlop hα'')
  · calc α * x + (1 - α) * prev ≤ α * hi + (1 - α) * hi :=
        add_le_add (mul_le_mul_of_nonneg_left hhix hα) (mul_le_mul_of_nonneg_left hhip hα'')
      _ = hi := by ring

/-- From a higher average one moves to a higher one. -/
lemma smooth_mono {α x prev prev' : K} (hα' : α ≤ 1) (h : prev ≤ prev') :
    smooth α x prev ≤ smooth α x prev' :=
  max_le_max_left 0 (add_le_add_right (mul_le_mul_of_nonneg_left h (sub_nonneg.2 hα')) _)

/-- The average of values that are not negative stays within their span and the start. -/
theorem spanned_smoothAll {S : Set K} {α prev : K} {values : List K} (hα : 0 ≤ α) (hα' : α ≤ 1)
    (hprev : prev ∈ S) (hvalues : ∀ x ∈ values, x ∈ S ∧ 0 ≤ x) :
    Spanned S (smoothAll α values prev) := by
  suffices h : ∀ prev, Spanned S prev → Spanned S (smoothAll α values prev) from
    h prev (spanned_of_mem hprev)
  induction values with
  | nil => exact fun _ h => h
  | cons x values ih =>
    intro prev hprev
    obtain ⟨⟨hx, nonneg⟩, hrest⟩ := List.forall_mem_cons.1 hvalues
    exact ih hrest _ (Spanned.smooth hα hα' (spanned_of_mem hx) hprev nonneg)

/-- One step takes two averages the fraction `α` of the way toward each other, at least. -/
lemma abs_smooth_sub_le {α : K} (hα' : α ≤ 1) (x prev prev' : K) :
    |smooth α x prev - smooth α x prev'| ≤ (1 - α) * |prev - prev'| := by
  have moved : α * x + (1 - α) * prev - (α * x + (1 - α) * prev') = (1 - α) * (prev - prev') := by
    ring
  calc |smooth α x prev - smooth α x prev'|
      ≤ max |(0 : K) - 0| |α * x + (1 - α) * prev - (α * x + (1 - α) * prev')| :=
        abs_max_sub_max_le_max ..
    _ = (1 - α) * |prev - prev'| := by
      rw [sub_self, abs_zero, max_eq_right (abs_nonneg _), moved, abs_mul,
        abs_of_nonneg (sub_nonneg.2 hα')]

/-- Two averages that are fed the same values come together geometrically. -/
theorem abs_smoothAll_sub_le {α : K} (hα' : α ≤ 1) (values : List K) (prev prev' : K) :
    |smoothAll α values prev - smoothAll α values prev'| ≤
      (1 - α) ^ values.length * |prev - prev'| := by
  induction values generalizing prev prev' with
  | nil =>
    rw [List.length_nil, pow_zero, one_mul]
    exact le_rfl
  | cons x values ih =>
    have hα'' : 0 ≤ 1 - α := sub_nonneg.2 hα'
    calc |smoothAll α (x :: values) prev - smoothAll α (x :: values) prev'|
        ≤ (1 - α) ^ values.length * |smooth α x prev - smooth α x prev'| := ih _ _
      _ ≤ (1 - α) ^ values.length * ((1 - α) * |prev - prev'|) :=
        mul_le_mul_of_nonneg_left (abs_smooth_sub_le hα' x prev prev') (pow_nonneg hα'' _)
      _ = (1 - α) ^ (x :: values).length * |prev - prev'| := by
        rw [List.length_cons, pow_succ, mul_assoc]
