import Mathlib.Algebra.Order.Floor.Ring
import Mathlib.Data.Int.ConditionallyCompleteOrder
import Mathlib.Data.List.GetD
import Mathlib.Tactic.Linarith
import Mathlib.Tactic.Ring

/-!
# Linear interpolation

A function on the integers is read between them by linear interpolation: `interp f x` weighs the values
at the two integers around `x`. It agrees with `f` at the integers (`interp_intCast`), and it is
monotone when `f` is (`interp_mono`): within one gap the slope is not negative, and between two gaps
lies an integer. `extend l` reads a list at all integers, with its ends continued on both sides; of a
sorted list it is monotone (`extend_mono`).
-/

namespace Interpolation

section Interp

variable {K : Type*} [Field K] [LinearOrder K] [FloorRing K] {f : ℤ → K} {x y : K}

/-- The values at the two integers around `x`, weighed by their distance to it. -/
def interp (f : ℤ → K) (x : K) : K := f ⌊x⌋ * (1 - (x - ⌊x⌋)) + f (⌊x⌋ + 1) * (x - ⌊x⌋)

/-- Between two equal values there is no other. -/
lemma interp_of_eq {c : K} (lower : f ⌊x⌋ = c) (upper : f (⌊x⌋ + 1) = c) : interp f x = c := by
  rw [interp, lower, upper]
  ring

variable [IsStrictOrderedRing K]

@[simp] lemma interp_intCast (f : ℤ → K) (n : ℤ) : interp f n = f n := by
  rw [interp, Int.floor_intCast, sub_self]
  ring

lemma le_interp (hf : Monotone f) (x : K) : f ⌊x⌋ ≤ interp f x := by
  have weight : 0 ≤ x - ⌊x⌋ := sub_nonneg.2 (Int.floor_le x)
  have rise : 0 ≤ (f (⌊x⌋ + 1) - f ⌊x⌋) * (x - ⌊x⌋) :=
    mul_nonneg (sub_nonneg.2 (hf (by omega))) weight
  calc f ⌊x⌋ ≤ f ⌊x⌋ + (f (⌊x⌋ + 1) - f ⌊x⌋) * (x - ⌊x⌋) := le_add_of_nonneg_right rise
    _ = interp f x := by rw [interp]; ring

lemma interp_le (hf : Monotone f) (x : K) : interp f x ≤ f (⌊x⌋ + 1) := by
  have weight : 0 ≤ 1 - (x - ⌊x⌋) := by linarith [Int.lt_floor_add_one x]
  have rise : 0 ≤ (f (⌊x⌋ + 1) - f ⌊x⌋) * (1 - (x - ⌊x⌋)) :=
    mul_nonneg (sub_nonneg.2 (hf (by omega))) weight
  calc interp f x = f (⌊x⌋ + 1) - (f (⌊x⌋ + 1) - f ⌊x⌋) * (1 - (x - ⌊x⌋)) := by rw [interp]; ring
    _ ≤ f (⌊x⌋ + 1) := sub_le_self _ rise

/-- The interpolation of a monotone function is monotone. -/
theorem interp_mono (hf : Monotone f) : Monotone (interp f) := by
  intro x y h
  rcases (Int.floor_mono h).eq_or_lt with same | before
  · -- both are in one gap
    have rise : 0 ≤ (f (⌊x⌋ + 1) - f ⌊x⌋) * (y - x) :=
      mul_nonneg (sub_nonneg.2 (hf (by omega))) (sub_nonneg.2 h)
    calc interp f x ≤ interp f x + (f (⌊x⌋ + 1) - f ⌊x⌋) * (y - x) := le_add_of_nonneg_right rise
      _ = interp f y := by rw [interp, interp, ← same]; ring
  · calc interp f x ≤ f (⌊x⌋ + 1) := interp_le hf x
      _ ≤ f ⌊y⌋ := hf before
      _ ≤ interp f y := le_interp hf y

end Interp

/-! ## Lists -/

section Extend

variable {α : Type*} [Zero α] {l : List α} {i : ℤ}

/-- The elements of a list, where the first one stands before the list and the last one after it. -/
def extend (l : List α) (i : ℤ) : α := l.getD (min i.toNat (l.length - 1)) 0

lemma extend_of_lt (h : i.toNat < l.length) : extend l i = l[i.toNat] := by
  have inside : min i.toNat (l.length - 1) = i.toNat := min_eq_left (by omega)
  rw [extend, inside, List.getD_eq_getElem _ _ h]

lemma extend_natCast {k : ℕ} (h : k < l.length) : extend l k = l[k] :=
  extend_of_lt (i := k) h

lemma extend_before (h : i ≤ 0) : extend l i = extend l 0 := by
  rw [extend, extend, Int.toNat_eq_zero.2 h]
  rfl

lemma extend_after (h : (l.length : ℤ) - 1 ≤ i) : extend l i = extend l (l.length - 1) := by
  have past : min i.toNat (l.length - 1) = l.length - 1 := min_eq_right (by omega)
  have last : min ((l.length : ℤ) - 1).toNat (l.length - 1) = l.length - 1 :=
    min_eq_right (by omega)
  rw [extend, extend, past, last]

/-- An index past the last one may be replaced by it. -/
lemma extend_min (l : List α) (i : ℤ) : extend l (min i (l.length - 1)) = extend l i := by
  cases le_total i ((l.length : ℤ) - 1) with
  | inl inside => rw [min_eq_left inside]
  | inr past => rw [min_eq_right past, extend_after past]

lemma extend_mono [Preorder α] (sorted : l.Pairwise (· ≤ ·)) : Monotone (extend l) := by
  intro i j h
  cases l with
  | nil => exact le_rfl
  | cons a l =>
    have hi : min i.toNat ((a :: l).length - 1) < (a :: l).length := by
      rw [List.length_cons]
      omega
    have hj : min j.toNat ((a :: l).length - 1) < (a :: l).length := by
      rw [List.length_cons]
      omega
    rw [extend, extend, List.getD_eq_getElem _ _ hi, List.getD_eq_getElem _ _ hj]
    have le : min i.toNat ((a :: l).length - 1) ≤ min j.toNat ((a :: l).length - 1) :=
      min_le_min_right _ (Int.toNat_le_toNat h)
    rcases le.eq_or_lt with same | before
    · exact le_of_eq (getElem_congr_idx same)
    · exact List.pairwise_iff_getElem.1 sorted _ _ hi hj before

end Extend

/-! ## Lists between the integers -/

section Ends

variable {K : Type*} [Field K] [LinearOrder K] [FloorRing K] {l : List K} {x : K}

lemma interp_extend_after (h : ((l.length - 1 : ℤ) : K) ≤ x) :
    interp (extend l) x = extend l (l.length - 1) := by
  have floor : (l.length : ℤ) - 1 ≤ ⌊x⌋ := Int.le_floor.2 h
  exact interp_of_eq (extend_after floor) (extend_after (by omega))

lemma interp_extend_before [IsStrictOrderedRing K] (h : x ≤ 0) :
    interp (extend l) x = extend l 0 := by
  rcases h.eq_or_lt with rfl | before
  · exact_mod_cast interp_intCast (extend l) 0
  · have floor : ⌊x⌋ < 0 := Int.floor_lt.2 (by exact_mod_cast before)
    exact interp_of_eq (extend_before floor.le) (extend_before floor)

end Ends

end Interpolation
