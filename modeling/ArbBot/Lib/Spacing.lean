import Mathlib.Algebra.Order.Floor.Semiring
import Mathlib.Algebra.Order.Field.Basic
import Mathlib.Algebra.Order.BigOperators.Group.List
import Mathlib.Tactic.Linarith

/-!
# Spaced events

Events, each with a time, are spaced when each one comes at least `d` after every earlier one. Only so
many of them fit into a window (`Spaced.length_le`), and with a bound on what each one carries there is
a bound on what they carry together (`Spaced.sum_le`): a rate limit. To keep events spaced it is enough
to look at the last one before the next is let in (`Spaced.concat`).
-/

variable {K α : Type*} [Field K] [LinearOrder K] {time : α → K} {d : K} {events : List α}

/-- Each event comes at least `d` after every earlier one. -/
def Spaced (time : α → K) (d : K) (events : List α) : Prop :=
  events.Pairwise fun a b => d ≤ time b - time a

namespace Spaced

lemma sublist {some : List α} (spaced : Spaced time d events) (sub : some.Sublist events) :
    Spaced time d some :=
  List.Pairwise.sublist sub spaced

variable [IsStrictOrderedRing K]

/-- An event that comes late enough after the last one does so after every one. -/
lemma concat {b : α} (spaced : Spaced time d events) (nonneg : 0 ≤ d)
    (late : ∀ a ∈ events.getLast?, d ≤ time b - time a) : Spaced time d (events ++ [b]) := by
  refine List.pairwise_append.2 ⟨spaced, List.pairwise_singleton _ _, fun a mem c hc => ?_⟩
  rw [List.mem_singleton.1 hc]
  obtain ⟨pre, last, rfl⟩ : ∃ pre last, events = pre ++ [last] :=
    ⟨_, _, (List.dropLast_append_getLast (List.ne_nil_of_mem mem)).symm⟩
  have hlast := late last (by rw [List.getLast?_concat]; rfl)
  rcases List.mem_append.1 mem with old | new
  · -- an earlier event is before the last one by `d`
    have earlier := (List.pairwise_append.1 spaced).2.2 a old last (List.mem_singleton_self _)
    linarith
  · rw [List.mem_singleton.1 new]
    exact hlast

/-- The gaps between the events fit between the first one and the end. -/
lemma length_mul_le {lo hi : K} (spaced : Spaced time d events) (ne : events ≠ [])
    (within : ∀ a ∈ events, lo ≤ time a ∧ time a ≤ hi) : events.length * d ≤ hi - lo + d := by
  induction events generalizing lo with
  | nil => exact absurd rfl ne
  | cons a events ih =>
    obtain ⟨later, spaced⟩ := List.pairwise_cons.1 spaced
    have first := within a List.mem_cons_self
    cases events with
    | nil =>
      rw [List.length_singleton, Nat.cast_one, one_mul]
      linarith
    | cons b events =>
      have rest := @ih (time a + d) spaced (List.cons_ne_nil _ _) fun c mem => by
        have gap := later c mem
        exact ⟨by linarith, (within c (List.mem_cons_of_mem _ mem)).2⟩
      rw [List.length_cons, Nat.cast_succ, add_mul, one_mul]
      linarith

variable [FloorSemiring K] {lo width : K}

/-- Only so many events fit into a window. -/
lemma length_le (spaced : Spaced time d events) (pos : 0 < d)
    (within : ∀ a ∈ events, lo ≤ time a ∧ time a ≤ lo + width) :
    events.length ≤ ⌊width / d⌋₊ + 1 := by
  cases events with
  | nil => exact Nat.zero_le _
  | cons a events =>
    have fits := spaced.length_mul_le (List.cons_ne_nil _ _) within
    rw [List.length_cons, Nat.cast_succ, add_mul, one_mul] at fits
    refine Nat.succ_le_succ (Nat.le_floor ?_)
    rw [le_div_iff₀ pos]
    linarith

/-- They carry only so much together. -/
lemma sum_le (spaced : Spaced time d events) (pos : 0 < d)
    (within : ∀ a ∈ events, lo ≤ time a ∧ time a ≤ lo + width) {load : α → K} {cap : K}
    (nonneg : 0 ≤ cap) (bound : ∀ a ∈ events, load a ≤ cap) :
    (events.map load).sum ≤ (⌊width / d⌋₊ + 1 : ℕ) * cap := by
  have each : (events.map load).sum ≤ events.length * cap := by
    rw [← nsmul_eq_mul, ← List.length_map load]
    refine List.sum_le_card_nsmul _ _ fun x mem => ?_
    obtain ⟨a, h, rfl⟩ := List.mem_map.1 mem
    exact bound a h
  refine each.trans (mul_le_mul_of_nonneg_right ?_ nonneg)
  exact Nat.cast_le.2 (spaced.length_le pos within)

end Spaced
