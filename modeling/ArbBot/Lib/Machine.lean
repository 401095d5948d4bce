import Mathlib.Algebra.BigOperators.Group.List.Lemmas
import Mathlib.Algebra.Order.Monoid.Defs
import Mathlib.Data.List.Infix

/-!
# Machines and their runs

A machine answers each input with an output and moves to a next state; it is deterministic, so
everything a run depends on (a clock reading, a message) is part of the input. `run`, `states` and
`outs` are the state after a list of inputs, all states on the way to it and the outputs, and
`Along P` says that `P` held of every state and input on the way.

The rules: `inv_run` (an invariant kept by every admissible step holds after a run), `run_sum` (a
measure that each step changes by an amount read off its output changes by the sum of these amounts
over a run; `run_sum_states` reads the amounts off the states, `sum_le_run` is the inequality),
`forall_prefix_iff` (a property holds in every state on the way exactly when it holds at the start and
every step re-establishes it), `forall₂_outs` (two machines whose states stay related on every input
give related outputs) and `outs_hom` (a machine that follows another one).
-/

/-- A deterministic machine with outputs. -/
structure Machine (σ ι ο : Type*) where
  step : σ → ι → σ × ο

namespace Machine

variable {σ ι ο : Type*} (M : Machine σ ι ο)

/-- The state after one input. -/
def next (s : σ) (i : ι) : σ := (M.step s i).1

/-- The output for one input. -/
def out (s : σ) (i : ι) : ο := (M.step s i).2

/-- The state after a list of inputs. -/
def run : σ → List ι → σ
  | s, [] => s
  | s, i :: is => run (M.next s i) is

/-- The outputs for a list of inputs. -/
def outs : σ → List ι → List ο
  | _, [] => []
  | s, i :: is => M.out s i :: outs (M.next s i) is

/-- The states after the inputs of a list, one by one. -/
def states : σ → List ι → List σ
  | _, [] => []
  | s, i :: is => M.next s i :: states (M.next s i) is

/-- The inputs of a list, each with its output. -/
def trace : σ → List ι → List (ι × ο)
  | _, [] => []
  | s, i :: is => (i, M.out s i) :: trace (M.next s i) is

/-- `P` holds of every state and input met on the way. -/
def Along (P : σ → ι → Prop) : σ → List ι → Prop
  | _, [] => True
  | s, i :: is => P s i ∧ Along P (M.next s i) is

variable {M} {P Q : σ → ι → Prop} {s : σ}

@[simp] lemma run_nil : M.run s [] = s := rfl

@[simp] lemma run_cons (i : ι) (is : List ι) : M.run s (i :: is) = M.run (M.next s i) is := rfl

lemma run_append (is js : List ι) : M.run s (is ++ js) = M.run (M.run s is) js := by
  induction is generalizing s with
  | nil => rfl
  | cons i is ih => exact ih

lemma run_concat (is : List ι) (i : ι) : M.run s (is ++ [i]) = M.next (M.run s is) i :=
  run_append is [i]

lemma outs_append (is js : List ι) :
    M.outs s (is ++ js) = M.outs s is ++ M.outs (M.run s is) js := by
  induction is generalizing s with
  | nil => rfl
  | cons i is ih => exact congrArg (M.out s i :: ·) ih

lemma trace_concat (is : List ι) (i : ι) :
    M.trace s (is ++ [i]) = M.trace s is ++ [(i, M.out (M.run s is) i)] := by
  induction is generalizing s with
  | nil => rfl
  | cons j is ih => exact congrArg ((j, M.out s j) :: ·) ih

lemma along_append (is js : List ι) :
    M.Along P s (is ++ js) ↔ M.Along P s is ∧ M.Along P (M.run s is) js := by
  induction is generalizing s with
  | nil => simp [Along]
  | cons i is ih => exact (and_congr_right fun _ => ih).trans and_assoc.symm

lemma along_concat (is : List ι) (i : ι) :
    M.Along P s (is ++ [i]) ↔ M.Along P s is ∧ P (M.run s is) i :=
  (along_append is [i]).trans (and_congr_right fun _ => and_iff_left trivial)

lemma Along.pre {pre is : List ι} (al : M.Along P s is) (hp : pre <+: is) : M.Along P s pre := by
  obtain ⟨post, rfl⟩ := hp
  exact ((along_append pre post).1 al).1

/-- A condition on the inputs alone holds along a run when it holds of every input. -/
lemma along_of_forall {P : ι → Prop} {is : List ι} (h : ∀ i ∈ is, P i) :
    M.Along (fun _ i => P i) s is := by
  induction is generalizing s with
  | nil => trivial
  | cons i is ih => exact ⟨h i (by simp), ih fun j hj => h j (by simp [hj])⟩

/-! ## Invariants -/

/-- An invariant kept by every admissible step holds after a run of admissible steps. -/
lemma inv_run {I : σ → Prop} {is : List ι} (h0 : I s)
    (hstep : ∀ s i, I s → P s i → I (M.next s i)) (al : M.Along P s is) :
    I (M.run s is) := by
  induction is generalizing s with
  | nil => exact h0
  | cons i is ih => exact ih (hstep s i h0 al.1) al.2

/-- A reflexive and transitive relation kept by every step relates the ends of a run. -/
lemma rel_run {R : σ → σ → Prop} {I : σ → Prop} {is : List ι} (hrefl : ∀ s, R s s)
    (htrans : ∀ {a b c}, R a b → R b c → R a c) (h0 : I s)
    (hstep : ∀ s i, I s → P s i → I (M.next s i) ∧ R s (M.next s i))
    (al : M.Along P s is) : R s (M.run s is) := by
  induction is generalizing s with
  | nil => exact hrefl s
  | cons i is ih =>
    obtain ⟨hinv, hR⟩ := hstep s i h0 al.1
    exact htrans hR (ih hinv al.2)

/-- A measure that each step changes by an amount read off its output changes, over a run, by the
sum of these amounts. -/
lemma run_sum {K : Type*} [AddCommMonoid K] {φ : σ → K} {δ : ο → K} {I : σ → Prop}
    {is : List ι} (h0 : I s)
    (hstep : ∀ s i, I s → P s i → I (M.next s i) ∧ φ (M.next s i) = φ s + δ (M.out s i))
    (al : M.Along P s is) : φ (M.run s is) = φ s + ((M.outs s is).map δ).sum := by
  induction is generalizing s with
  | nil => simp [outs]
  | cons i is ih =>
    obtain ⟨hinv, hφ⟩ := hstep s i h0 al.1
    rw [run_cons, ih hinv al.2, hφ, outs, List.map_cons, List.sum_cons, add_assoc]

/-- The same, where the amount is read off the state that the step leads to. -/
lemma run_sum_states {K : Type*} [AddCommMonoid K] {φ δ : σ → K} {is : List ι}
    (hstep : ∀ s i, φ (M.next s i) = φ s + δ (M.next s i)) :
    φ (M.run s is) = φ s + ((M.states s is).map δ).sum := by
  induction is generalizing s with
  | nil => simp [states]
  | cons i is ih => rw [run_cons, ih, hstep, states, List.map_cons, List.sum_cons, add_assoc]

/-- A measure that each step raises by at least an amount read off its output is raised, over a run, by at
least the sum of these amounts. -/
lemma sum_le_run {K : Type*} [AddCommMonoid K] [PartialOrder K] [IsOrderedAddMonoid K] {φ : σ → K}
    {δ : ο → K} {I : σ → Prop} {is : List ι} (h0 : I s)
    (hstep : ∀ s i, I s → P s i → I (M.next s i) ∧ φ s + δ (M.out s i) ≤ φ (M.next s i))
    (al : M.Along P s is) : φ s + ((M.outs s is).map δ).sum ≤ φ (M.run s is) := by
  induction is generalizing s with
  | nil => simp [outs]
  | cons i is ih =>
    obtain ⟨hinv, hφ⟩ := hstep s i h0 al.1
    rw [run_cons, outs, List.map_cons, List.sum_cons, ← add_assoc]
    exact (add_le_add_left hφ _).trans (ih hinv al.2)

/-- A property holds in every state on the way exactly when it holds at the start and every step
re-establishes it. -/
lemma forall_prefix_iff {Q : σ → Prop} {is : List ι} :
    (∀ pre, pre <+: is → Q (M.run s pre)) ↔
      Q s ∧ M.Along (fun s i => Q (M.next s i)) s is := by
  induction is generalizing s with
  | nil => simp [Along]
  | cons i is ih =>
    constructor
    · intro h
      refine ⟨h [] List.nil_prefix, ?_⟩
      refine ih.1 fun pre hp => h (i :: pre) ?_
      exact (List.cons_prefix_cons).2 ⟨rfl, hp⟩
    · rintro ⟨hs, hal⟩ pre hp
      cases pre with
      | nil => exact hs
      | cons j pre =>
        obtain ⟨rfl, hp'⟩ := List.cons_prefix_cons.1 hp
        exact ih.2 hal pre hp'

/-- The same, where a step from a state with the property re-establishes it exactly under a
condition on the state and the input. -/
lemma forall_prefix_iff_along {I Q : σ → Prop} {is : List ι} (h0 : I s) (hs : Q s)
    (hinv : ∀ s i, I s → P s i → I (M.next s i)) {C : σ → ι → Prop}
    (hiff : ∀ s i, I s → P s i → Q s → (Q (M.next s i) ↔ C s i)) (al : M.Along P s is) :
    (∀ pre, pre <+: is → Q (M.run s pre)) ↔ M.Along C s is := by
  rw [forall_prefix_iff, and_iff_right hs]
  induction is generalizing s with
  | nil => exact Iff.rfl
  | cons i is ih =>
    have hi := hiff s i h0 al.1 hs
    constructor
    · rintro ⟨hq, hal⟩
      exact ⟨hi.1 hq, (ih (hinv s i h0 al.1) hq al.2).1 hal⟩
    · rintro ⟨hc, hal⟩
      exact ⟨hi.2 hc, (ih (hinv s i h0 al.1) (hi.2 hc) al.2).2 hal⟩

/-! ## Two machines -/

/-- Two machines whose states are related, and stay so on every input, give related outputs. -/
lemma forall₂_outs {σ' ο' : Type*} {M' : Machine σ' ι ο'} {R : σ → σ' → Prop}
    {A : ο → ο' → Prop} {s' : σ'} {is : List ι} (h0 : R s s')
    (hstep : ∀ s s' i, R s s' → R (M.next s i) (M'.next s' i) ∧ A (M.out s i) (M'.out s' i)) :
    List.Forall₂ A (M.outs s is) (M'.outs s' is) := by
  induction is generalizing s s' with
  | nil => exact .nil
  | cons i is ih =>
    obtain ⟨hR, hA⟩ := hstep s s' i h0
    exact .cons hA (ih hR)

/-- A machine that follows another one, input by input, does so over a run. -/
lemma outs_hom {σ' ι' ο' : Type*} {M' : Machine σ' ι' ο'} {R : σ → σ' → Prop} {f : ι → ι'} {g : ο → ο'}
    (hstep : ∀ s s' i, R s s' → R (M.next s i) (M'.next s' (f i)) ∧ M'.out s' (f i) = g (M.out s i))
    {s' : σ'} (h0 : R s s') (is : List ι) :
    M'.outs s' (is.map f) = (M.outs s is).map g ∧ R (M.run s is) (M'.run s' (is.map f)) := by
  induction is generalizing s s' with
  | nil => exact ⟨rfl, h0⟩
  | cons i is ih =>
    obtain ⟨hR, hout⟩ := hstep s s' i h0
    obtain ⟨houts, hrun⟩ := ih hR
    refine ⟨?_, hrun⟩
    rw [List.map_cons, outs, outs, List.map_cons, hout, houts]

end Machine
