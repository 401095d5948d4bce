import Mathlib.Data.List.Basic

/-!
# Loops that may raise

A `for` loop with a loop state `b`, whose body may raise, is `List.foldlM` in `Except ε`. Rules for
such loops: `foldlM_inv` (an invariant of the elements visited and the loop state, kept by every
iteration that returns, holds when the loop returns), `foldlM_trace` (what the iterations leave
behind adds up), `foldlM_raise` (what they have left behind when one of them raises),
`foldlM_follow` (a loop returns if its iterations, in a row, do), `foldlM_returns` (where it is the
element alone that decides whether an iteration returns) and `foldlM_hom` (a loop that follows another
one, iteration by iteration).
-/

namespace Loop

universe u v w

variable {α : Type u} {β γ : Type v} {ε : Type w}

lemma bind_eq_ok {x : Except ε γ} {f : γ → Except ε β} {b : β} :
    (x >>= f) = .ok b ↔ ∃ a, x = .ok a ∧ f a = .ok b := by
  cases x with
  | error e => exact ⟨nofun, fun ⟨_, h, _⟩ => by cases h⟩
  | ok a => exact ⟨fun h => ⟨a, rfl, h⟩, fun ⟨_, h, hf⟩ => by cases h; exact hf⟩

lemma foldlM_cons_eq_ok {f : β → α → Except ε β} {a : α} {l : List α} {b c : β} :
    (a :: l).foldlM f b = .ok c ↔ ∃ b', f b a = .ok b' ∧ l.foldlM f b' = .ok c := by
  rw [List.foldlM_cons, bind_eq_ok]

/-- A computation that can be evaluated returns a value with a property that can be evaluated. -/
lemma exists_ok_of_any {x : Except ε γ} {p : γ → Bool} (h : x.toOption.any p = true) :
    ∃ a, x = .ok a ∧ p a = true := by
  cases x with
  | error e => cases h
  | ok a => exact ⟨a, rfl, h⟩

/-- An invariant of the elements visited and the loop state holds when the loop returns. -/
lemma foldlM_inv {f : β → α → Except ε β} {l : List α} {b c : β} {I : List α → β → Prop}
    (h0 : I [] b)
    (hstep : ∀ pre a post b b', l = pre ++ a :: post → I pre b → f b a = .ok b' →
      I (pre ++ [a]) b')
    (e : l.foldlM f b = .ok c) : I l c := by
  suffices h : ∀ pre post b, l = pre ++ post → I pre b → post.foldlM f b = .ok c → I l c from
    h [] l b rfl h0 e
  intro pre post
  induction post generalizing pre with
  | nil =>
    intro b hl hb e
    cases e
    rwa [hl, List.append_nil]
  | cons a post ih =>
    intro b hl hb e
    obtain ⟨b', hf, e'⟩ := foldlM_cons_eq_ok.1 e
    exact ih (pre ++ [a]) b' (by rw [hl, List.append_assoc]; rfl) (hstep pre a post b b' hl hb hf) e'

/-- When every iteration is related to a trace, the loop is related to all traces in a row. -/
lemma foldlM_trace {δ : Type*} {f : β → α → Except ε β} {g : α → List δ} {R : List δ → β → β → Prop}
    (hrefl : ∀ b, R [] b b) (htrans : ∀ {v w a b c}, R v a b → R w b c → R (v ++ w) a c)
    {l : List α} {b c : β} (hstep : ∀ b a b', a ∈ l → f b a = .ok b' → R (g a) b b')
    (e : l.foldlM f b = .ok c) : R (l.flatMap g) b c := by
  induction l generalizing b with
  | nil => cases e; exact hrefl _
  | cons a l ih =>
    obtain ⟨b', hf, e'⟩ := foldlM_cons_eq_ok.1 e
    rw [List.flatMap_cons]
    exact htrans (hstep b a b' (by simp) hf) (ih (fun b x b' hx => hstep b x b' (by simp [hx])) e')

/-- When a loop raises, the iterations before that are related to their traces and the one that raises
to its own; the traces that the loop does not get to make no difference. -/
lemma foldlM_raise {δ : Type*} {f : β → α → Except ε β} {g : α → List δ} {R : List δ → β → β → Prop}
    {E : List δ → β → ε → Prop} (hraise : ∀ {v w b err}, E v b err → E (v ++ w) b err)
    (hafter : ∀ {v w b c err}, R v b c → E w c err → E (v ++ w) b err) {l : List α} {b : β} {err : ε}
    (hstep : ∀ b a b', f b a = .ok b' → R (g a) b b')
    (hfail : ∀ b a err, f b a = .error err → E (g a) b err)
    (e : l.foldlM f b = .error err) : E (l.flatMap g) b err := by
  induction l generalizing b with
  | nil => cases e
  | cons a l ih =>
    rw [List.flatMap_cons]
    rw [List.foldlM_cons] at e
    cases hf : f b a with
    | error err' =>
      rw [hf] at e
      cases e
      exact hraise (hfail b a err hf)
    | ok b' =>
      rw [hf] at e
      exact hafter (hstep b a b' hf) (ih e)

/-- When an iteration, from a state that its trace and more can follow, returns a state that the rest
can follow, so does the loop. -/
lemma foldlM_follow {δ : Type*} {f : β → α → Except ε β} {g : α → List δ} {R : List δ → β → Prop}
    {l : List α} {b : β} {w : List δ}
    (hstep : ∀ b a w, a ∈ l → R (g a ++ w) b → ∃ b', f b a = .ok b' ∧ R w b')
    (h : R (l.flatMap g ++ w) b) : ∃ c, l.foldlM f b = .ok c ∧ R w c := by
  induction l generalizing b with
  | nil => exact ⟨b, rfl, h⟩
  | cons a l ih =>
    rw [List.flatMap_cons, List.append_assoc] at h
    obtain ⟨b', hf, h'⟩ := hstep b a _ (by simp) h
    obtain ⟨c, hc, hw⟩ := ih (fun b x w hx => hstep b x w (by simp [hx])) h'
    exact ⟨c, foldlM_cons_eq_ok.2 ⟨b', hf, hc⟩, hw⟩

/-- When the element alone decides whether an iteration returns, the loop returns exactly when all of
its iterations do. -/
lemma foldlM_returns {f : β → α → Except ε β} {p : α → Prop}
    (hstep : ∀ b a, (∃ b', f b a = .ok b') ↔ p a) {l : List α} {b : β} :
    (∃ c, l.foldlM f b = .ok c) ↔ ∀ a ∈ l, p a := by
  induction l generalizing b with
  | nil => exact iff_of_true ⟨b, rfl⟩ nofun
  | cons a l ih =>
    rw [List.forall_mem_cons]
    constructor
    · rintro ⟨c, e⟩
      obtain ⟨b', hf, e'⟩ := foldlM_cons_eq_ok.1 e
      exact ⟨(hstep b a).1 ⟨b', hf⟩, ih.1 ⟨c, e'⟩⟩
    · rintro ⟨ha, hl⟩
      obtain ⟨b', hf⟩ := (hstep b a).2 ha
      obtain ⟨c, e'⟩ := ih.2 hl
      exact ⟨c, foldlM_cons_eq_ok.2 ⟨b', hf, e'⟩⟩

/-- A loop over other elements from another state, where each iteration follows one of the first loop:
so does the whole. -/
lemma foldlM_hom {α' : Type*} {β' : Type v} {f : β → α → Except ε β} {f' : β' → α' → Except ε β'}
    {g : β → β'} {h : α → α'} {l : List α} (step : ∀ b, ∀ a ∈ l, f' (g b) (h a) = (f b a).map g) (b : β) :
    (l.map h).foldlM f' (g b) = (l.foldlM f b).map g := by
  induction l generalizing b with
  | nil => rfl
  | cons a l ih =>
    rw [List.map_cons, List.foldlM_cons, List.foldlM_cons, step b a List.mem_cons_self]
    cases f b a with
    | error e => rfl
    | ok b' => exact ih (fun b a mem => step b a (List.mem_cons_of_mem _ mem)) b'

end Loop
