import Mathlib.Data.List.DropRight
import Mathlib.Data.List.TakeWhile

/-!
# Separated lists

A list as it is written in one text: the entries with a separator between them. A reader trims each
entry and drops those of which nothing is left (`entries`). What it returns looks like entries
(`isEntry_of_mem`), and a list of such entries is read back from the text that joins them
(`entries_intercalate`).
-/

namespace Separated

variable {α : Type*} {blank : α → Bool} {cs : List α}

/-- Without the characters at both ends that `blank` holds of. -/
def trim (blank : α → Bool) (cs : List α) : List α := (cs.dropWhile blank).rdropWhile blank

lemma trim_eq_self (h : ∀ c ∈ cs, blank c = false) : trim blank cs = cs := by
  have front : cs.dropWhile blank = cs := by
    apply List.dropWhile_eq_self_iff.2
    intro pos
    rw [h _ (List.getElem_mem pos)]
    exact Bool.false_ne_true
  rw [trim, front]
  apply List.rdropWhile_eq_self_iff.2
  intro ne
  rw [h _ (List.getLast_mem ne)]
  exact Bool.false_ne_true

lemma trim_sublist (blank : α → Bool) (cs : List α) : (trim blank cs).Sublist cs := by
  have kept : trim blank cs <+: cs.dropWhile blank := List.rdropWhile_prefix _ _
  exact kept.sublist.trans (List.dropWhile_sublist _)

/-- A trimmed text stays as it is. -/
lemma trim_trim (blank : α → Bool) (cs : List α) : trim blank (trim blank cs) = trim blank cs := by
  have front : (trim blank cs).dropWhile blank = trim blank cs := by
    obtain ⟨rest, e⟩ : trim blank cs <+: cs.dropWhile blank := List.rdropWhile_prefix _ _
    cases first : trim blank cs with
    | nil => rfl
    | cons c kept =>
      rw [first] at e
      have head := List.head?_dropWhile_not blank cs
      rw [← e, List.cons_append, List.head?_cons] at head
      apply List.dropWhile_cons_of_neg
      rw [head]
      exact Bool.false_ne_true
  rw [trim, front]
  exact List.rdropWhile_idempotent _ _

lemma trim_map {f : α → α} (same : blank ∘ f = blank) (cs : List α) :
    trim blank (cs.map f) = (trim blank cs).map f := by
  rw [trim, trim, List.rdropWhile, List.rdropWhile, List.dropWhile_map, ← List.map_reverse,
    List.dropWhile_map, ← List.map_reverse, same]

/-! ## Joined texts -/

variable {sep : α}

/-- A joined text has the characters of its entries. -/
lemma mem_intercalate {c : α} {e : List α} {es : List (List α)} (he : e ∈ es) (mem : c ∈ e) :
    c ∈ [sep].intercalate es := by
  induction es with
  | nil => cases he
  | cons first es ih =>
    cases es with
    | nil =>
      rw [List.intercalate_singleton]
      exact List.mem_singleton.1 he ▸ mem
    | cons second es =>
      rw [List.intercalate_cons_cons, List.append_assoc]
      cases List.mem_cons.1 he with
      | inl same => exact List.mem_append_left _ (same ▸ mem)
      | inr later => exact List.mem_append_right _ (List.mem_cons_of_mem _ (ih later))

/-- A joined text has no other characters, except for the separator. -/
lemma mem_of_mem_intercalate {c : α} {es : List (List α)} (mem : c ∈ [sep].intercalate es) :
    c = sep ∨ ∃ e ∈ es, c ∈ e := by
  induction es with
  | nil => cases mem
  | cons first es ih =>
    cases es with
    | nil =>
      rw [List.intercalate_singleton] at mem
      exact .inr ⟨first, List.mem_cons_self, mem⟩
    | cons second es =>
      rw [List.intercalate_cons_cons, List.append_assoc] at mem
      cases List.mem_append.1 mem with
      | inl mem => exact .inr ⟨first, List.mem_cons_self, mem⟩
      | inr mem =>
        cases List.mem_cons.1 mem with
        | inl same => exact .inl same
        | inr mem =>
          refine (ih mem).imp_right ?_
          intro ⟨e, he, mem⟩
          exact ⟨e, List.mem_cons_of_mem _ he, mem⟩

/-! ## Entries -/

variable [DecidableEq α]

/-- The entries of a text. -/
def entries (sep : α) (blank : α → Bool) (cs : List α) : List (List α) :=
  ((cs.splitOn sep).map (trim blank)).filter (· ≠ [])

/-- What an entry looks like. -/
structure IsEntry (sep : α) (blank : α → Bool) (e : List α) : Prop where
  ne_nil : e ≠ []
  no_sep : sep ∉ e
  trimmed : trim blank e = e

/-- The pieces of a text are free of the separator. -/
lemma not_mem_of_mem_splitOn {piece : List α} (mem : piece ∈ cs.splitOn sep) : sep ∉ piece := by
  induction cs generalizing piece with
  | nil =>
    rw [List.splitOn_nil, List.mem_singleton] at mem
    rw [mem]
    exact List.not_mem_nil
  | cons c cs ih =>
    rw [List.splitOn_cons_eq_if_modifyHead] at mem
    cases pieces : cs.splitOn sep with
    | nil => exact absurd pieces (List.splitOn_ne_nil _ _)
    | cons first later =>
      rw [pieces] at mem ih
      split at mem
      case isTrue =>
        cases List.mem_cons.1 mem with
        | inl e => rw [e]; exact List.not_mem_nil
        | inr mem => exact ih mem
      case isFalse other =>
        rw [List.modifyHead_cons] at mem
        cases List.mem_cons.1 mem with
        | inl e =>
          rw [e]
          intro h
          cases List.mem_cons.1 h with
          | inl same => exact other (beq_iff_eq.2 same.symm)
          | inr h => exact ih List.mem_cons_self h
        | inr mem => exact ih (List.mem_cons_of_mem _ mem)

/-- What is read looks like an entry. -/
theorem isEntry_of_mem {e : List α} (mem : e ∈ entries sep blank cs) : IsEntry sep blank e := by
  obtain ⟨mem, ne⟩ := List.mem_filter.1 mem
  obtain ⟨piece, hpiece, rfl⟩ := List.mem_map.1 mem
  exact {
    ne_nil := of_decide_eq_true ne
    no_sep := fun h => not_mem_of_mem_splitOn hpiece ((trim_sublist blank piece).subset h)
    trimmed := trim_trim blank piece }

/-- The entries of a text have no characters but its own. -/
lemma mem_of_mem_entries {c : α} {e : List α} (he : e ∈ entries sep blank cs) (mem : c ∈ e) :
    c ∈ cs := by
  obtain ⟨piece, hpiece, rfl⟩ := List.mem_map.1 (List.mem_filter.1 he).1
  rw [← @List.intercalate_splitOn _ cs _ _ sep]
  exact mem_intercalate hpiece ((trim_sublist blank piece).subset mem)

/-- Joined entries are read back. -/
theorem entries_intercalate {es : List (List α)} (h : ∀ e ∈ es, IsEntry sep blank e) :
    entries sep blank ([sep].intercalate es) = es := by
  cases es with
  | nil => rfl
  | cons e es =>
    rw [entries, List.splitOn_intercalate _ (fun e mem => (h e mem).no_sep) (List.cons_ne_nil _ _)]
    have trimmed : (e :: es).map (trim blank) = e :: es :=
      (List.map_congr_left fun e mem => (h e mem).trimmed).trans (List.map_id _)
    rw [trimmed]
    exact List.filter_eq_self.2 fun e mem => decide_eq_true (h e mem).ne_nil

end Separated
