import Mathlib.Algebra.BigOperators.Group.Finset.Basic
import Mathlib.Algebra.BigOperators.Group.List.Lemmas
import Mathlib.Data.List.Nodup

/-!
# Insertion-ordered dictionaries

A dictionary that is iterated in the order in which its keys were first inserted, as the
dictionaries of scripting languages are: `set` on a present key replaces the value in place, `set`
on a new key appends. Keys are unique, which is a field of the structure. `get?` reads, `sumBy`
adds up a measure of the values; `sumBy_eq_sum` turns the sum over the entries into a `Finset` sum
over the keys.
-/

/-- A dictionary iterated in insertion order. -/
structure OrdDict (κ ν : Type*) where
  entries : List (κ × ν)
  nodup : (entries.map Prod.fst).Nodup

namespace OrdDict

variable {κ ν : Type*} [DecidableEq κ]

/-- Replace the value at `k` in place, or append it. -/
def upsert (k : κ) (v : ν) : List (κ × ν) → List (κ × ν)
  | [] => [(k, v)]
  | e :: es => if e.1 = k then (k, v) :: es else e :: upsert k v es

/-- The keys of an upsert: unchanged for a present key, else the new key comes last. -/
lemma map_fst_upsert (k : κ) (v : ν) (es : List (κ × ν)) :
    (upsert k v es).map Prod.fst =
      if k ∈ es.map Prod.fst then es.map Prod.fst else es.map Prod.fst ++ [k] := by
  induction es with
  | nil => simp [upsert]
  | cons e es ih =>
    by_cases h : e.1 = k
    · simp [upsert, h]
    · have h' : ¬ k = e.1 := fun e => h e.symm
      simp only [upsert, if_neg h, List.map_cons, ih, List.mem_cons, h', false_or]
      split <;> rfl

/-- The empty dictionary. -/
def empty : OrdDict κ ν := ⟨[], List.nodup_nil⟩

/-- The value stored at `k`. -/
def get? (d : OrdDict κ ν) (k : κ) : Option ν := d.entries.lookup k

/-- The value stored at `k`, or a default. -/
def getD (d : OrdDict κ ν) (k : κ) (v : ν) : ν := (d.get? k).getD v

/-- Store `v` at `k`. -/
def set (d : OrdDict κ ν) (k : κ) (v : ν) : OrdDict κ ν where
  entries := upsert k v d.entries
  nodup := by
    rw [map_fst_upsert]
    split
    · exact d.nodup
    · rename_i h
      exact List.nodup_append.2 ⟨d.nodup, List.nodup_singleton k, fun a ha b hb e =>
        h (List.mem_singleton.1 hb ▸ e ▸ ha)⟩

/-- Change the value at a present key; an absent key is left absent. -/
def modify (d : OrdDict κ ν) (k : κ) (f : ν → ν) : OrdDict κ ν :=
  match d.get? k with
  | some v => d.set k (f v)
  | none => d

/-- The keys, in insertion order. -/
def keys (d : OrdDict κ ν) : List κ := d.entries.map Prod.fst

/-- The values, in insertion order. -/
def values (d : OrdDict κ ν) : List ν := d.entries.map Prod.snd

/-! ## Reading after writing -/

@[simp] lemma get?_empty (k : κ) : (empty : OrdDict κ ν).get? k = none := rfl

lemma lookup_cons_ite (k j : κ) (v : ν) (es : List (κ × ν)) :
    ((k, v) :: es).lookup j = if j = k then some v else es.lookup j := by
  by_cases h : j = k
  · subst h; simp
  · rw [List.lookup_cons, beq_false_of_ne h, if_neg h]

lemma lookup_upsert (k j : κ) (v : ν) (es : List (κ × ν)) :
    (upsert k v es).lookup j = if j = k then some v else es.lookup j := by
  induction es with
  | nil => rw [upsert, lookup_cons_ite]
  | cons e es ih =>
    obtain ⟨a, w⟩ := e
    by_cases h : a = k
    · subst h
      rw [upsert, if_pos rfl, lookup_cons_ite, lookup_cons_ite]
      split <;> rfl
    · rw [upsert, if_neg h, lookup_cons_ite, lookup_cons_ite, ih]
      by_cases hja : j = a
      · subst hja; simp [h]
      · simp [hja]

lemma get?_set (d : OrdDict κ ν) (k j : κ) (v : ν) :
    (d.set k v).get? j = if j = k then some v else d.get? j :=
  lookup_upsert k j v d.entries

@[simp] lemma get?_set_self (d : OrdDict κ ν) (k : κ) (v : ν) : (d.set k v).get? k = some v := by
  rw [get?_set, if_pos rfl]

lemma get?_set_of_ne (d : OrdDict κ ν) {k j : κ} (v : ν) (h : j ≠ k) :
    (d.set k v).get? j = d.get? j := by
  rw [get?_set, if_neg h]

lemma getD_set (d : OrdDict κ ν) (k j : κ) (v w : ν) :
    (d.set k v).getD j w = if j = k then v else d.getD j w := by
  unfold getD
  rw [get?_set]
  split <;> rfl

lemma get?_modify (d : OrdDict κ ν) (k j : κ) (f : ν → ν) :
    (d.modify k f).get? j = if j = k then (d.get? j).map f else d.get? j := by
  unfold modify
  cases h : d.get? k with
  | none =>
    by_cases hj : j = k
    · subst hj; simp [h]
    · simp [hj]
  | some v =>
    by_cases hj : j = k
    · subst hj; simp [h]
    · simp [get?_set_of_ne _ _ hj, hj]

/-! ## Keys -/

lemma mem_keys {d : OrdDict κ ν} {k : κ} : k ∈ d.keys ↔ ∃ v, d.get? k = some v := by
  have h := List.lookup_isSome_iff (l := d.entries) (k := k)
  rw [← Option.isSome_iff_exists, get?, h, keys, List.mem_map]
  constructor
  · rintro ⟨e, he, rfl⟩; exact ⟨e, he, beq_self_eq_true _⟩
  · rintro ⟨e, he, hk⟩; exact ⟨e, he, (eq_of_beq hk).symm⟩

lemma mem_keys_of_get? {d : OrdDict κ ν} {k : κ} {v : ν} (h : d.get? k = some v) : k ∈ d.keys :=
  mem_keys.2 ⟨v, h⟩

lemma keys_set (d : OrdDict κ ν) (k : κ) (v : ν) :
    (d.set k v).keys = if k ∈ d.keys then d.keys else d.keys ++ [k] :=
  map_fst_upsert k v d.entries

lemma keys_set_of_mem {d : OrdDict κ ν} {k : κ} (v : ν) (h : k ∈ d.keys) :
    (d.set k v).keys = d.keys := by
  rw [keys_set, if_pos h]

lemma mem_keys_set {d : OrdDict κ ν} {k j : κ} {v : ν} :
    j ∈ (d.set k v).keys ↔ j = k ∨ j ∈ d.keys := by
  rw [keys_set]
  split
  case isTrue h => exact ⟨.inr, fun e => e.elim (fun e => e ▸ h) id⟩
  case isFalse => rw [List.mem_append, List.mem_singleton, or_comm]

lemma keys_modify (d : OrdDict κ ν) (k : κ) (f : ν → ν) : (d.modify k f).keys = d.keys := by
  unfold modify
  cases h : d.get? k with
  | none => rfl
  | some v => exact keys_set_of_mem _ (mem_keys_of_get? h)

/-- An entry of the list is what `get?` returns: keys are unique. -/
lemma get?_of_mem {d : OrdDict κ ν} {k : κ} {v : ν} (h : (k, v) ∈ d.entries) :
    d.get? k = some v := by
  obtain ⟨es, nd⟩ := d
  induction es with
  | nil => cases h
  | cons e es ih =>
    rw [List.map_cons, List.nodup_cons] at nd
    rcases List.mem_cons.1 h with rfl | hm
    · simp [get?]
    · have hne : k ≠ e.1 := by
        rintro rfl; exact nd.1 (List.mem_map.2 ⟨_, hm, rfl⟩)
      obtain ⟨a, w⟩ := e
      rw [get?, lookup_cons_ite, if_neg hne]
      exact ih nd.2 hm

lemma mem_of_get? {d : OrdDict κ ν} {k : κ} {v : ν} (h : d.get? k = some v) :
    (k, v) ∈ d.entries := by
  obtain ⟨a, b, e, -⟩ := List.lookup_eq_some_iff.1 h
  rw [e]; simp

lemma mem_entries {d : OrdDict κ ν} {k : κ} {v : ν} : (k, v) ∈ d.entries ↔ d.get? k = some v :=
  ⟨get?_of_mem, mem_of_get?⟩

lemma get?_of_mem_keys {d : OrdDict κ ν} {k : κ} (h : k ∈ d.keys) (v : ν) :
    d.get? k = some (d.getD k v) := by
  obtain ⟨w, hw⟩ := mem_keys.1 h
  rw [getD, hw, Option.getD_some]

/-- Two dictionaries with the same keys in the same order that read the same have the same entries. -/
lemma ext_of_keys {d d' : OrdDict κ ν} (keys : d.keys = d'.keys)
    (get : ∀ k ∈ d.keys, d.get? k = d'.get? k) : d = d' := by
  have entries : ∀ d : OrdDict κ ν, d.entries.map Option.some =
      d.keys.map fun k => (d.get? k).map (k, ·) := by
    intro d
    rw [OrdDict.keys, List.map_map]
    refine List.map_congr_left fun e he => ?_
    rw [Function.comp_apply, get?_of_mem he]
    rfl
  have same : d.entries.map Option.some = d'.entries.map Option.some := by
    rw [entries d, entries d', ← keys]
    exact List.map_congr_left fun k hk => by rw [get k hk]
  obtain ⟨es, nd⟩ := d
  obtain ⟨es', nd'⟩ := d'
  obtain rfl := List.map_injective_iff.2 (Option.some_injective _) same
  rfl

/-- Two dictionaries that read the same hold the same values. -/
lemma values_perm {d d' : OrdDict κ ν} (get : ∀ k, d.get? k = d'.get? k) :
    d.values.Perm d'.values := by
  have nodup : ∀ d : OrdDict κ ν, d.entries.Nodup := fun d => d.nodup.of_map
  refine ((List.perm_ext_iff_of_nodup (nodup d) (nodup d')).2 fun ⟨k, v⟩ => ?_).map Prod.snd
  rw [mem_entries, mem_entries, get k]

/-! ## Runs of writes -/

/-- The value at a key after the values of a function have been stored at some keys. -/
lemma get?_foldl_set_of (f : κ → ν) (ks : List κ) (d : OrdDict κ ν) (k : κ) :
    (ks.foldl (fun d k => d.set k (f k)) d).get? k = if k ∈ ks then some (f k) else d.get? k := by
  induction ks generalizing d with
  | nil => rw [List.foldl_nil, if_neg List.not_mem_nil]
  | cons j ks ih =>
    rw [List.foldl_cons, ih, get?_set]
    by_cases h : k = j
    · simp [h]
    · simp [h]

/-- The value at a key after one value has been stored at some keys. -/
lemma get?_foldl_set (l : List κ) (v : ν) (d : OrdDict κ ν) (k : κ) :
    (l.foldl (fun d k => d.set k v) d).get? k = if k ∈ l then some v else d.get? k :=
  get?_foldl_set_of (fun _ => v) l d k

/-- The value at a key after a run, from the steps that can touch the key alone. -/
lemma get?_foldl_filter {μ : Type*} {step : OrdDict κ ν → μ → OrdDict κ ν} {k : κ} {p : μ → Bool}
    (keep : ∀ m d d', d.get? k = d'.get? k → (step d m).get? k = (step d' m).get? k)
    {ms : List μ} (skip : ∀ m ∈ ms, p m = false → ∀ d, (step d m).get? k = d.get? k)
    {d d' : OrdDict κ ν} (e : d.get? k = d'.get? k) :
    (ms.foldl step d).get? k = ((ms.filter p).foldl step d').get? k := by
  induction ms generalizing d d' with
  | nil => exact e
  | cons m ms ih =>
    have ih := @ih fun m' mem => skip m' (List.mem_cons_of_mem _ mem)
    cases hm : p m with
    | true =>
      rw [List.filter_cons_of_pos hm]
      exact ih (keep m d d' e)
    | false =>
      rw [List.filter_cons_of_neg (by rw [hm]; exact Bool.false_ne_true)]
      exact ih ((skip m (List.mem_cons_self ..) hm d).trans e)

/-- The dictionary of a function on a list of keys. -/
def tabulate (f : κ → ν) (ks : List κ) : OrdDict κ ν := ks.foldl (fun d k => d.set k (f k)) .empty

lemma get?_tabulate (f : κ → ν) (ks : List κ) (k : κ) :
    (tabulate f ks).get? k = if k ∈ ks then some (f k) else none :=
  get?_foldl_set_of f ks .empty k

/-- A run of writes whose values are looked up first. -/
lemma foldlM_set {f : κ → Option ν} {g : κ → ν} {ks : List κ} (h : ∀ k ∈ ks, f k = some (g k))
    (d : OrdDict κ ν) :
    ks.foldlM (fun d k => (f k).map (d.set k ·)) d = some (ks.foldl (fun d k => d.set k (g k)) d) := by
  induction ks generalizing d with
  | nil => rfl
  | cons k ks ih =>
    rw [List.foldlM_cons, h k List.mem_cons_self]
    exact ih (fun k hk => h k (List.mem_cons_of_mem _ hk)) _

/-- Where the run succeeds, every value is found. -/
lemma exists_of_foldlM_set {f : κ → Option ν} {ks : List κ} {d d' : OrdDict κ ν}
    (e : ks.foldlM (fun d k => (f k).map (d.set k ·)) d = some d') : ∀ k ∈ ks, ∃ v, f k = some v := by
  induction ks generalizing d with
  | nil =>
    intro k mem
    cases mem
  | cons j ks ih =>
    rw [List.foldlM_cons] at e
    obtain ⟨d₁, e₁, e⟩ := Option.bind_eq_some_iff.1 e
    obtain ⟨v, hv, _⟩ := Option.map_eq_some_iff.1 e₁
    intro k mem
    cases List.mem_cons.1 mem with
    | inl same => exact ⟨v, same ▸ hv⟩
    | inr mem => exact ih e k mem

/-! ## Mapping the values -/

section Map

variable {μ : Type*} {f : ν → μ}

/-- The dictionary with every value mapped. -/
def mapVal (f : ν → μ) (d : OrdDict κ ν) : OrdDict κ μ where
  entries := d.entries.map (Prod.map id f)
  nodup := by
    have keys : (d.entries.map (Prod.map id f)).map Prod.fst = d.entries.map Prod.fst := by
      rw [List.map_map]
      rfl
    rw [keys]
    exact d.nodup

omit [DecidableEq κ] in
lemma values_mapVal (d : OrdDict κ ν) : (d.mapVal f).values = d.values.map f := by
  rw [values, values, mapVal, List.map_map, List.map_map]
  rfl

lemma get?_mapVal (d : OrdDict κ ν) (k : κ) : (d.mapVal f).get? k = (d.get? k).map f := by
  obtain ⟨es, nodup⟩ := d
  show (es.map (Prod.map id f)).lookup k = (es.lookup k).map f
  clear nodup
  induction es with
  | nil => rfl
  | cons e es ih =>
    obtain ⟨j, v⟩ := e
    rw [List.map_cons, Prod.map_apply, id_eq, lookup_cons_ite, lookup_cons_ite, ih, apply_ite (Option.map f)]
    rfl

lemma upsert_map (k : κ) (v : ν) (es : List (κ × ν)) :
    upsert k (f v) (es.map (Prod.map id f)) = (upsert k v es).map (Prod.map id f) := by
  induction es with
  | nil => rfl
  | cons e es ih =>
    rw [List.map_cons, upsert, upsert, ih, apply_ite (List.map _)]
    rfl

lemma set_mapVal (d : OrdDict κ ν) (k : κ) (v : ν) :
    (d.mapVal f).set k (f v) = (d.set k v).mapVal f := by
  have entries := upsert_map (f := f) k v d.entries
  unfold set mapVal
  simp only [entries]

/-- A change of one value, before and after the map. -/
lemma modify_mapVal (d : OrdDict κ ν) (k : κ) {g : ν → ν} {g' : μ → μ} (h : ∀ v, g' (f v) = f (g v)) :
    (d.mapVal f).modify k g' = (d.modify k g).mapVal f := by
  unfold modify
  rw [get?_mapVal]
  cases d.get? k with
  | none => rfl
  | some v =>
    show (d.mapVal f).set k (g' (f v)) = _
    rw [h, set_mapVal]

end Map

/-! ## Sums over the values -/

/-- The sum of a measure of the values. -/
def sumBy {K : Type*} [AddCommMonoid K] (d : OrdDict κ ν) (f : ν → K) : K := (d.values.map f).sum

/-- The sum over the entries is the sum over the keys of what is stored there. -/
lemma sumBy_eq_sum {K : Type*} [AddCommMonoid K] (d : OrdDict κ ν) (f : ν → K) :
    d.sumBy f = ∑ k ∈ d.keys.toFinset, (d.get? k).elim 0 f := by
  have nd : d.keys.Nodup := d.nodup
  rw [List.sum_toFinset _ nd, sumBy, values, keys, List.map_map, List.map_map]
  refine congrArg List.sum (List.map_congr_left fun e he => ?_)
  obtain ⟨k, v⟩ := e
  simp [get?_of_mem he]

end OrdDict
