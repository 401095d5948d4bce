import Mathlib.Algebra.Order.BigOperators.Group.List
import Mathlib.Algebra.Order.Field.Basic
import Mathlib.Tactic.FieldSimp
import Mathlib.Tactic.Linarith
import Mathlib.Tactic.Ring

/-!
# Price ladders

One side of an order book, as a list of levels (price and size) that are filled one after the other.
`cost levels q` is what a fill of size `q` costs, and `bought levels t` is the size that a budget `t`
buys; `cost_bought` says that the second inverts the first. `taken levels t` is the same purchase
level by level: a `Fill`, which takes a prefix of the levels and only the last of them in part.

Along a ladder the average price of a fill moves with the prices: when they do not decrease, a
smaller fill is no dearer on average than a larger one (`cost_mul_le`), and when they do not
increase, it is no cheaper (`mul_cost_le`). `cost_le_of_average` and `le_cost_of_average` read this
as a bound: the average price of a fill prices every smaller fill on the safe side.
-/

namespace Ladder

section Fills

variable {K : Type*} [Field K]

/-- The size on all levels together. -/
def depth (levels : List (K × K)) : K := (levels.map Prod.snd).sum

/-- The value of all levels together. -/
def total (levels : List (K × K)) : K := (levels.map fun l => l.1 * l.2).sum

/-- The same levels with all prices negated. -/
def flip (levels : List (K × K)) : List (K × K) := levels.map fun l => (-l.1, l.2)

@[simp] lemma depth_cons (p v : K) (levels) : depth ((p, v) :: levels) = v + depth levels := by
  simp [depth]

@[simp] lemma total_cons (p v : K) (levels) : total ((p, v) :: levels) = p * v + total levels := by
  simp [total]

@[simp] lemma depth_flip (levels : List (K × K)) : depth (flip levels) = depth levels := by
  simp [depth, flip, Function.comp_def]

lemma total_flip (levels : List (K × K)) : total (flip levels) = -total levels := by
  induction levels with
  | nil => simp [flip, total]
  | cons l levels ih =>
    have ih' : total (levels.map fun l => (-l.1, l.2)) = -total levels := ih
    rw [flip, List.map_cons, total_cons, ih', total_cons]
    ring

variable [LinearOrder K]

/-- The cost of a fill of size `q`. -/
def cost : List (K × K) → K → K
  | [], _ => 0
  | (p, v) :: levels, q => if q ≤ v then p * q else p * v + cost levels (q - v)

/-- The size that the budget `t` buys. -/
def bought : List (K × K) → K → K
  | [], _ => 0
  | (p, v) :: levels, t => if t ≤ p * v then t / p else v + bought levels (t - p * v)

/-- A fill takes levels from the front, and only its last level in part. -/
inductive Fill : List (K × K) → List (K × K) → Prop where
  | none {levels : List (K × K)} : Fill levels []
  | part {p v q levels} (pos : 0 < q) (le : q ≤ v) : Fill ((p, v) :: levels) [(p, q)]
  | whole {p v levels taken} (rest : Fill levels taken) : Fill ((p, v) :: levels) ((p, v) :: taken)

/-- The fill that the budget `t` buys. -/
def taken : List (K × K) → K → List (K × K)
  | [], _ => []
  | (p, v) :: levels, t => if t ≤ p * v then [(p, t / p)] else (p, v) :: taken levels (t - p * v)

/-- Every level has a positive size. -/
def Sized (levels : List (K × K)) : Prop := ∀ l ∈ levels, 0 < l.2

/-- Every level has a positive price. -/
def Priced (levels : List (K × K)) : Prop := ∀ l ∈ levels, 0 < l.1

/-- Prices do not decrease. -/
def Ascending (levels : List (K × K)) : Prop := levels.Pairwise fun a b => a.1 ≤ b.1

/-- Prices do not increase. -/
def Descending (levels : List (K × K)) : Prop := levels.Pairwise fun a b => b.1 ≤ a.1

lemma cost_flip (levels : List (K × K)) (q : K) : cost (flip levels) q = -cost levels q := by
  induction levels generalizing q with
  | nil => simp [flip, cost]
  | cons l levels ih =>
    have ih' := ih (q - l.2)
    simp only [flip] at ih'
    simp only [flip, List.map_cons, cost, ih']
    split <;> ring

lemma cost_zero {levels : List (K × K)} (sized : Sized levels) : cost levels 0 = 0 := by
  cases levels with
  | nil => rfl
  | cons l levels => simp [cost, (sized l (by simp)).le]

lemma taken_ne_nil {levels : List (K × K)} (ne : levels ≠ []) (t : K) : taken levels t ≠ [] := by
  cases levels with
  | nil => exact absurd rfl ne
  | cons l levels =>
    simp only [taken]
    split <;> exact List.cons_ne_nil _ _

/-- What is taken is what the budget buys. -/
lemma depth_taken (levels : List (K × K)) (t : K) : depth (taken levels t) = bought levels t := by
  induction levels generalizing t with
  | nil => rfl
  | cons l levels ih =>
    simp only [taken, bought]
    split
    · simp [depth]
    · rw [depth_cons, ih]

lemma Fill.sized {levels taken : List (K × K)} (fill : Fill levels taken) (sized : Sized levels) :
    Sized taken := by
  induction fill with
  | none => exact fun l hl => absurd hl List.not_mem_nil
  | part pos => exact List.forall_mem_cons.2 ⟨pos, fun l hl => absurd hl List.not_mem_nil⟩
  | whole _ ih =>
    obtain ⟨hv, sized'⟩ := List.forall_mem_cons.1 sized
    exact List.forall_mem_cons.2 ⟨hv, ih sized'⟩

end Fills

variable {K : Type*} [Field K] [LinearOrder K] [IsStrictOrderedRing K]
variable {levels : List (K × K)} {p q Q t : K}

/-! ## Average prices -/

/-- The cost of more, when no level is cheaper than `p`. -/
lemma mul_sub_le_cost_sub (sized : Sized levels) (floor : ∀ l ∈ levels, p ≤ l.1) (hq : 0 ≤ q)
    (hle : q ≤ Q) (hQ : Q ≤ depth levels) : p * (Q - q) ≤ cost levels Q - cost levels q := by
  induction levels generalizing q Q with
  | nil =>
    -- nothing to fill: both sizes are zero
    have hQ' : Q ≤ 0 := by simpa [depth] using hQ
    have hsub : Q - q = 0 := by linarith
    simp [cost, hsub]
  | cons l levels ih =>
    obtain ⟨p₁, v⟩ := l
    obtain ⟨hp, floor'⟩ := List.forall_mem_cons.1 floor
    obtain ⟨hv, sized'⟩ := List.forall_mem_cons.1 sized
    have hdep : Q - v ≤ depth levels := by rw [depth_cons] at hQ; linarith
    simp only [cost]
    split
    case isTrue hQv =>
      -- both fills end in the first level
      rw [if_pos (hle.trans hQv), ← mul_sub]
      exact mul_le_mul_of_nonneg_right hp (sub_nonneg.2 hle)
    case isFalse hQv =>
      have hvQ : v ≤ Q := (not_le.1 hQv).le
      split
      case isTrue hqv =>
        -- only the smaller one does: what is left of the level, and then what is below it
        have hrest := ih sized' floor' le_rfl (sub_nonneg.2 hvQ) hdep
        have hfirst : p * (v - q) ≤ p₁ * (v - q) :=
          mul_le_mul_of_nonneg_right hp (sub_nonneg.2 hqv)
        rw [cost_zero sized'] at hrest
        linarith
      case isFalse hqv =>
        have hvq : v ≤ q := (not_le.1 hqv).le
        have hrest := ih sized' floor' (sub_nonneg.2 hvq) (sub_le_sub_right hle v) hdep
        linarith

/-- On rising prices, a smaller fill is no dearer on average. -/
theorem cost_mul_le (sized : Sized levels) (asc : Ascending levels) (hq : 0 ≤ q) (hle : q ≤ Q)
    (hQ : Q ≤ depth levels) : cost levels q * Q ≤ cost levels Q * q := by
  induction levels generalizing q Q with
  | nil => simp [cost]
  | cons l levels ih =>
    obtain ⟨p, v⟩ := l
    obtain ⟨floor, asc'⟩ := List.pairwise_cons.1 asc
    obtain ⟨hv, sized'⟩ := List.forall_mem_cons.1 sized
    have hdep : Q - v ≤ depth levels := by rw [depth_cons] at hQ; linarith
    simp only [cost]
    split
    case isTrue hqv =>
      split
      case isTrue hQv => exact (mul_right_comm p q Q).le
      case isFalse hQv =>
        -- the smaller fill pays the first price, which no level undercuts
        have hmore := mul_sub_le_cost_sub sized' floor le_rfl (sub_nonneg.2 (not_le.1 hQv).le) hdep
        rw [cost_zero sized'] at hmore
        have hall : p * Q ≤ p * v + cost levels (Q - v) := by linarith
        calc p * q * Q = p * Q * q := mul_right_comm p q Q
          _ ≤ _ := mul_le_mul_of_nonneg_right hall hq
    case isFalse hqv =>
      have hvq : v < q := not_le.1 hqv
      rw [if_neg (not_le.2 (hvq.trans_le hle))]
      have hq' : 0 ≤ q - v := sub_nonneg.2 hvq.le
      have hle' : q - v ≤ Q - v := sub_le_sub_right hle v
      have hrest := ih sized' asc' hq' hle' hdep
      have hmore := mul_sub_le_cost_sub sized' floor hq' hle' hdep
      -- the first level, the cheapest, weighs more in the smaller fill
      have hfirst : v * (p * (Q - v - (q - v))) ≤ v * (cost levels (Q - v) - cost levels (q - v)) :=
        mul_le_mul_of_nonneg_left hmore hv.le
      linarith

/-- On falling prices, a smaller fill is no cheaper on average. -/
theorem mul_cost_le (sized : Sized levels) (desc : Descending levels) (hq : 0 ≤ q) (hle : q ≤ Q)
    (hQ : Q ≤ depth levels) : cost levels Q * q ≤ cost levels q * Q := by
  have sized' : Sized (flip levels) := List.forall_mem_map.2 fun l hl => sized l hl
  have asc : Ascending (flip levels) :=
    List.pairwise_map.2 (desc.imp fun h => neg_le_neg h)
  -- with the signs of the prices flipped, falling prices rise
  have h := cost_mul_le sized' asc hq hle ((depth_flip levels).symm ▸ hQ)
  rw [cost_flip, cost_flip] at h
  linarith

/-- On rising prices, the average price of a fill covers every smaller fill. -/
lemma cost_le_of_average (sized : Sized levels) (asc : Ascending levels) (hq : 0 ≤ q) (hle : q ≤ Q)
    (hQ : Q ≤ depth levels) (pos : 0 < Q) (average : p * Q = cost levels Q) :
    cost levels q ≤ q * p := by
  have h := cost_mul_le sized asc hq hle hQ
  rw [← average] at h
  refine le_of_mul_le_mul_right ?_ pos
  linarith

/-- On falling prices, every smaller fill brings at least the average price of a fill. -/
lemma le_cost_of_average (sized : Sized levels) (desc : Descending levels) (hq : 0 ≤ q)
    (hle : q ≤ Q) (hQ : Q ≤ depth levels) (pos : 0 < Q) (average : p * Q = cost levels Q) :
    q * p ≤ cost levels q := by
  have h := mul_cost_le sized desc hq hle hQ
  rw [← average] at h
  refine le_of_mul_le_mul_right ?_ pos
  linarith

/-! ## Budgets -/

lemma total_nonneg (sized : Sized levels) (priced : Priced levels) : 0 ≤ total levels := by
  refine List.sum_nonneg fun x hx => ?_
  obtain ⟨l, hl, rfl⟩ := List.mem_map.1 hx
  exact (mul_pos (priced l hl) (sized l hl)).le

lemma total_pos (sized : Sized levels) (priced : Priced levels) (ne : levels ≠ []) :
    0 < total levels := by
  cases levels with
  | nil => exact absurd rfl ne
  | cons l levels =>
    obtain ⟨p, v⟩ := l
    obtain ⟨hv, sized'⟩ := List.forall_mem_cons.1 sized
    obtain ⟨hp, priced'⟩ := List.forall_mem_cons.1 priced
    rw [total_cons]
    exact add_pos_of_pos_of_nonneg (mul_pos hp hv) (total_nonneg sized' priced')

/-- A budget buys something, if there is something to buy. -/
lemma bought_pos (sized : Sized levels) (priced : Priced levels) (ht : 0 < t) (ne : levels ≠ []) :
    0 < bought levels t := by
  induction levels generalizing t with
  | nil => exact absurd rfl ne
  | cons l levels ih =>
    obtain ⟨p, v⟩ := l
    obtain ⟨hv, sized'⟩ := List.forall_mem_cons.1 sized
    obtain ⟨hp, priced'⟩ := List.forall_mem_cons.1 priced
    simp only [bought]
    split
    case isTrue => exact div_pos ht hp
    case isFalse hlt =>
      cases levels with
      | nil => simpa [bought] using hv
      | cons l levels =>
        have hrest := ih sized' priced' (sub_pos.2 (not_le.1 hlt)) (by simp)
        linarith

/-- A budget buys no more than there is. -/
lemma bought_le_depth (sized : Sized levels) (priced : Priced levels) (t : K) :
    bought levels t ≤ depth levels := by
  induction levels generalizing t with
  | nil => simp [bought, depth]
  | cons l levels ih =>
    obtain ⟨p, v⟩ := l
    obtain ⟨hv, sized'⟩ := List.forall_mem_cons.1 sized
    obtain ⟨hp, priced'⟩ := List.forall_mem_cons.1 priced
    have hdepth : 0 ≤ depth levels := List.sum_nonneg (by
      intro x hx
      obtain ⟨l, hl, rfl⟩ := List.mem_map.1 hx
      exact (sized' l hl).le)
    simp only [bought, depth_cons]
    split
    case isTrue hle =>
      have : t / p ≤ v := (div_le_iff₀ hp).2 (by linarith)
      linarith
    case isFalse => linarith [ih sized' priced' (t - p * v)]

/-- What a budget buys costs the budget, or all there is. -/
theorem cost_bought (sized : Sized levels) (priced : Priced levels) (ht : 0 < t) :
    cost levels (bought levels t) = min t (total levels) := by
  induction levels generalizing t with
  | nil => simp [cost, total, ht.le]
  | cons l levels ih =>
    obtain ⟨p, v⟩ := l
    obtain ⟨hv, sized'⟩ := List.forall_mem_cons.1 sized
    obtain ⟨hp, priced'⟩ := List.forall_mem_cons.1 priced
    have hrest := total_nonneg sized' priced'
    simp only [bought, total_cons]
    split
    case isTrue hle =>
      have hfits : t / p ≤ v := (div_le_iff₀ hp).2 (by linarith)
      rw [cost, if_pos hfits, mul_div_cancel₀ t hp.ne', min_eq_left (by linarith)]
    case isFalse hlt =>
      have hpos : 0 < t - p * v := sub_pos.2 (not_le.1 hlt)
      cases levels with
      | nil =>
        -- the last level: the budget buys it whole
        have hle : p * v ≤ t := (not_le.1 hlt).le
        simp [bought, cost, total, hle]
      | cons l levels =>
        have hmore := bought_pos sized' priced' hpos (by simp)
        rw [cost, if_neg (by linarith), add_sub_cancel_left, ih sized' priced' hpos,
          ← min_add_add_left, add_sub_cancel]

lemma bought_nonneg (sized : Sized levels) (priced : Priced levels) (ht : 0 ≤ t) :
    0 ≤ bought levels t := by
  induction levels generalizing t with
  | nil => exact le_rfl
  | cons l levels ih =>
    obtain ⟨p, v⟩ := l
    obtain ⟨hv, sized'⟩ := List.forall_mem_cons.1 sized
    obtain ⟨hp, priced'⟩ := List.forall_mem_cons.1 priced
    simp only [bought]
    split
    case isTrue => exact div_nonneg ht hp.le
    case isFalse hlt => exact add_nonneg hv.le (ih sized' priced' (sub_nonneg.2 (not_le.1 hlt).le))

/-- A larger budget buys no less. -/
lemma bought_mono (sized : Sized levels) (priced : Priced levels) {t' : K} (h : t ≤ t') :
    bought levels t ≤ bought levels t' := by
  induction levels generalizing t t' with
  | nil => exact le_rfl
  | cons l levels ih =>
    obtain ⟨p, v⟩ := l
    obtain ⟨hv, sized'⟩ := List.forall_mem_cons.1 sized
    obtain ⟨hp, priced'⟩ := List.forall_mem_cons.1 priced
    simp only [bought]
    split
    case isTrue hle =>
      split
      case isTrue => exact div_le_div_of_nonneg_right h hp.le
      case isFalse hlt =>
        have hfits : t / p ≤ v := (div_le_iff₀ hp).2 (by linarith)
        have hmore := bought_nonneg sized' priced' (sub_nonneg.2 (not_le.1 hlt).le)
        linarith
    case isFalse hlt =>
      rw [if_neg fun hle => hlt (h.trans hle)]
      exact add_le_add_right (ih sized' priced' (sub_le_sub_right h _)) v

/-! ## Fills, level by level -/

lemma fill_taken (priced : Priced levels) (ht : 0 < t) : Fill levels (taken levels t) := by
  induction levels generalizing t with
  | nil => exact .none
  | cons l levels ih =>
    obtain ⟨p, v⟩ := l
    obtain ⟨hp, priced'⟩ := List.forall_mem_cons.1 priced
    simp only [taken]
    split
    case isTrue hle => exact .part (div_pos ht hp) ((div_le_iff₀ hp).2 (by linarith))
    case isFalse hlt => exact .whole (ih priced' (sub_pos.2 (not_le.1 hlt)))

/-- What is taken costs the budget, or all there is. -/
lemma total_taken (sized : Sized levels) (priced : Priced levels) (ht : 0 < t) :
    total (taken levels t) = min t (total levels) := by
  induction levels generalizing t with
  | nil => simp [taken, total, ht.le]
  | cons l levels ih =>
    obtain ⟨p, v⟩ := l
    obtain ⟨hv, sized'⟩ := List.forall_mem_cons.1 sized
    obtain ⟨hp, priced'⟩ := List.forall_mem_cons.1 priced
    have hrest := total_nonneg sized' priced'
    simp only [taken, total_cons]
    split
    case isTrue hle =>
      rw [min_eq_left (by linarith), total_cons, mul_div_cancel₀ t hp.ne']
      exact add_zero t
    case isFalse hlt =>
      rw [total_cons, ih sized' priced' (sub_pos.2 (not_le.1 hlt)), ← min_add_add_left,
        add_sub_cancel]

lemma depth_nonneg (sized : Sized levels) : 0 ≤ depth levels := by
  refine List.sum_nonneg fun x hx => ?_
  obtain ⟨l, hl, rfl⟩ := List.mem_map.1 hx
  exact (sized l hl).le

/-- Some level is no dearer than the average. -/
lemma exists_le_average (sized : Sized levels) (ne : levels ≠ []) :
    ∃ l ∈ levels, l.1 * depth levels ≤ total levels := by
  induction levels with
  | nil => exact absurd rfl ne
  | cons l levels ih =>
    obtain ⟨p, v⟩ := l
    obtain ⟨hv, sized'⟩ := List.forall_mem_cons.1 sized
    cases levels with
    | nil => exact ⟨(p, v), by simp, by simp [depth, total]⟩
    | cons l levels =>
      obtain ⟨l', hl', hle⟩ := ih sized' (List.cons_ne_nil _ _)
      have hdepth := depth_nonneg sized'
      rw [depth_cons, total_cons]
      -- the cheaper one of the first level and of the one found in the rest
      rcases le_total p l'.1 with h | h
      · refine ⟨(p, v), List.mem_cons_self, ?_⟩
        have := mul_le_mul_of_nonneg_right h hdepth
        linarith
      · refine ⟨l', List.mem_cons_of_mem _ hl', ?_⟩
        have := mul_le_mul_of_nonneg_right h hv.le
        linarith

/-- Some level is no cheaper than the average. -/
lemma exists_average_le (sized : Sized levels) (ne : levels ≠ []) :
    ∃ l ∈ levels, total levels ≤ l.1 * depth levels := by
  have sized' : Sized (flip levels) := List.forall_mem_map.2 fun l hl => sized l hl
  -- with the signs of the prices flipped, the cheapest level is the dearest
  obtain ⟨l', hl', hle⟩ := exists_le_average sized' fun h => ne (List.map_eq_nil_iff.1 h)
  obtain ⟨l, hl, rfl⟩ := List.mem_map.1 hl'
  rw [depth_flip, total_flip] at hle
  exact ⟨l, hl, by linarith⟩

end Ladder
