import Mathlib.Logic.Function.Iterate
import Mathlib.Order.Bounds.Basic

/-!
# Bounded retries

`attempts good next n a` tries the value `a` and, as long as the value tried is not good, the values
`next a`, `next (next a)` and so on, up to `n` tries. `Ends` says how such a series ends: at the first
good value, or at the last one that it may try. `attempts_ends` is the inversion; what follows from
it is the closed form of a series (`Ends.done_iff`, `Ends.isLeast`, `Ends.retries_eq`) and that a
series which meets good values no later than another one, and may try as often, ends no later
(`done_mono`).
-/

namespace Retry

variable {α β : Type*}

/-- Where a series of tries stands: whether its last value is good, the value, and how many tries
came before it. -/
structure Outcome (α : Type*) where
  done : Bool
  last : α
  retries : ℕ

/-- The series of at most `n` tries that starts at `a`, after `r` tries. -/
def attempts (good : α → Prop) [DecidablePred good] (next : α → α) : ℕ → α → ℕ → Outcome α
  | 0, a, r => ⟨false, a, r⟩
  | n + 1, a, r =>
    if good a then ⟨true, a, r⟩
    else if n = 0 then ⟨false, a, r⟩
    else attempts good next n (next a) (r + 1)

/-- A series from `a` that may retry `n` times ends at its first good value or at its last value. -/
inductive Ends (good : α → Prop) (next : α → α) (n : ℕ) (a : α) (r : ℕ) : Outcome α → Prop where
  | done {k} (le : k ≤ n) (hit : good (next^[k] a)) (first : ∀ j < k, ¬good (next^[j] a)) :
    Ends good next n a r ⟨true, next^[k] a, r + k⟩
  | gaveUp (never : ∀ j ≤ n, ¬good (next^[j] a)) :
    Ends good next n a r ⟨false, next^[n] a, r + n⟩

variable {good : α → Prop} {next : α → α} {n : ℕ} {a : α}

/-- A series that goes on after a bad value ends as its rest does. -/
lemma Ends.retry {r o} (bad : ¬good a) (ends : Ends good next n (next a) (r + 1) o) :
    Ends good next (n + 1) a r o := by
  cases ends with
  | @done k le hit first =>
    rw [Nat.add_assoc, Nat.add_comm 1 k]
    refine .done (Nat.succ_le_succ le) hit fun j hj => ?_
    cases j with
    | zero => exact bad
    | succ j => exact first j (Nat.lt_of_succ_lt_succ hj)
  | gaveUp never =>
    rw [Nat.add_assoc, Nat.add_comm 1 n]
    refine .gaveUp fun j hj => ?_
    cases j with
    | zero => exact bad
    | succ j => exact never j (Nat.le_of_succ_le_succ hj)

/-- Inversion of a series. -/
theorem attempts_ends (good : α → Prop) [DecidablePred good] (next : α → α) (n : ℕ) (a : α)
    (r : ℕ) : Ends good next n a r (attempts good next (n + 1) a r) := by
  induction n generalizing a r with
  | zero =>
    rw [attempts, if_pos rfl]
    split
    case isTrue hit => exact .done (k := 0) le_rfl hit (fun j hj => absurd hj j.not_lt_zero)
    case isFalse bad => exact .gaveUp fun j hj => by rw [Nat.le_zero.1 hj]; exact bad
  | succ n ih =>
    rw [attempts, if_neg n.succ_ne_zero]
    split
    case isTrue hit =>
      exact .done (k := 0) (Nat.zero_le _) hit (fun j hj => absurd hj j.not_lt_zero)
    case isFalse bad => exact (ih (next a) (r + 1)).retry bad

/-! ## Closed form -/

/-- A series is done exactly when one of the values that it may try is good. -/
lemma Ends.done_iff {r o} (ends : Ends good next n a r o) :
    o.done = true ↔ ∃ k ≤ n, good (next^[k] a) := by
  cases ends with
  | done le hit _ => exact iff_of_true rfl ⟨_, le, hit⟩
  | gaveUp never => exact iff_of_false Bool.false_ne_true fun ⟨k, le, hit⟩ => never k le hit

/-- A series that is done retried up to the first good value. -/
lemma Ends.isLeast {o} (ends : Ends good next n a 0 o) (done : o.done = true) :
    IsLeast {k | good (next^[k] a)} o.retries := by
  cases ends with
  | gaveUp => cases done
  | done _ hit first =>
    rw [Nat.zero_add]
    exact ⟨hit, fun j hj => not_lt.1 fun h => first j h hj⟩

/-- A series that is not done retried as often as it may. -/
lemma Ends.retries_eq {o} (ends : Ends good next n a 0 o) (fails : o.done = false) :
    o.retries = n := by
  cases ends with
  | done => cases fails
  | gaveUp => exact Nat.zero_add n

/-- A series that meets good values no later than another one, and may retry as often, is done if
the other one is, after no more retries. -/
theorem done_mono [DecidablePred good] {good' : β → Prop} [DecidablePred good'] {next' : β → β}
    {n' : ℕ} {b : β} (sooner : ∀ k, good (next^[k] a) → good' (next'^[k] b))
    (le : n ≤ n') (done : (attempts good next (n + 1) a 0).done = true) :
    (attempts good' next' (n' + 1) b 0).done = true ∧
      (attempts good' next' (n' + 1) b 0).retries ≤ (attempts good next (n + 1) a 0).retries := by
  have ends := attempts_ends good next n a 0
  have ends' := attempts_ends good' next' n' b 0
  obtain ⟨k, hk, hit⟩ := ends.done_iff.1 done
  have done' := ends'.done_iff.2 ⟨k, hk.trans le, sooner k hit⟩
  exact ⟨done', (ends'.isLeast done').2 (sooner _ (ends.isLeast done).1)⟩

end Retry
