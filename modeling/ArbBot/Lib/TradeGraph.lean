import Mathlib.Logic.Relation
import Mathlib.Order.Basic

/-!
# Trade graphs

Trades between venues as a directed graph: a trade `e` buys at the venue `src e` for `buy e` and sells
at the venue `dst e` for `sell e`. Two conditions exclude cycles of any length: every trade sells
dearer than it buys, and no venue takes a sale at more than it asks for a purchase. Along a path the
last sale is then dearer than the first purchase (`exists_lt_of_path`), which the second condition
forbids at the venue where a cycle closes (`not_cycle`).
-/

namespace TradeGraph

variable {V E K : Type*} [Preorder K] {src dst : E → V} {buy sell : E → K} {T : Set E}

/-- Some trade of `T` goes from `a` to `b`. -/
def Edge (src dst : E → V) (T : Set E) (a b : V) : Prop := ∃ e ∈ T, src e = a ∧ dst e = b

/-- Along a path the last sale is dearer than the first purchase. -/
lemma exists_lt_of_path (gain : ∀ e ∈ T, buy e < sell e)
    (uncrossed : ∀ e ∈ T, ∀ e' ∈ T, dst e = src e' → sell e ≤ buy e') {a b : V}
    (path : Relation.TransGen (Edge src dst T) a b) :
    ∃ e ∈ T, ∃ e' ∈ T, src e = a ∧ dst e' = b ∧ buy e < sell e' := by
  induction path with
  | single edge =>
    obtain ⟨e, he, hsrc, hdst⟩ := edge
    exact ⟨e, he, e, he, hsrc, hdst, gain e he⟩
  | tail _ edge ih =>
    obtain ⟨e, he, l, hl, hsrc, hlast, hlt⟩ := ih
    obtain ⟨e', he', hsrc', hdst'⟩ := edge
    have hnext : sell l ≤ buy e' := uncrossed l hl e' he' (hlast.trans hsrc'.symm)
    exact ⟨e, he, e', he', hsrc, hdst', (hlt.trans_le hnext).trans (gain e' he')⟩

/-- There is no cycle. -/
theorem not_cycle (gain : ∀ e ∈ T, buy e < sell e)
    (uncrossed : ∀ e ∈ T, ∀ e' ∈ T, dst e = src e' → sell e ≤ buy e') (a : V) :
    ¬Relation.TransGen (Edge src dst T) a a := by
  intro cycle
  obtain ⟨e, he, l, hl, hsrc, hlast, hlt⟩ := exists_lt_of_path gain uncrossed cycle
  exact absurd hlt (uncrossed l hl e he (hlast.trans hsrc.symm)).not_gt

end TradeGraph
