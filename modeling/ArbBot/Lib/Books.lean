import Mathlib.Algebra.BigOperators.Group.Finset.Piecewise
import Mathlib.Algebra.Order.Group.Defs
import Mathlib.Algebra.Order.Group.Unbundled.Basic
import Mathlib.Tactic.Abel

/-!
# Books of several accounts

What a trading simulator keeps, in general terms: accounts `E` that hold cash and, for each asset
of `A`, a stock. Two kinds of move change the books. A trade pays cash at one account, moves a
quantity of an asset from the seller's stock to the buyer's, and pays cash to the seller; the two
accounts may be one. A shipment takes a gross amount of an asset from one account and delivers a
net amount to another.

`cashOf_apply` and `stockOf_apply` say what a move does to the cash and the stock of a set of
accounts together; `cash_nonneg_trade_iff` and `stock_nonneg_apply` say when no holding goes below
zero.
-/

/-- Cash and stock of the accounts. -/
@[ext]
structure Books (E A K : Type*) where
  cash : E → K
  stock : E → A → K

/-- A change of the books. -/
inductive Move (E A K : Type*) where
  | trade (buyer seller : E) (asset : A) (quantity spent received : K)
  | ship (source target : E) (asset : A) (gross net : K)

namespace Move

variable {E A K : Type*} [AddCommGroup K]

/-- The accounts that a move touches. -/
def accounts : Move E A K → List E
  | .trade buyer seller _ _ _ _ => [buyer, seller]
  | .ship source target _ _ _ => [source, target]

/-- The cash that a move brings in. -/
def income : Move E A K → K
  | .trade _ _ _ _ spent received => received - spent
  | .ship _ _ _ _ _ => 0

/-- The stock of asset `c` that a move loses on the way. -/
def loss [DecidableEq A] (c : A) : Move E A K → K
  | .trade _ _ _ _ _ _ => 0
  | .ship _ _ a gross net => if c = a then gross - net else 0

end Move

namespace Books

section Totals

variable {E A K : Type*} [DecidableEq E] [AddCommGroup K]

/-- Add `x` to the cash of `e`. -/
def pay (b : Books E A K) (e : E) (x : K) : Books E A K :=
  { b with cash := fun e' => if e' = e then b.cash e' + x else b.cash e' }

/-- Add `x` to the stock of asset `a` at `e`. -/
def deliver [DecidableEq A] (b : Books E A K) (e : E) (a : A) (x : K) : Books E A K :=
  { b with stock := fun e' a' => if e' = e ∧ a' = a then b.stock e' a' + x else b.stock e' a' }

/-- The books after a move, its entries made one after the other. -/
def apply [DecidableEq A] (b : Books E A K) : Move E A K → Books E A K
  | .trade buyer seller a q spent received =>
    (((b.pay buyer (-spent)).deliver buyer a q).deliver seller a (-q)).pay seller received
  | .ship source target a gross net => (b.deliver source a (-gross)).deliver target a net

/-- The cash of a set of accounts. -/
def cashOf (b : Books E A K) (S : Finset E) : K := ∑ e ∈ S, b.cash e

/-- The stock of an asset over a set of accounts. -/
def stockOf (b : Books E A K) (S : Finset E) (a : A) : K := ∑ e ∈ S, b.stock e a

/-- Adding `x` to one term of a sum. -/
lemma sum_add_at {S : Finset E} {e : E} (he : e ∈ S) (f : E → K) (x : K) :
    (∑ e' ∈ S, if e' = e then f e' + x else f e') = (∑ e' ∈ S, f e') + x := by
  have hsplit : ∀ e' ∈ S, (if e' = e then f e' + x else f e') = f e' + if e' = e then x else 0 := by
    intro e' _
    split <;> simp
  rw [Finset.sum_congr rfl hsplit, Finset.sum_add_distrib, Finset.sum_ite_eq' S e, if_pos he]

lemma cashOf_pay (b : Books E A K) {S : Finset E} {e : E} (he : e ∈ S) (x : K) :
    (b.pay e x).cashOf S = b.cashOf S + x :=
  sum_add_at he b.cash x

@[simp] lemma stockOf_pay (b : Books E A K) (S : Finset E) (e : E) (a : A) (x : K) :
    (b.pay e x).stockOf S a = b.stockOf S a := rfl

variable [DecidableEq A]

@[simp] lemma cashOf_deliver (b : Books E A K) (S : Finset E) (e : E) (a : A) (x : K) :
    (b.deliver e a x).cashOf S = b.cashOf S := rfl

lemma stockOf_deliver (b : Books E A K) {S : Finset E} {e : E} (he : e ∈ S) (a c : A) (x : K) :
    (b.deliver e a x).stockOf S c = b.stockOf S c + if c = a then x else 0 := by
  by_cases hc : c = a
  · subst hc
    simpa [stockOf, deliver] using sum_add_at he (fun e' => b.stock e' c) x
  · simp [stockOf, deliver, hc]

/-- A move changes the cash of the accounts by its income. -/
lemma cashOf_apply (b : Books E A K) {m : Move E A K} {S : Finset E}
    (hS : ∀ e ∈ m.accounts, e ∈ S) : (b.apply m).cashOf S = b.cashOf S + m.income := by
  cases m with
  | trade buyer seller a q spent received =>
    have hb : buyer ∈ S := hS buyer (by simp [Move.accounts])
    have hs : seller ∈ S := hS seller (by simp [Move.accounts])
    simp only [apply, cashOf_pay _ hs, cashOf_deliver, cashOf_pay _ hb, Move.income]
    abel
  | ship source target a gross net => simp [apply, Move.income]

/-- A move changes the stock of an asset by what is lost on the way. -/
lemma stockOf_apply (b : Books E A K) {m : Move E A K} {S : Finset E}
    (hS : ∀ e ∈ m.accounts, e ∈ S) (c : A) :
    (b.apply m).stockOf S c = b.stockOf S c - m.loss c := by
  cases m with
  | trade buyer seller a q spent received =>
    have hb : buyer ∈ S := hS buyer (by simp [Move.accounts])
    have hs : seller ∈ S := hS seller (by simp [Move.accounts])
    simp only [apply, stockOf_pay, stockOf_deliver _ hs, stockOf_deliver _ hb, Move.loss]
    split <;> simp
  | ship source target a gross net =>
    have hs : source ∈ S := hS source (by simp [Move.accounts])
    have ht : target ∈ S := hS target (by simp [Move.accounts])
    simp only [apply, stockOf_deliver _ ht, stockOf_deliver _ hs, Move.loss]
    split
    · abel
    · simp

end Totals

/-! ## Holdings that stay non-negative -/

section Order

variable {E A K : Type*} [DecidableEq E] [DecidableEq A]
  [AddCommGroup K] [LinearOrder K] [IsOrderedAddMonoid K]

/-- No account holds negative cash. -/
def CashNonneg (b : Books E A K) : Prop := ∀ e, 0 ≤ b.cash e

/-- No account holds a negative stock. -/
def StockNonneg (b : Books E A K) : Prop := ∀ e a, 0 ≤ b.stock e a

/-- What a move must be able to take from the stock: a trade its quantity from the seller, a
shipment its gross amount from the source. -/
def InStock (b : Books E A K) : Move E A K → Prop
  | .trade _ seller a q _ _ => 0 ≤ q ∧ q ≤ b.stock seller a
  | .ship source _ a gross net => gross ≤ b.stock source a ∧ 0 ≤ net

/-- A trade between two accounts keeps all cash non-negative exactly when the buyer can pay. -/
lemma cash_nonneg_trade_iff {b : Books E A K} (nn : b.CashNonneg) {buyer seller : E} {a : A}
    {q spent received : K} (hne : buyer ≠ seller) (hr : 0 ≤ received) :
    (b.apply (.trade buyer seller a q spent received)).CashNonneg ↔ spent ≤ b.cash buyer := by
  constructor
  · intro h
    have hb := h buyer
    simpa [apply, pay, deliver, hne] using hb
  · intro h e
    by_cases hs : e = seller
    · subst hs
      simpa [apply, pay, deliver, Ne.symm hne] using add_nonneg (nn e) hr
    · by_cases hb : e = buyer
      · subst hb; simpa [apply, pay, deliver, hs] using h
      · simpa [apply, pay, deliver, hs, hb] using nn e

/-- A move that finds what it takes in stock keeps all stocks non-negative. -/
lemma stock_nonneg_apply {b : Books E A K} (nn : b.StockNonneg) {m : Move E A K}
    (hm : b.InStock m) : (b.apply m).StockNonneg := by
  intro e c
  cases m with
  | trade buyer seller a q spent received =>
    obtain ⟨hq, hle⟩ := hm
    by_cases hs : e = seller ∧ c = a
    · obtain ⟨rfl, rfl⟩ := hs
      by_cases hb : e = buyer
      · subst hb; simpa [apply, pay, deliver] using nn e c
      · simpa [apply, pay, deliver, hb] using hle
    · by_cases hb : e = buyer ∧ c = a
      · obtain ⟨rfl, rfl⟩ := hb
        have hne : e ≠ seller := fun h => hs ⟨h, rfl⟩
        simpa [apply, pay, deliver, hne] using add_nonneg (nn e c) hq
      · simpa [apply, pay, deliver, hs, hb] using nn e c
  | ship source target a gross net =>
    obtain ⟨hle, hn⟩ := hm
    have hsrc : 0 ≤ (b.deliver source a (-gross)).stock e c := by
      by_cases hs : e = source ∧ c = a
      · obtain ⟨rfl, rfl⟩ := hs; simpa [deliver] using hle
      · simpa [deliver, hs] using nn e c
    by_cases ht : e = target ∧ c = a
    · have h := add_nonneg hsrc hn
      simpa [apply, deliver, ht] using h
    · have h := hsrc
      simpa [apply, deliver, ht] using h

end Order

end Books
