import ArbBot.Executor.Inversion
import ArbBot.Lib.Books
import ArbBot.Lib.Loop

/-!
# The executor keeps books

The abstract side of the executor: the balances are books (`booksOf`), and an event is a move of
these books or leaves them alone (`moveOf`). `Step.books` is the simulation: a step of the executor
changes the books by the move of its event, and touches accounts that exist only. What holds of the
totals of books under moves then holds of the executor over whole runs.

`init_fresh` says how the executor starts.
-/

namespace ArbBot.PaperExecutor

/-- The balances as books: cash is `quote_free`, the stock of a base asset is its `base_free`. -/
def booksOf (balances : OrdDict String ExchangeBalance) : Books String String ℚ where
  cash ex := (balances.get? ex).elim 0 (·.quoteFree)
  stock ex base := (balances.get? ex).elim 0 (·.baseFree.getD base 0)

/-- The books of a state. -/
def books (s : PaperExecutor) : Books String String ℚ := booksOf s.balances

/-- The sum of `quote_free` over all exchanges. -/
def quoteTotal (s : PaperExecutor) : ℚ := s.balances.sumBy (·.quoteFree)

/-- The total of `base_free[base]` over all exchanges. -/
def baseTotal (s : PaperExecutor) (base : String) : ℚ := s.balances.sumBy (·.baseFree.getD base 0)

/-- The move that an event makes. -/
def moveOf (cfg : BotConfig) : Event → Option (Move String String ℚ)
  | .traded opp r =>
    if r.success = true ∧ cfg.mode ≠ .dryRun then
      match splitSymbol opp.symbol with
      | .ok (base, _) => some (.trade opp.buyExchange opp.sellExchange base opp.quantity
          (spentOn cfg opp) (receivedFor cfg opp))
      | .error _ => none
    else none
  | .rebalanced symbol (some m) =>
    match splitSymbol symbol with
    | .ok (base, _) => some (.ship m.source m.target base m.gross m.net)
    | .error _ => none
  | .rebalanced _ none => none
  | .raised _ => none

/-! ## Writes to the balances are entries in the books -/

@[simp] lemma keys_addQuote (b : OrdDict String ExchangeBalance) (ex : String) (x : ℚ) :
    (addQuote b ex x).keys = b.keys := OrdDict.keys_modify b ex _

@[simp] lemma keys_addBase (b : OrdDict String ExchangeBalance) (ex base : String) (x : ℚ) :
    (addBase b ex base x).keys = b.keys := OrdDict.keys_modify b ex _

lemma booksOf_addQuote {b : OrdDict String ExchangeBalance} {ex : String} (hex : ex ∈ b.keys)
    (x : ℚ) : booksOf (addQuote b ex x) = (booksOf b).pay ex x := by
  obtain ⟨bal, h⟩ := OrdDict.mem_keys.1 hex
  ext ex'
  · rcases eq_or_ne ex' ex with rfl | hne
    · simp [booksOf, addQuote, Books.pay, OrdDict.get?_modify, h]
    · simp [booksOf, addQuote, Books.pay, OrdDict.get?_modify, hne]
  · rcases eq_or_ne ex' ex with rfl | hne
    · simp [booksOf, addQuote, Books.pay, OrdDict.get?_modify, h]
    · simp [booksOf, addQuote, Books.pay, OrdDict.get?_modify, hne]

lemma booksOf_addBase {b : OrdDict String ExchangeBalance} {ex : String} (hex : ex ∈ b.keys)
    (base : String) (x : ℚ) :
    booksOf (addBase b ex base x) = (booksOf b).deliver ex base x := by
  obtain ⟨bal, h⟩ := OrdDict.mem_keys.1 hex
  ext ex' base'
  · rcases eq_or_ne ex' ex with rfl | hne
    · simp [booksOf, addBase, Books.deliver, OrdDict.get?_modify, h]
    · simp [booksOf, addBase, Books.deliver, OrdDict.get?_modify, hne]
  · rcases eq_or_ne ex' ex with rfl | hne
    · rcases eq_or_ne base' base with rfl | hbase
      · simp [booksOf, addBase, Books.deliver, OrdDict.get?_modify, OrdDict.getD_set, h]
      · simp [booksOf, addBase, Books.deliver, OrdDict.get?_modify, OrdDict.getD_set, h, hbase]
    · simp [booksOf, addBase, Books.deliver, OrdDict.get?_modify, hne]

@[simp] lemma keys_settle (cfg : BotConfig) (b : OrdDict String ExchangeBalance)
    (opp : Opportunity) (base : String) : (settle cfg b opp base).keys = b.keys := by
  simp [settle]

/-- A settled trade is a trade in the books. -/
lemma booksOf_settle {cfg : BotConfig} {b : OrdDict String ExchangeBalance} {opp : Opportunity}
    {base : String} (hbuy : opp.buyExchange ∈ b.keys) (hsell : opp.sellExchange ∈ b.keys) :
    booksOf (settle cfg b opp base) = (booksOf b).apply (.trade opp.buyExchange opp.sellExchange
      base opp.quantity (spentOn cfg opp) (receivedFor cfg opp)) := by
  rw [settle, booksOf_addQuote (by simpa), booksOf_addBase (by simpa), booksOf_addBase (by simpa),
    booksOf_addQuote hbuy]
  rfl

/-- The exchanges of a planned transfer have accounts. -/
lemma planned_keys {cfg : BotConfig} {s : PaperExecutor} {symbol base : String}
    {m : RebalanceMessage} {vs vt : ℚ}
    (plan : Planned cfg symbol (baseByExchange cfg s base) m vs vt) :
    m.source ∈ s.balances.keys ∧ m.target ∈ s.balances.keys := by
  have hkey : ∀ {ex v}, (baseByExchange cfg s base).get? ex = some v → ex ∈ s.balances.keys := by
    intro ex v h
    rw [get?_baseByExchange] at h
    split at h
    · obtain ⟨bal, hbal, _⟩ := Option.map_eq_some_iff.1 h
      exact OrdDict.mem_keys_of_get? hbal
    · cases h
  exact ⟨hkey plan.source, hkey plan.target⟩

/-! ## Simulation -/

/-- What a step does to the accounts: it keeps their set, and it applies the move of its event,
which touches accounts of that set only. -/
structure Simulates (cfg : BotConfig) (s : PaperExecutor) (ev : Event) (s' : PaperExecutor) :
    Prop where
  keys : s'.balances.keys = s.balances.keys
  books : s'.books = (moveOf cfg ev).elim s.books s.books.apply
  accounts : ∀ m ∈ moveOf cfg ev, ∀ ex ∈ m.accounts, ex ∈ s.balances.keys

/-- An event without a move, in a step that leaves the balances alone. -/
lemma Simulates.of_none {cfg : BotConfig} {s s' : PaperExecutor} {ev : Event}
    (hm : moveOf cfg ev = none) (hb : s'.balances = s.balances) : Simulates cfg s ev s' where
  keys := by rw [hb]
  books := by rw [hm]; exact congrArg booksOf hb
  accounts := by rw [hm]; exact nofun

/-- The executor simulates the books, step by step. -/
theorem Step.books {cfg s op ev s'} (st : Step cfg s op ev s') : Simulates cfg s ev s' := by
  cases st with
  | executeRaised => exact .of_none rfl rfl
  | rebalanceRaised => exact .of_none rfl rfl
  | idle => exact .of_none rfl rfl
  | called call =>
    cases call with
    | refused => exact .of_none rfl rfl
    | rehearsed dry => exact .of_none (by simp [moveOf, dry]) rfl
    | @booked base k _ _ live adm _ =>
      obtain ⟨quote, split⟩ := adm.split
      obtain ⟨_, hbuy, _⟩ := adm.canBuy
      obtain ⟨_, hsell, _⟩ := adm.canSell
      have hbuy := OrdDict.mem_keys_of_get? hbuy
      have hsell := OrdDict.mem_keys_of_get? hsell
      -- `settle` makes the four entries of the trade
      constructor
      · simp
      · simpa [moveOf, tradeResult, live, split, PaperExecutor.books] using booksOf_settle hbuy hsell
      · intro m hm ex hex
        simp only [moveOf, tradeResult, live, split, ne_eq, not_false_eq_true, and_self, if_true,
          Option.mem_def, Option.some.injEq] at hm
        subst hm
        simp only [Move.accounts, List.mem_cons, List.not_mem_nil, or_false] at hex
        cases hex with
        | inl h => exact h ▸ hbuy
        | inr h => exact h ▸ hsell
  | shipped split plan =>
    obtain ⟨_, _, plan⟩ := planTransfer_planned plan
    obtain ⟨hsource, htarget⟩ := planned_keys plan
    constructor
    · simp
    · simp only [PaperExecutor.books, moveOf, split, Option.elim_some, Books.apply]
      rw [booksOf_addBase (by simpa), booksOf_addBase hsource]
    · intro m hm ex hex
      simp only [moveOf, split, Option.mem_def, Option.some.injEq] at hm
      subst hm
      simp only [Move.accounts, List.mem_cons, List.not_mem_nil, or_false] at hex
      cases hex with
      | inl h => exact h ▸ hsource
      | inr h => exact h ▸ htarget

/-! ## Totals -/

lemma quoteTotal_eq (s : PaperExecutor) : s.quoteTotal = s.books.cashOf s.balances.keys.toFinset :=
  s.balances.sumBy_eq_sum _

lemma baseTotal_eq (s : PaperExecutor) (base : String) :
    s.baseTotal base = s.books.stockOf s.balances.keys.toFinset base :=
  s.balances.sumBy_eq_sum _

/-- A step changes the cash of all exchanges by the income of its move. -/
lemma Simulates.quoteTotal {cfg s ev s'} (sim : Simulates cfg s ev s') :
    s'.quoteTotal = s.quoteTotal + (moveOf cfg ev).elim 0 Move.income := by
  rw [quoteTotal_eq, quoteTotal_eq, sim.keys, sim.books]
  cases h : moveOf cfg ev with
  | none => simp
  | some m =>
    exact Books.cashOf_apply _ fun ex hex => List.mem_toFinset.2 (sim.accounts m h ex hex)

/-- A step changes the stock of a base asset on all exchanges by what its move loses. -/
lemma Simulates.baseTotal {cfg s ev s'} (sim : Simulates cfg s ev s') (base : String) :
    s'.baseTotal base = s.baseTotal base - (moveOf cfg ev).elim 0 (Move.loss base) := by
  rw [baseTotal_eq, baseTotal_eq, sim.keys, sim.books]
  cases h : moveOf cfg ev with
  | none => simp
  | some m =>
    exact Books.stockOf_apply _ (fun ex hex => List.mem_toFinset.2 (sim.accounts m h ex hex)) base

/-! ## The initial state -/

/-- A freshly built executor. -/
structure Fresh (cfg : BotConfig) (s : PaperExecutor) : Prop where
  risk : s.risk = {}
  lastTradeAt : s.lastTradeAt = .empty
  lastRebalanceAt : s.lastRebalanceAt = .empty
  quoteFree : ∀ ex bal, s.balances.get? ex = some bal → bal.quoteFree = cfg.capitalPerExchangeUsdt
  baseFree : ∀ ex bal, s.balances.get? ex = some bal → initInventory cfg = .ok bal.baseFree

/-- Every holding of the initial inventory is three times the position cap. -/
lemma initInventory_get? {cfg inventory} (e : initInventory cfg = .ok inventory) {base v}
    (h : inventory.get? base = some v) : v = cfg.maxPositionPerSymbol * 3 := by
  refine Loop.foldlM_inv
    (I := fun _ d => ∀ base v, d.get? base = some v → v = cfg.maxPositionPerSymbol * 3)
    nofun ?_ e base v h
  intro _ symbol _ d d' _ hd e base v h
  obtain ⟨⟨b, _⟩, _, e⟩ := Loop.bind_eq_ok.1 e
  cases e
  rw [OrdDict.get?_set] at h
  split at h
  · exact (Option.some.inj h).symm
  · exact hd base v h

/-- How `__init__` leaves the executor. -/
lemma init_fresh {cfg s} (e : init cfg = .ok s) : Fresh cfg s := by
  obtain ⟨balances, eb, e⟩ := Loop.bind_eq_ok.1 e
  cases e
  have hbal : ∀ ex bal, balances.get? ex = some bal →
      bal.quoteFree = cfg.capitalPerExchangeUsdt ∧ initInventory cfg = .ok bal.baseFree := by
    refine Loop.foldlM_inv (I := fun _ d => ∀ ex bal, d.get? ex = some bal →
      bal.quoteFree = cfg.capitalPerExchangeUsdt ∧ initInventory cfg = .ok bal.baseFree)
      nofun ?_ eb
    intro _ ex _ d d' _ hd e ex' bal h
    obtain ⟨inventory, einv, e⟩ := Loop.bind_eq_ok.1 e
    cases e
    rw [OrdDict.get?_set] at h
    split at h
    · cases h; exact ⟨rfl, einv⟩
    · exact hd ex' bal h
  exact ⟨rfl, rfl, rfl, fun ex bal h => (hbal ex bal h).1, fun ex bal h => (hbal ex bal h).2⟩

lemma init_default : ∃ s₀, init defaultConfig = .ok s₀ :=
  (Loop.exists_ok_of_any (p := fun _ => true) (by decide +kernel)).imp fun _ h => h.1

end ArbBot.PaperExecutor
