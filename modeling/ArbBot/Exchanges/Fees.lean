import ArbBot.Engine.Inversion
import ArbBot.Exchanges.Gateway
import ArbBot.Lib.Smoothing
import Mathlib.Data.List.TakeWhile

/-!
# Taker fees

Port of `resolve_taker_fees` of `src/exchanges.py`: the taker fee of an exchange is the mean of the fees
that its account data report for the configured symbols, else the mean of those that its market data
report, else the configured one. What the client answers is a parameter, as in `Gateway`.

The two loops over the symbols are one (`takerFees`), which stops at the first value that does not
convert to a number. What was read until then counts for the account data, where the exception is
caught; for the market data it is not caught, and ends the start of the bot.
-/

namespace ArbBot

/-- The value of `fee_sources` for an exchange. -/
inductive FeeSource where
  | envFallback
  | marketsTaker
  | apiTradingFees
  deriving DecidableEq, Repr

/-- What a client answers about fees: the entry `taker` of each market and of each row of the account
data, where there is one. Without `fetchTradingFees` there are no account data. -/
structure FeeClient where
  loadMarkets : Except PyError (String → Option Cell)
  tradingFees : Option (Except PyError (String → Option Cell))

/-- The loop over the symbols: the positive taker fees, and the exception that ends it, if any. -/
def takerFees (rows : String → Option Cell) : List String → List ℚ × Option PyError
  | [] => ([], none)
  | symbol :: symbols =>
    match rows symbol with
    | none => takerFees rows symbols
    | some cell =>
      match cell.toFloat with
      | .error e => ([], some e)
      | .ok taker =>
        let rest := takerFees rows symbols
        (if 0 < taker then taker :: rest.1 else rest.1, rest.2)

/-- `market_fees`. -/
def marketFees (symbols : List String) (client : FeeClient) : Except PyError (List ℚ) :=
  match client.loadMarkets with
  | .error _ => .ok []
  | .ok markets =>
    match takerFees markets symbols with
    | (fees, none) => .ok fees
    | (_, some e) => .error e

/-- `api_fees`. -/
def apiFees (symbols : List String) (client : FeeClient) : List ℚ :=
  match client.tradingFees with
  | some (.ok rows) => (takerFees rows symbols).1
  | some (.error _) => []
  | none => []

/-- The body of the loop over the clients: `best_fee` and `source`. -/
def resolveFee (symbols : List String) (fallbackFee : ℚ) (client : FeeClient) :
    Except PyError (ℚ × FeeSource) := do
  let marketFees ← marketFees symbols client
  let apiFees := apiFees symbols client
  if apiFees ≠ [] then return (apiFees.sum / apiFees.length, .apiTradingFees)
  else if marketFees ≠ [] then return (marketFees.sum / marketFees.length, .marketsTaker)
  else return (fallbackFee, .envFallback)

/-- `resolved` and `sources`, which are filled together. -/
structure ResolvedFees where
  fees : OrdDict String ℚ
  sources : OrdDict String FeeSource
  same : sources.keys = fees.keys

namespace ResolvedFees

/-- Nothing is resolved. -/
def empty : ResolvedFees := ⟨.empty, .empty, rfl⟩

/-- Enter the fee and the source of an exchange. -/
def set (resolved : ResolvedFees) (exchangeName : String) (fee : ℚ) (source : FeeSource) :
    ResolvedFees where
  fees := resolved.fees.set exchangeName fee
  sources := resolved.sources.set exchangeName source
  same := by rw [OrdDict.keys_set, OrdDict.keys_set, resolved.same]

/-- The fee and the source of an exchange. -/
def Holds (resolved : ResolvedFees) (exchangeName : String) (fee : ℚ) (source : FeeSource) : Prop :=
  resolved.fees.get? exchangeName = some fee ∧ resolved.sources.get? exchangeName = some source

lemma holds_set {resolved : ResolvedFees} {name name' fee fee' source source'} :
    (resolved.set name fee source).Holds name' fee' source' ↔
      (name' = name ∧ fee' = fee ∧ source' = source) ∨ name' ≠ name ∧ resolved.Holds name' fee' source' := by
  unfold Holds set
  rw [OrdDict.get?_set, OrdDict.get?_set]
  by_cases h : name' = name
  · simp [h, eq_comm]
  · simp [h]

/-- Every exchange with a fee has a source. -/
lemma mem_keys {resolved : ResolvedFees} {name} :
    name ∈ resolved.fees.keys ↔ ∃ fee source, resolved.Holds name fee source := by
  constructor
  · intro mem
    obtain ⟨fee, hfee⟩ := OrdDict.mem_keys.1 mem
    obtain ⟨source, hsource⟩ := OrdDict.mem_keys.1 (resolved.same ▸ mem)
    exact ⟨fee, source, hfee, hsource⟩
  · rintro ⟨fee, source, hfee, _⟩
    exact OrdDict.mem_keys_of_get? hfee

end ResolvedFees

/-- The loop over the clients, for one of them. -/
def enterClient (symbols : List String) (fallback : OrdDict String ℚ) (resolved : ResolvedFees)
    (entry : String × FeeClient) : Except PyError ResolvedFees := do
  let (fee, source) ← resolveFee symbols (fallback.getD entry.1 (1 / 1000)) entry.2
  return resolved.set entry.1 fee source

/-- The loop over the fallback, for one of its entries. -/
def enterFallback (resolved : ResolvedFees) (entry : String × ℚ) : ResolvedFees :=
  if entry.1 ∈ resolved.fees.keys then resolved else resolved.set entry.1 entry.2 .envFallback

/-- `resolve_taker_fees`. -/
def resolveTakerFees (clients : OrdDict String FeeClient) (symbols : List String)
    (fallback : OrdDict String ℚ) : Except PyError ResolvedFees := do
  let resolved ← clients.entries.foldlM (enterClient symbols fallback) .empty
  return fallback.entries.foldl enterFallback resolved

/-! ## The loop over the symbols -/

/-- The rows report a positive taker fee for one of the symbols. -/
def Reports (rows : String → Option Cell) (symbols : List String) (fee : ℚ) : Prop :=
  0 < fee ∧ ∃ symbol ∈ symbols, rows symbol = some (.num fee)

/-- The rows report a positive taker fee for one of the symbols, ahead of all that are unreadable. -/
def ReportsInTime (rows : String → Option Cell) (symbols : List String) : Prop :=
  ∃ pre symbol post fee, symbols = pre ++ symbol :: post ∧ rows symbol = some (.num fee) ∧ 0 < fee ∧
    ∀ s ∈ pre, rows s ≠ some .unreadable

/-- The positive taker fee that the rows report for a symbol, if they do. -/
def reportedFee (rows : String → Option Cell) (symbol : String) : Option ℚ :=
  match rows symbol with
  | some (.num fee) => if 0 < fee then some fee else none
  | some .none => none
  | some .unreadable => none
  | none => none

/-- The positive taker fees that the rows report for the symbols, in the order of the symbols. -/
def reportedFees (rows : String → Option Cell) (symbols : List String) : List ℚ :=
  symbols.filterMap (reportedFee rows)

/-- The symbols ahead of the first one whose fee is unreadable. -/
def readableSymbols (rows : String → Option Cell) (symbols : List String) : List String :=
  symbols.takeWhile fun symbol => rows symbol ≠ some .unreadable

lemma reportedFee_eq_some {rows : String → Option Cell} {symbol : String} {fee : ℚ} :
    reportedFee rows symbol = some fee ↔ rows symbol = some (.num fee) ∧ 0 < fee := by
  unfold reportedFee
  cases rows symbol with
  | none => simp
  | some cell =>
    cases cell with
    | none => simp
    | unreadable => simp
    | num x =>
      simp only [Option.ite_none_right_eq_some, Option.some.injEq, Cell.num.injEq]
      constructor
      · rintro ⟨pos, rfl⟩
        exact ⟨rfl, pos⟩
      · rintro ⟨rfl, pos⟩
        exact ⟨pos, rfl⟩

lemma mem_reportedFees {rows : String → Option Cell} {symbols : List String} {fee : ℚ} :
    fee ∈ reportedFees rows symbols ↔ Reports rows symbols fee := by
  simp only [reportedFees, List.mem_filterMap, reportedFee_eq_some, Reports]
  constructor
  · rintro ⟨symbol, mem, row, pos⟩
    exact ⟨pos, symbol, mem, row⟩
  · rintro ⟨pos, symbol, mem, row⟩
    exact ⟨symbol, mem, row, pos⟩

/-- The loop reads the fees of the symbols ahead of the first unreadable one. -/
lemma takerFees_eq (rows : String → Option Cell) (symbols : List String) :
    (takerFees rows symbols).1 = reportedFees rows (readableSymbols rows symbols) := by
  induction symbols with
  | nil => rfl
  | cons symbol symbols ih =>
    unfold takerFees readableSymbols
    unfold readableSymbols at ih
    cases row : rows symbol with
    | none => simp [reportedFees, reportedFee, row, ih]
    | some cell =>
      cases cell with
      | none => simp [reportedFees, reportedFee, row, Cell.toFloat, ih]
      | unreadable => simp [reportedFees, row, Cell.toFloat]
      | num x =>
        by_cases pos : 0 < x
        · simp [reportedFees, reportedFee, row, Cell.toFloat, pos, ih]
        · simp [reportedFees, reportedFee, row, Cell.toFloat, pos, ih]

/-- The fees of readable symbols are all read. -/
lemma readableSymbols_eq {rows : String → Option Cell} {symbols : List String}
    (readable : ∀ symbol ∈ symbols, rows symbol ≠ some .unreadable) :
    readableSymbols rows symbols = symbols :=
  List.takeWhile_eq_self_iff.2 fun symbol mem => decide_eq_true (readable symbol mem)

lemma takerFees_raises (rows : String → Option Cell) (symbols : List String) :
    (takerFees rows symbols).2 = none ↔ ∀ symbol ∈ symbols, rows symbol ≠ some .unreadable := by
  induction symbols with
  | nil => simp [takerFees]
  | cons symbol symbols ih =>
    rw [List.forall_mem_cons]
    unfold takerFees
    cases row : rows symbol with
    | none => simp [ih]
    | some cell =>
      cases cell with
      | unreadable => simp [Cell.toFloat]
      | none => simp [Cell.toFloat, ih]
      | num x => simp [Cell.toFloat, ih]

/-- What is taken from a list while a condition holds: what meets it, behind what meets it too. -/
lemma mem_takeWhile_iff {α : Type} {p : α → Bool} {l : List α} {x : α} :
    x ∈ l.takeWhile p ↔ ∃ pre post, l = pre ++ x :: post ∧ (∀ y ∈ pre, p y) ∧ p x := by
  constructor
  · intro mem
    obtain ⟨pre, post, split⟩ := List.append_of_mem mem
    have meets : ∀ y ∈ pre ++ x :: post, p y := fun y held => List.mem_takeWhile_imp (split ▸ held)
    obtain ⟨before, here⟩ := List.forall_mem_append.1 meets
    refine ⟨pre, post ++ l.dropWhile p, ?_, before, here x List.mem_cons_self⟩
    rw [← List.cons_append, ← List.append_assoc, ← split, List.takeWhile_append_dropWhile]
  · rintro ⟨pre, post, rfl, before, here⟩
    rw [List.takeWhile_append_of_pos before, List.takeWhile_cons_of_pos here]
    exact List.mem_append_right _ List.mem_cons_self

lemma takerFees_ne_nil (rows : String → Option Cell) (symbols : List String) :
    (takerFees rows symbols).1 ≠ [] ↔ ReportsInTime rows symbols := by
  rw [takerFees_eq]
  constructor
  · intro ne
    obtain ⟨fee, mem⟩ := List.exists_mem_of_ne_nil _ ne
    obtain ⟨pos, symbol, inTime, row⟩ := mem_reportedFees.1 mem
    obtain ⟨pre, post, split, before, _⟩ := mem_takeWhile_iff.1 inTime
    exact ⟨pre, symbol, post, fee, split, row, pos, fun s held => of_decide_eq_true (before s held)⟩
  · rintro ⟨pre, symbol, post, fee, split, row, pos, before⟩
    have readable : rows symbol ≠ some .unreadable := by rw [row]; exact nofun
    have inTime : symbol ∈ readableSymbols rows symbols := mem_takeWhile_iff.2
      ⟨pre, post, split, fun s held => decide_eq_true (before s held), decide_eq_true readable⟩
    exact List.ne_nil_of_mem (mem_reportedFees.2 ⟨pos, symbol, inTime, row⟩)

/-! ## One client -/

/-- The account data of a client, where it answers. -/
def FeeClient.accountRows (client : FeeClient) : Option (String → Option Cell) :=
  client.tradingFees.bind Except.toOption

/-- The market data of a client, where it answers. -/
def FeeClient.marketRows (client : FeeClient) : Option (String → Option Cell) :=
  client.loadMarkets.toOption

/-- The fee lies between two fees that the rows report. -/
def Between (rows : String → Option Cell) (symbols : List String) (fee : ℚ) : Prop :=
  ∃ lo hi, Reports rows symbols lo ∧ Reports rows symbols hi ∧ lo ≤ fee ∧ fee ≤ hi

/-- The mean of the positive taker fees that the rows report for the symbols. -/
def meanFee (rows : String → Option Cell) (symbols : List String) : ℚ :=
  (reportedFees rows symbols).sum / (reportedFees rows symbols).length

/-- Where the fee of an exchange is taken from: the account data, when they report one in time, and then
it is the mean of the fees ahead of the first unreadable one; else the market data, when they report one,
and then it is the mean of all of them; else the configuration. -/
inductive Sourced (symbols : List String) (fallbackFee : ℚ) (client : FeeClient) :
    ℚ → FeeSource → Prop where
  | account {rows} (answer : client.accountRows = some rows) (reports : ReportsInTime rows symbols)
      (between : Between rows symbols (meanFee rows (readableSymbols rows symbols))) :
      Sourced symbols fallbackFee client (meanFee rows (readableSymbols rows symbols)) .apiTradingFees
  | markets {rows} (silent : ∀ rows, client.accountRows = some rows → ¬ReportsInTime rows symbols)
      (answer : client.marketRows = some rows)
      (readable : ∀ symbol ∈ symbols, rows symbol ≠ some .unreadable)
      (between : Between rows symbols (meanFee rows symbols)) :
      Sourced symbols fallbackFee client (meanFee rows symbols) .marketsTaker
  | fallback (silent : ∀ rows, client.accountRows = some rows → ¬ReportsInTime rows symbols)
      (unlisted : ∀ rows fee, client.marketRows = some rows → ¬Reports rows symbols fee) :
      Sourced symbols fallbackFee client fallbackFee .envFallback

/-- The mean of the fees that were read lies between two of them. -/
lemma between_meanFee {rows : String → Option Cell} {symbols : List String}
    (ne : reportedFees rows symbols ≠ []) : Between rows symbols (meanFee rows symbols) := by
  obtain ⟨lo, hlo, hi, hhi, above, below⟩ := (spanned_mean ne).between
    (List.finite_toSet (reportedFees rows symbols)) (List.exists_mem_of_ne_nil _ ne)
  exact ⟨lo, hi, mem_reportedFees.1 hlo, mem_reportedFees.1 hhi, above, below⟩

/-- Fees of some of the symbols are fees of the symbols. -/
lemma Between.mono {rows : String → Option Cell} {symbols symbols' : List String} {fee : ℚ}
    (between : Between rows symbols fee) (sub : symbols ⊆ symbols') : Between rows symbols' fee := by
  obtain ⟨lo, hi, ⟨pos, s, mem, row⟩, ⟨pos', s', mem', row'⟩, above, below⟩ := between
  exact ⟨lo, hi, ⟨pos, s, sub mem, row⟩, ⟨pos', s', sub mem', row'⟩, above, below⟩

lemma apiFees_eq {symbols : List String} {client : FeeClient} {rows}
    (answer : client.accountRows = some rows) : apiFees symbols client = (takerFees rows symbols).1 := by
  obtain ⟨trading, htrading, hrows⟩ := Option.bind_eq_some_iff.1 answer
  cases trading with
  | error e => cases hrows
  | ok rows' =>
    cases hrows
    rw [apiFees, htrading]

/-- The account data count when they report a fee in time. -/
lemma apiFees_ne_nil {symbols : List String} {client : FeeClient} :
    apiFees symbols client ≠ [] ↔
      ∃ rows, client.accountRows = some rows ∧ ReportsInTime rows symbols := by
  constructor
  · intro ne
    cases answer : client.accountRows with
    | some rows =>
      rw [apiFees_eq answer] at ne
      exact ⟨rows, rfl, (takerFees_ne_nil rows symbols).1 ne⟩
    | none =>
      refine absurd ?_ ne
      unfold apiFees
      unfold FeeClient.accountRows at answer
      cases htrading : client.tradingFees with
      | none => rfl
      | some trading =>
        rw [htrading] at answer
        cases trading with
        | error e => rfl
        | ok rows => cases answer
  · rintro ⟨rows, answer, reports⟩
    rw [apiFees_eq answer]
    exact (takerFees_ne_nil rows symbols).2 reports

/-- The market data are read to the end, or the start of the bot ends. -/
lemma marketFees_eq_ok {symbols : List String} {client : FeeClient} {fees} :
    marketFees symbols client = .ok fees ↔
      (client.marketRows = none ∧ fees = []) ∨
      ∃ rows, client.marketRows = some rows ∧ fees = (takerFees rows symbols).1 ∧
        ∀ symbol ∈ symbols, rows symbol ≠ some .unreadable := by
  unfold marketFees FeeClient.marketRows
  cases client.loadMarkets with
  | error e => simp [Except.toOption, eq_comm]
  | ok rows =>
    have raises := takerFees_raises rows symbols
    rcases h : takerFees rows symbols with ⟨fees', raised⟩
    rw [h] at raises
    cases raised with
    | none => simpa [Except.toOption, h, eq_comm] using fun _ => raises.1 rfl
    | some e =>
      have unreadable : ¬∀ symbol ∈ symbols, rows symbol ≠ some .unreadable :=
        fun readable => nomatch raises.2 readable
      simp [Except.toOption, h, unreadable]

/-- The fee of one client. -/
lemma resolveFee_sourced {symbols fallbackFee client fee source}
    (e : resolveFee symbols fallbackFee client = .ok (fee, source)) :
    Sourced symbols fallbackFee client fee source := by
  obtain ⟨fees, hmarket, e⟩ := Loop.bind_eq_ok.1 e
  dsimp only at e
  have silent : ¬apiFees symbols client ≠ [] →
      ∀ rows, client.accountRows = some rows → ¬ReportsInTime rows symbols :=
    fun none rows answer reports => none (apiFees_ne_nil.2 ⟨rows, answer, reports⟩)
  split at e
  case isTrue account =>
    simp only [pure, Except.pure, Except.ok.injEq, Prod.mk.injEq] at e
    obtain ⟨rfl, rfl⟩ := e
    obtain ⟨rows, answer, reports⟩ := apiFees_ne_nil.1 account
    have ne := (takerFees_ne_nil rows symbols).2 reports
    rw [takerFees_eq] at ne
    rw [apiFees_eq answer, takerFees_eq]
    exact .account answer reports ((between_meanFee ne).mono (List.takeWhile_subset _))
  case isFalse account =>
    split at e
    case isTrue listed =>
      simp only [pure, Except.pure, Except.ok.injEq, Prod.mk.injEq] at e
      obtain ⟨rfl, rfl⟩ := e
      rcases marketFees_eq_ok.1 hmarket with ⟨_, none⟩ | ⟨rows, answer, rfl, readable⟩
      · exact absurd none listed
      · rw [takerFees_eq, readableSymbols_eq readable] at listed ⊢
        exact .markets (silent account) answer readable (between_meanFee listed)
    case isFalse unlisted =>
      simp only [pure, Except.pure, Except.ok.injEq, Prod.mk.injEq] at e
      obtain ⟨rfl, rfl⟩ := e
      refine .fallback (silent account) fun rows fee answer reports => unlisted ?_
      rcases marketFees_eq_ok.1 hmarket with ⟨none, _⟩ | ⟨rows', answer', rfl, readable⟩
      · rw [none] at answer
        cases answer
      · rw [answer'] at answer
        cases answer
        obtain ⟨pos, symbol, mem, row⟩ := reports
        obtain ⟨pre, post, rfl⟩ := List.append_of_mem mem
        exact (takerFees_ne_nil rows _).2 ⟨pre, symbol, post, fee, rfl, row, pos,
          fun s hs => readable s (List.mem_append_left _ hs)⟩

/-- The market data of a client, where it answers, are readable. -/
def Readable (symbols : List String) (client : FeeClient) : Prop :=
  ∀ rows, client.marketRows = some rows → ∀ symbol ∈ symbols, rows symbol ≠ some .unreadable

/-- A client's fee is resolved unless its market data are unreadable. -/
lemma resolveFee_returns (symbols fallbackFee client) :
    (∃ r, resolveFee symbols fallbackFee client = .ok r) ↔ Readable symbols client := by
  constructor
  · rintro ⟨r, e⟩ rows answer
    obtain ⟨fees, hmarket, _⟩ := Loop.bind_eq_ok.1 e
    rcases marketFees_eq_ok.1 hmarket with ⟨none, _⟩ | ⟨rows', answer', _, readable⟩
    · rw [none] at answer
      cases answer
    · rw [answer'] at answer
      cases answer
      exact readable
  · intro readable
    have market : ∃ fees, marketFees symbols client = .ok fees := by
      cases answer : client.marketRows with
      | none => exact ⟨[], marketFees_eq_ok.2 (.inl ⟨answer, rfl⟩)⟩
      | some rows => exact ⟨_, marketFees_eq_ok.2 (.inr ⟨rows, answer, rfl, readable rows answer⟩)⟩
    obtain ⟨fees, market⟩ := market
    unfold resolveFee
    rw [market]
    show ∃ r, (if apiFees symbols client ≠ [] then _ else _) = Except.ok r
    split_ifs <;> exact ⟨_, rfl⟩

/-! ## All exchanges -/

lemma enterClient_eq_ok {symbols fallback resolved resolved'} {entry : String × FeeClient} :
    enterClient symbols fallback resolved entry = .ok resolved' ↔
      ∃ fee source, resolveFee symbols (fallback.getD entry.1 (1 / 1000)) entry.2 = .ok (fee, source) ∧
        resolved' = resolved.set entry.1 fee source := by
  unfold enterClient
  rw [Loop.bind_eq_ok]
  constructor
  · rintro ⟨⟨fee, source⟩, e, h⟩
    cases h
    exact ⟨fee, source, e, rfl⟩
  · rintro ⟨fee, source, e, rfl⟩
    exact ⟨(fee, source), e, rfl⟩

/-- The loop over the clients returns when the market data of all of them are readable. -/
lemma enterClients_returns {symbols fallback} (resolved) {entries : List (String × FeeClient)} :
    (∃ resolved', entries.foldlM (enterClient symbols fallback) resolved = .ok resolved') ↔
      ∀ entry ∈ entries, Readable symbols entry.2 := by
  refine Loop.foldlM_returns fun resolved entry => ?_
  rw [← resolveFee_returns symbols (fallback.getD entry.1 (1 / 1000))]
  constructor
  · rintro ⟨_, step⟩
    obtain ⟨fee, source, hfee, _⟩ := enterClient_eq_ok.1 step
    exact ⟨(fee, source), hfee⟩
  · rintro ⟨⟨fee, source⟩, hfee⟩
    exact ⟨_, enterClient_eq_ok.2 ⟨fee, source, hfee, rfl⟩⟩

/-- The loop over the clients enters the fee of each client, and no other. -/
lemma holds_clients {symbols fallback resolved} {clients : OrdDict String FeeClient}
    (e : clients.entries.foldlM (enterClient symbols fallback) .empty = .ok resolved) {name fee source} :
    resolved.Holds name fee source ↔ ∃ client, clients.get? name = some client ∧
      resolveFee symbols (fallback.getD name (1 / 1000)) client = .ok (fee, source) := by
  simp only [← OrdDict.mem_entries]
  refine Loop.foldlM_inv (I := fun entered (resolved : ResolvedFees) => ∀ name fee source,
    resolved.Holds name fee source ↔ ∃ client, (name, client) ∈ entered ∧
      resolveFee symbols (fallback.getD name (1 / 1000)) client = .ok (fee, source)) ?_ ?_ e name fee
    source
  · intro name fee source
    constructor
    · intro held
      cases held.1
    · rintro ⟨_, mem, _⟩
      cases mem
  · rintro pre ⟨name, client⟩ post resolved resolved' hl held step name' fee' source'
    obtain ⟨fee, source, hfee, rfl⟩ := enterClient_eq_ok.1 step
    -- no entry before this one has its name
    have fresh : ∀ client', (name, client') ∉ pre := by
      intro client' mem
      have nodup := clients.nodup
      rw [hl, List.map_append, List.map_cons] at nodup
      exact (List.nodup_append.1 nodup).2.2 name (List.mem_map_of_mem mem) name List.mem_cons_self rfl
    rw [ResolvedFees.holds_set, held]
    constructor
    · rintro (⟨rfl, rfl, rfl⟩ | ⟨_, client', mem, hclient'⟩)
      · exact ⟨client, List.mem_append_right _ (List.mem_singleton_self _), hfee⟩
      · exact ⟨client', List.mem_append_left _ mem, hclient'⟩
    · rintro ⟨client', mem, hclient'⟩
      rcases List.mem_append.1 mem with old | new
      · refine .inr ⟨?_, client', old, hclient'⟩
        rintro rfl
        exact fresh client' old
      · cases List.mem_singleton.1 new
        rw [hfee] at hclient'
        cases hclient'
        exact .inl ⟨rfl, rfl, rfl⟩

/-- The loop over the fallback enters the fees of the exchanges that have none. -/
lemma holds_fallback {entries : List (String × ℚ)} (nodup : (entries.map Prod.fst).Nodup)
    (resolved : ResolvedFees) {name fee source} :
    (entries.foldl enterFallback resolved).Holds name fee source ↔ resolved.Holds name fee source ∨
      name ∉ resolved.fees.keys ∧ (name, fee) ∈ entries ∧ source = .envFallback := by
  induction entries generalizing resolved with
  | nil => simp
  | cons entry entries ih =>
    obtain ⟨first, firstFee⟩ := entry
    rw [List.map_cons, List.nodup_cons] at nodup
    have later : ∀ fee, (first, fee) ∉ entries := fun fee mem =>
      nodup.1 (List.mem_map.2 ⟨(first, fee), mem, rfl⟩)
    rw [List.foldl_cons, ih nodup.2, List.mem_cons, enterFallback]
    split
    case isTrue known =>
      -- skipped: the name is known, so its entry would not count either
      refine or_congr_right (and_congr_right fun unknown => and_congr_left' ?_)
      refine ⟨.inr, fun h => h.resolve_left fun same => ?_⟩
      cases same
      exact unknown known
    case isFalse unknown =>
      have keys : ∀ name, name ∈ (resolved.set first firstFee .envFallback).fees.keys ↔
          name = first ∨ name ∈ resolved.fees.keys := fun _ => OrdDict.mem_keys_set
      rw [ResolvedFees.holds_set, keys]
      by_cases same : name = first
      · subst same
        have absent : ¬resolved.Holds name fee source :=
          fun h => unknown (OrdDict.mem_keys_of_get? h.1)
        simp [unknown, later, absent]
      · simp [same]

/-- What is resolved for an exchange. -/
lemma holds_resolveTakerFees {clients symbols fallback resolved}
    (e : resolveTakerFees clients symbols fallback = .ok resolved) {name fee source} :
    resolved.Holds name fee source ↔
      (∃ client, clients.get? name = some client ∧
        resolveFee symbols (fallback.getD name (1 / 1000)) client = .ok (fee, source)) ∨
      name ∉ clients.keys ∧ fallback.get? name = some fee ∧ source = .envFallback := by
  obtain ⟨entered, loop, e⟩ := Loop.bind_eq_ok.1 e
  cases e
  rw [holds_fallback fallback.nodup, holds_clients loop, OrdDict.mem_entries]
  refine or_congr_right (and_congr_left' (not_congr ?_))
  rw [ResolvedFees.mem_keys]
  constructor
  · rintro ⟨fee, source, held⟩
    obtain ⟨client, mem, _⟩ := (holds_clients loop).1 held
    exact OrdDict.mem_keys_of_get? mem
  · intro mem
    obtain ⟨client, hclient⟩ := OrdDict.mem_keys.1 mem
    -- the loop has returned, so this client's fee was resolved
    have readable := (enterClients_returns _).1 ⟨entered, loop⟩ (name, client) (OrdDict.mem_of_get? hclient)
    obtain ⟨⟨fee, source⟩, hfee⟩ :=
      (resolveFee_returns symbols (fallback.getD name (1 / 1000)) client).2 readable
    exact ⟨fee, source, (holds_clients loop).2 ⟨client, hclient, hfee⟩⟩

lemma resolveTakerFees_returns (clients symbols fallback) :
    (∃ resolved, resolveTakerFees clients symbols fallback = .ok resolved) ↔
      ∀ name client, clients.get? name = some client → Readable symbols client := by
  simp only [← OrdDict.mem_entries]
  constructor
  · rintro ⟨resolved, e⟩ name client mem
    obtain ⟨entered, loop, _⟩ := Loop.bind_eq_ok.1 e
    exact (enterClients_returns _).1 ⟨entered, loop⟩ (name, client) mem
  · intro readable
    obtain ⟨entered, loop⟩ := (enterClients_returns .empty).2
      fun entry mem => readable entry.1 entry.2 mem
    exact ⟨_, Loop.bind_eq_ok.2 ⟨entered, loop, rfl⟩⟩

/-- A resolved fee that comes from a client is positive. -/
lemma Between.pos {rows symbols fee} (between : Between rows symbols fee) : 0 < fee := by
  obtain ⟨lo, _, reports, _, le, _⟩ := between
  exact reports.1.trans_le le

/-- How the taker fees are resolved. The resolution raises exactly when the market data of a client hold
an unreadable fee for a configured symbol. When it returns, it covers the exchanges that have a client
or a configured fee, and gives each a source: the fee of a client is the one that `Sourced` describes,
and an exchange without a client keeps its configured fee. -/
theorem taker_fees_resolved (clients : OrdDict String FeeClient) (symbols : List String)
    (fallback : OrdDict String ℚ) :
    ((∃ resolved, resolveTakerFees clients symbols fallback = .ok resolved) ↔
      ∀ name client, clients.get? name = some client → Readable symbols client) ∧
    ∀ resolved, resolveTakerFees clients symbols fallback = .ok resolved →
      resolved.sources.keys = resolved.fees.keys ∧
      (∀ name, name ∈ resolved.fees.keys ↔ name ∈ clients.keys ∨ name ∈ fallback.keys) ∧
      ∀ name fee source, resolved.Holds name fee source →
        (∀ client, clients.get? name = some client →
          Sourced symbols (fallback.getD name (1 / 1000)) client fee source) ∧
        (name ∉ clients.keys → fallback.get? name = some fee ∧ source = .envFallback) := by
  refine ⟨resolveTakerFees_returns clients symbols fallback, fun resolved e =>
    ⟨resolved.same, fun name => ?_, fun name fee source held => ⟨fun client hclient => ?_,
      fun absent => ?_⟩⟩⟩
  · rw [ResolvedFees.mem_keys]
    constructor
    · rintro ⟨fee, source, held⟩
      rcases (holds_resolveTakerFees e).1 held with ⟨client, hclient, _⟩ | ⟨_, hfee, _⟩
      · exact .inl (OrdDict.mem_keys_of_get? hclient)
      · exact .inr (OrdDict.mem_keys_of_get? hfee)
    · intro known
      by_cases present : name ∈ clients.keys
      · obtain ⟨client, hclient⟩ := OrdDict.mem_keys.1 present
        have readable := (resolveTakerFees_returns clients symbols fallback).1 ⟨resolved, e⟩ name client
          hclient
        obtain ⟨⟨fee, source⟩, hfee⟩ :=
          (resolveFee_returns symbols (fallback.getD name (1 / 1000)) client).2 readable
        exact ⟨fee, source, (holds_resolveTakerFees e).2 (.inl ⟨client, hclient, hfee⟩)⟩
      · obtain ⟨fee, hfee⟩ := OrdDict.mem_keys.1 (known.resolve_left present)
        exact ⟨fee, .envFallback, (holds_resolveTakerFees e).2 (.inr ⟨present, hfee, rfl⟩)⟩
  · rcases (holds_resolveTakerFees e).1 held with ⟨client', hclient', hfee⟩ | ⟨absent, _⟩
    · rw [hclient] at hclient'
      cases hclient'
      exact resolveFee_sourced hfee
    · exact absurd (OrdDict.mem_keys_of_get? hclient) absent
  · rcases (holds_resolveTakerFees e).1 held with ⟨client, hclient, _⟩ | ⟨_, h⟩
    · exact absurd (OrdDict.mem_keys_of_get? hclient) absent
    · exact h

/-- A client whose account data end in an unreadable row, after two that they report. -/
def sampleFeeClient : FeeClient where
  loadMarkets := .ok fun _ => some (.num (1 / 500))
  tradingFees := some (.ok fun symbol =>
    if symbol = "BTC/USDT" then some (.num (8 / 10000))
    else if symbol = "ETH/USDT" then some (.num (10 / 10000))
    else some .unreadable)

/-- The symbols for which `sampleFeeClient` is asked. -/
def sampleFeeSymbols : List String := ["BTC/USDT", "ETH/USDT", "SOL/USDT"]

/-- The mean of what was read before the exception counts, and wins over the market data. -/
theorem taker_fees_resolved_sample :
    ∃ resolved, resolveTakerFees (OrdDict.empty.set "binance" sampleFeeClient) sampleFeeSymbols
        defaultConfig.feesTaker = .ok resolved ∧
      Sourced sampleFeeSymbols (1 / 1000) sampleFeeClient (9 / 10000) .apiTradingFees ∧
      (resolved.fees.get? "okx" = some (1 / 1000) ∧ resolved.sources.get? "okx" = some .envFallback) := by
  obtain ⟨resolved, e, held⟩ := Loop.exists_ok_of_any
    (x := resolveTakerFees (OrdDict.empty.set "binance" sampleFeeClient) sampleFeeSymbols
      defaultConfig.feesTaker)
    (p := fun resolved => resolved.fees.get? "binance" = some (9 / 10000) ∧
      resolved.sources.get? "binance" = some .apiTradingFees ∧
      resolved.fees.get? "okx" = some (1 / 1000) ∧ resolved.sources.get? "okx" = some .envFallback)
    (by decide +kernel)
  obtain ⟨fee, source, okx⟩ := of_decide_eq_true held
  obtain ⟨_, _, all⟩ := (taker_fees_resolved _ _ _).2 resolved e
  exact ⟨resolved, e, (all "binance" _ _ ⟨fee, source⟩).1 sampleFeeClient rfl, okx⟩

end ArbBot
