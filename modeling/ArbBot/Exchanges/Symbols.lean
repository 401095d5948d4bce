import ArbBot.Exchanges.Streams
import ArbBot.Executor.Cooldown

/-!
# Symbols and stream keys

A stream names a market by its symbol without the slash, and the rows are kept by the symbol with the
slash, so each stream has to put the slash back. No quote currency that `_to_slash_symbol` knows is a
suffix of another one (`quote_unique`), so that on the Bybit stream decoding inverts the encoding
(`toSlashSymbol_removeSlashes`): `bybit_symbols` says that no two markets share a row. The Binance
stream decodes on its own, and for USDT only: `binance_keys_iff` says on which raw symbols the two
decoders agree and which markets of the Binance stream are found again.
-/

namespace ArbBot

/-- The text is made of upper-case letters and digits. -/
def UpperAlnum (text : String) : Prop :=
  text ≠ "" ∧ ∀ c ∈ text.toList, c.isUpper = true ∨ c.isDigit = true

instance : DecidablePred UpperAlnum := fun _ =>
  @instDecidableAnd _ _ inferInstance (List.decidableBAll _ _)

/-- The symbol of a market: `BASE/QUOTE`. -/
def pair (base quote : String) : String := base ++ "/" ++ quote

/-- A market against a quote currency that `_to_slash_symbol` knows. -/
structure QuotedMarket where
  base : String
  quote : String
  base_ok : UpperAlnum base
  quote_ok : quote ∈ quoteCandidates

/-- The symbol under which the market is configured. -/
def QuotedMarket.symbol (market : QuotedMarket) : String := pair market.base market.quote

/-- A message on the topic of a symbol names that symbol, or leaves it to the topic. -/
def OnTopic (symbol : String) (m : BybitMessage) : Prop :=
  m.topic = bybitTopic symbol ∧
    ∀ data, m.data = some data → data.symbol = "" ∨ data.symbol = removeSlashes symbol

/-! ## Text -/

/-- The code of an upper-case letter or a digit. -/
lemma code_of_upperAlnum {c : Char} (h : c.isUpper = true ∨ c.isDigit = true) :
    65 ≤ c.toNat ∧ c.toNat ≤ 90 ∨ 48 ≤ c.toNat ∧ c.toNat ≤ 57 := by
  cases h with
  | inl upper => exact .inl (of_decide_eq_true upper)
  | inr digit => exact .inr (Char.isDigit_iff_toNat.1 digit)

lemma toUpper_of_upperAlnum {c : Char} (h : c.isUpper = true ∨ c.isDigit = true) :
    c.toUpper = c := by
  have code := code_of_upperAlnum h
  have low : ¬('a'.val ≤ c.val ∧ c.val ≤ 'z'.val) := fun ⟨lo, _⟩ => by
    have lo : 97 ≤ c.toNat := lo
    omega
  exact dif_neg low

/-- Lower case moves the code of an upper-case letter, and no other. -/
lemma toNat_toLower (c : Char) :
    c.toLower.toNat = if 65 ≤ c.toNat ∧ c.toNat ≤ 90 then c.toNat + 32 else c.toNat := by
  by_cases h : c.val ≥ 'A'.val ∧ c.val ≤ 'Z'.val
  · have moved := congrArg (fun d : Char => d.val.toNat) (dif_pos h : c.toLower = _)
    have range : 65 ≤ c.toNat ∧ c.toNat ≤ 90 := h
    have small : (c.val + ('a'.val - 'A'.val)).toNat = c.toNat + 32 := by
      have shift : ('a'.val - 'A'.val).toNat = 32 := by decide
      rw [UInt32.toNat_add, Char.toNat_val, shift]
      exact Nat.mod_eq_of_lt (by omega)
    rw [if_pos range]
    exact moved.trans small
  · have range : ¬(65 ≤ c.toNat ∧ c.toNat ≤ 90) := h
    rw [if_neg range]
    exact congrArg Char.toNat (dif_neg h : c.toLower = _)

/-- Different upper-case letters and digits stay different in lower case. -/
lemma toLower_inj {c d : Char} (hc : c.isUpper = true ∨ c.isDigit = true)
    (hd : d.isUpper = true ∨ d.isDigit = true) (e : c.toLower = d.toLower) : c = d := by
  have codes := congrArg Char.toNat e
  rw [toNat_toLower, toNat_toLower] at codes
  have hc := code_of_upperAlnum hc
  have hd := code_of_upperAlnum hd
  apply Char.ext
  apply UInt32.toNat_inj.1
  show c.toNat = d.toNat
  split at codes <;> split at codes <;> omega

/-- A list is known from its image where the function is injective. -/
lemma map_inj_on {α β : Type*} {f : α → β} {l l' : List α}
    (inj : ∀ a ∈ l, ∀ b ∈ l', f a = f b → a = b) (e : l.map f = l'.map f) : l = l' := by
  induction l generalizing l' with
  | nil => exact (List.map_eq_nil_iff.1 e.symm).symm
  | cons a l ih =>
    cases l' with
    | nil => cases e
    | cons b l' =>
      obtain ⟨head, tail⟩ := List.cons_eq_cons.1 e
      rw [inj a (List.mem_cons_self ..) b (List.mem_cons_self ..) head]
      rw [ih (fun a ha b hb => inj a (List.mem_cons_of_mem _ ha) b (List.mem_cons_of_mem _ hb)) tail]

lemma UpperAlnum.upper_eq {text} (h : UpperAlnum text) : upper text = text := by
  have same : text.toList.map Char.toUpper = text.toList := by
    rw [List.map_congr_left fun c hc => toUpper_of_upperAlnum (h.2 c hc)]
    exact List.map_id _
  rw [upper, same, String.ofList_toList]

lemma UpperAlnum.no_slash {text} (h : UpperAlnum text) : '/' ∉ text.toList := fun mem => by
  cases h.2 '/' mem with
  | inl upper => exact absurd upper (by decide)
  | inr digit => exact absurd digit (by decide)

lemma removeSlashes_of_no_slash {text} (h : '/' ∉ text.toList) : removeSlashes text = text := by
  have same : text.toList.filter (· ≠ '/') = text.toList :=
    List.filter_eq_self.2 fun c hc => decide_eq_true fun e => h (e ▸ hc)
  rw [removeSlashes, same, String.ofList_toList]

lemma removeSlashes_pair {base quote} (hb : '/' ∉ base.toList) (hq : '/' ∉ quote.toList) :
    removeSlashes (pair base quote) = base ++ quote := by
  have hb' := congrArg String.toList (removeSlashes_of_no_slash hb)
  have hq' := congrArg String.toList (removeSlashes_of_no_slash hq)
  simp only [removeSlashes, String.toList_ofList] at hb' hq'
  have slash : "/".toList.filter (· ≠ '/') = [] := by decide
  apply String.toList_inj.1
  simp only [removeSlashes, pair, String.toList_ofList, String.toList_append, List.filter_append,
    hb', hq', slash, List.append_nil]

lemma endsWith_iff {text suffix} : endsWith text suffix = true ↔ ∃ init, text = init ++ suffix := by
  rw [endsWith, List.isSuffixOf_iff_suffix]
  constructor
  · rintro ⟨init, h⟩
    refine ⟨String.ofList init, String.toList_inj.1 ?_⟩
    rw [String.toList_append, String.toList_ofList, h]
  · rintro ⟨init, rfl⟩
    exact ⟨init.toList, String.toList_append.symm⟩

lemma dropEnd_append (init suffix : String) : dropEnd (init ++ suffix) suffix.length = init := by
  apply String.toList_inj.1
  rw [dropEnd, String.toList_ofList, String.toList_append, List.rdrop]
  simp only [List.length_append, String.length_toList, Nat.add_sub_cancel]
  exact List.take_left' (String.length_toList ..)

lemma UpperAlnum.append {text text'} (h : UpperAlnum text) (h' : UpperAlnum text') :
    UpperAlnum (text ++ text') := by
  refine ⟨fun e => h.1 ?_, fun c hc => ?_⟩
  · have e' := congrArg String.toList e
    rw [String.toList_append] at e'
    exact String.toList_inj.1 (List.append_eq_nil_iff.1 e').1
  · rw [String.toList_append] at hc
    rcases List.mem_append.1 hc with hc | hc
    · exact h.2 c hc
    · exact h'.2 c hc

/-! ## Decoding -/

lemma upperAlnum_of_quote {quote} (hq : quote ∈ quoteCandidates) : UpperAlnum quote := by
  have all : ∀ q ∈ quoteCandidates, UpperAlnum q := by decide
  exact all quote hq

/-- No known quote currency is a suffix of another one. -/
lemma quote_unique {init init' quote quote'} (hq : quote ∈ quoteCandidates)
    (hq' : quote' ∈ quoteCandidates) (e : init ++ quote = init' ++ quote') :
    init = init' ∧ quote = quote' := by
  have apart : ∀ q ∈ quoteCandidates, ∀ q' ∈ quoteCandidates, q.toList <:+ q'.toList → q = q' := by
    decide
  have e' := congrArg String.toList e
  rw [String.toList_append, String.toList_append] at e'
  have same : quote = quote' := by
    rcases List.suffix_or_suffix_of_suffix ⟨_, e'⟩ (List.suffix_append _ _) with h | h
    · exact apart _ hq _ hq' h
    · exact (apart _ hq' _ hq h).symm
  subst same
  exact ⟨String.toList_inj.1 (List.append_cancel_right e'), rfl⟩

lemma pair_inj {base base' quote quote'} (hq : '/' ∉ quote.toList) (hq' : '/' ∉ quote'.toList)
    (e : pair base quote = pair base' quote') : base = base' ∧ quote = quote' := by
  have e' := congrArg String.toList e
  have slash : "/".toList = ['/'] := rfl
  simp only [pair, String.toList_append, slash, List.append_assoc, List.singleton_append] at e'
  obtain ⟨hbase, hquote⟩ := PaperExecutor.append_cons_inj hq hq' e'
  exact ⟨String.toList_inj.1 hbase, String.toList_inj.1 hquote⟩

/-- A first-match search finds the only element that matches. -/
lemma find?_of_unique {α : Type*} {p : α → Bool} {l : List α} {a : α} (mem : a ∈ l)
    (holds : p a = true) (unique : ∀ b ∈ l, p b = true → b = a) : l.find? p = some a := by
  cases e : l.find? p with
  | none => exact absurd holds (List.find?_eq_none.1 e a mem)
  | some b => rw [unique b (List.mem_of_find?_eq_some e) (List.find?_some e)]

/-- A candidate matches exactly when it can be split off. -/
lemma candidate_iff {raw quote : String} :
    (endsWith raw quote ∧ quote.length < raw.length) ↔
      ∃ base, base ≠ "" ∧ raw = base ++ quote := by
  rw [endsWith_iff]
  constructor
  · rintro ⟨⟨base, rfl⟩, longer⟩
    refine ⟨base, fun e => ?_, rfl⟩
    rw [e, String.empty_append] at longer
    exact absurd longer (lt_irrefl _)
  · rintro ⟨base, ne, rfl⟩
    refine ⟨⟨base, rfl⟩, ?_⟩
    have pos : 0 < base.length := Nat.pos_of_ne_zero fun e => ne (String.length_eq_zero_iff.1 e)
    rw [String.length_append]
    omega

/-- A raw symbol that ends in a quote currency is cut there. -/
lemma toSlashSymbol_append {base quote} (same : upper (base ++ quote) = base ++ quote)
    (ne : base ≠ "") (hq : quote ∈ quoteCandidates) :
    toSlashSymbol (base ++ quote) = pair base quote := by
  have found : quoteCandidates.find? (fun q => endsWith (base ++ quote) q ∧
      q.length < (base ++ quote).length) = some quote := by
    refine find?_of_unique hq (decide_eq_true (candidate_iff.2 ⟨base, ne, rfl⟩)) fun q hmem hp => ?_
    obtain ⟨init, _, e⟩ := candidate_iff.1 (of_decide_eq_true hp)
    exact (quote_unique hq hmem e).2.symm
  rw [toSlashSymbol, same, found]
  dsimp only
  rw [dropEnd_append, pair]

/-- A raw symbol that ends in no quote currency is kept. -/
lemma toSlashSymbol_of_no_quote {raw} (same : upper raw = raw)
    (none : ∀ base quote, base ≠ "" → quote ∈ quoteCandidates → raw ≠ base ++ quote) :
    toSlashSymbol raw = raw := by
  have missed : quoteCandidates.find? (fun q => endsWith raw q ∧ q.length < raw.length) = .none := by
    refine List.find?_eq_none.2 fun q hmem hp => ?_
    obtain ⟨base, ne, e⟩ := candidate_iff.1 (of_decide_eq_true hp)
    exact none base q ne hmem e
  rw [toSlashSymbol, same, missed]

/-! ## What a message leaves alone -/

section Store

variable {rows rows' : StreamRows} {symbol : String} {written : Written}

/-- What a message writes does not depend on the rows. -/
lemma get?_store_congr (written) (e : rows.get? symbol = rows'.get? symbol) :
    (store rows written).get? symbol = (store rows' written).get? symbol := by
  match written with
  | .ok (some (symbol', row)) => rw [store, store, OrdDict.get?_set, OrdDict.get?_set, e]
  | .ok none => exact e
  | .error _ => exact e

/-- A message that writes another row leaves a row as it is. -/
lemma get?_store_of_ne (ne : ∀ symbol' row, written = .ok (some (symbol', row)) → symbol ≠ symbol') :
    (store rows written).get? symbol = rows.get? symbol := by
  match written with
  | .ok (some (symbol', row)) => exact OrdDict.get?_set_of_ne rows row (ne symbol' row rfl)
  | .ok none => rfl
  | .error _ => rfl

end Store

/-! ## The Bybit rows -/

namespace QuotedMarket

variable (market : QuotedMarket)

lemma removeSlashes_symbol : removeSlashes market.symbol = market.base ++ market.quote :=
  removeSlashes_pair market.base_ok.no_slash (upperAlnum_of_quote market.quote_ok).no_slash

lemma upperAlnum : UpperAlnum (market.base ++ market.quote) :=
  market.base_ok.append (upperAlnum_of_quote market.quote_ok)

lemma toSlashSymbol_raw : toSlashSymbol (market.base ++ market.quote) = market.symbol :=
  toSlashSymbol_append market.upperAlnum.upper_eq market.base_ok.1 market.quote_ok

/-- Decoding inverts the encoding. -/
lemma toSlashSymbol_removeSlashes :
    toSlashSymbol (removeSlashes market.symbol) = market.symbol := by
  rw [removeSlashes_symbol, toSlashSymbol_raw]

lemma bybitTopic_symbol :
    bybitTopic market.symbol = "orderbook.1." ++ (market.base ++ market.quote) := by
  rw [bybitTopic, market.removeSlashes_symbol, market.upperAlnum.upper_eq]

lemma symbol_inj {market market' : QuotedMarket} (e : market.symbol = market'.symbol) :
    market = market' := by
  obtain ⟨hbase, hquote⟩ := pair_inj (upperAlnum_of_quote market.quote_ok).no_slash
    (upperAlnum_of_quote market'.quote_ok).no_slash e
  cases market
  cases market'
  cases hbase
  cases hquote
  rfl

/-- The last part of a topic is the symbol without the slash. -/
lemma afterLastDot_bybitTopic :
    afterLastDot (bybitTopic market.symbol) = market.base ++ market.quote := by
  have dotless : ∀ c ∈ (market.base ++ market.quote).toList, (c == '.') = false := fun c hc =>
    beq_false_of_ne fun e => by
      cases e
      cases market.upperAlnum.2 '.' hc with
      | inl upper => exact absurd upper (by decide)
      | inr digit => exact absurd digit (by decide)
  have last := List.splitOnP_eq_singleton dotless
  have head : "orderbook.1.".toList = ['o', 'r', 'd', 'e', 'r', 'b', 'o', 'o', 'k', '.', '1', '.'] :=
    rfl
  rw [afterLastDot, bybitTopic_symbol, String.toList_append, head, List.splitOn]
  simp only [List.cons_append, List.nil_append, List.splitOnP_cons_eq_if_modifyHead, last]
  exact String.ofList_toList

/-- A message on the topic of a market is about that market. -/
lemma bybitSymbol_of_onTopic {m data} (on : OnTopic market.symbol m) (h : m.data = some data) :
    bybitSymbol m.topic data = market.base ++ market.quote := by
  rw [bybitSymbol, on.1, afterLastDot_bybitTopic]
  split
  · exact market.upperAlnum.upper_eq
  · rename_i ne
    rw [(on.2 data h).resolve_left ne, removeSlashes_symbol, market.upperAlnum.upper_eq]

end QuotedMarket

/-- The row that a message writes is the row of its symbol. -/
lemma bybitMessage_key {now m symbol row} (h : bybitMessage now m = .ok (some (symbol, row))) :
    ∃ data, m.data = some data ∧ symbol = toSlashSymbol (bybitSymbol m.topic data) := by
  rw [bybitMessage] at h
  split at h
  · cases h
  · rename_i data hd
    refine ⟨data, hd, ?_⟩
    dsimp only at h
    split at h
    · cases h
    · split at h
      · obtain ⟨bid, _, h⟩ := Loop.bind_eq_ok.1 h
        obtain ⟨ask, _, h⟩ := Loop.bind_eq_ok.1 h
        split at h
        · cases h
        · obtain ⟨ts, _, h⟩ := Loop.bind_eq_ok.1 h
          simp only [pure, Except.pure, Except.ok.injEq, Option.some.injEq, Prod.mk.injEq] at h
          exact h.1.symm
      · cases h

/-- A message on the topic of one market leaves the row of another one alone. -/
lemma get?_bybitConsume_of_ne {market market' : QuotedMarket} {m : ℚ × BybitMessage}
    (on : OnTopic market'.symbol m.2) (ne : market.symbol ≠ market'.symbol) (rows : StreamRows) :
    (bybitConsume rows m).get? market.symbol = rows.get? market.symbol := by
  refine get?_store_of_ne fun symbol row h => ?_
  obtain ⟨data, hd, key⟩ := bybitMessage_key h
  rw [market'.bybitSymbol_of_onTopic on hd, market'.toSlashSymbol_raw] at key
  rw [key]
  exact ne

/-- Decoding inverts the encoding of a subscription, so that different markets have different raw
symbols, and whatever comes in on the topics of the markets, the row of a market is the one that the
messages on its own topic leave. -/
theorem bybit_symbols (market : QuotedMarket) :
    toSlashSymbol (removeSlashes market.symbol) = market.symbol ∧
    (∀ market' : QuotedMarket,
      removeSlashes market.symbol = removeSlashes market'.symbol → market = market') ∧
    ∀ (rows : StreamRows) (ms : List (ℚ × BybitMessage)),
      (∀ m ∈ ms, ∃ market' : QuotedMarket, OnTopic market'.symbol m.2) →
      (ms.foldl bybitConsume rows).get? market.symbol =
        ((ms.filter fun m => m.2.topic = bybitTopic market.symbol).foldl bybitConsume rows).get?
          market.symbol := by
  refine ⟨market.toSlashSymbol_removeSlashes, fun market' e => QuotedMarket.symbol_inj ?_,
    fun rows ms topics => ?_⟩
  · rw [← market.toSlashSymbol_removeSlashes, e, market'.toSlashSymbol_removeSlashes]
  · refine OrdDict.get?_foldl_filter (fun m _ _ => get?_store_congr (bybitMessage m.1 m.2))
      (fun m mem other d => ?_) rfl
    obtain ⟨market', on⟩ := topics m mem
    refine get?_bybitConsume_of_ne on (fun e => ?_) d
    rw [on.1, e] at other
    exact of_decide_eq_false other rfl

/-- A market whose raw symbol is the base currency of another market. -/
def ethBtc : QuotedMarket := ⟨"ETH", "BTC", by decide, by decide⟩

/-- The other market. -/
def ethBtcUsdt : QuotedMarket := ⟨"ETHBTC", "USDT", by decide, by decide⟩

/-- A message on each topic; the second one leaves the symbol to the topic. -/
def sampleBooks : List (ℚ × BybitMessage) :=
  [(1, ⟨"orderbook.1.ETHBTC",
      some ⟨"ETHBTC", [[.num (1 / 20)]], [[.num (3 / 50)]], .num 900⟩, .none⟩),
   (2, ⟨"orderbook.1.ETHBTCUSDT", some ⟨"", [[.num 7]], [[.num 8]], .none⟩, .num 1900⟩)]

theorem bybit_symbols_sample :
    (sampleBooks.foldl bybitConsume .empty).get? "ETH/BTC" = some ⟨1 / 20, 3 / 50, 900⟩ := by
  refine ((bybit_symbols ethBtc).2.2 .empty sampleBooks fun m mem => ?_).trans (by decide +kernel)
  rcases List.mem_cons.1 mem with rfl | mem
  · exact ⟨ethBtc, by decide, fun data h => .inr (by cases h; decide)⟩
  · cases List.mem_singleton.1 mem
    exact ⟨ethBtcUsdt, by decide, fun data h => .inl (by cases h; rfl)⟩

/-! ## The Binance rows -/

lemma slash_mem_pair (base quote : String) : '/' ∈ (pair base quote).toList := by
  rw [pair, String.toList_append, String.toList_append]
  exact List.mem_append_left _ (List.mem_append_right _ (List.mem_singleton_self _))

/-- A raw symbol that ends in USDT is cut there. -/
lemma binanceKey_usdt (base : String) : binanceKey (base ++ "USDT") = pair base "USDT" := by
  have cut : dropEnd (base ++ "USDT") 4 = base := dropEnd_append base "USDT"
  rw [binanceKey, if_pos (endsWith_iff.2 ⟨base, rfl⟩), cut, pair, String.append_assoc]
  rfl

/-- Any other raw symbol is kept. -/
lemma binanceKey_of_not_usdt {raw} (other : ∀ base, raw ≠ base ++ "USDT") : binanceKey raw = raw :=
  if_neg fun h => (endsWith_iff.1 h).elim other

lemma usdt_mem : "USDT" ∈ quoteCandidates := List.mem_cons_self ..

/-- No row is stored under the symbol of a market against another currency than USDT. -/
lemma binanceKey_ne {market : QuotedMarket} {raw} (h : UpperAlnum raw)
    (other : market.quote ≠ "USDT") : binanceKey raw ≠ market.symbol := fun e => by
  by_cases usdt : ∃ base, raw = base ++ "USDT"
  · obtain ⟨base, rfl⟩ := usdt
    rw [binanceKey_usdt] at e
    exact other (pair_inj (upperAlnum_of_quote usdt_mem).no_slash
      (upperAlnum_of_quote market.quote_ok).no_slash e).2.symm
  · rw [binanceKey_of_not_usdt (not_exists.1 usdt)] at e
    exact h.no_slash (e ▸ slash_mem_pair ..)

/-- The raw symbols on which the two streams agree. -/
lemma binanceKey_eq_iff {raw} (h : UpperAlnum raw) :
    binanceKey raw = toSlashSymbol raw ↔
      (∃ base, base ≠ "" ∧ raw = base ++ "USDT") ∨
        raw ≠ "USDT" ∧ ∀ base quote, base ≠ "" → quote ∈ quoteCandidates → raw ≠ base ++ quote := by
  have usdt_ok := (upperAlnum_of_quote usdt_mem).upper_eq
  by_cases usdt : ∃ base, raw = base ++ "USDT"
  · obtain ⟨base, rfl⟩ := usdt
    by_cases ne : base = ""
    · -- nothing is in front of the quote currency: only one of the streams puts a slash there
      have alone : toSlashSymbol "USDT" = "USDT" := toSlashSymbol_of_no_quote usdt_ok
        fun base' quote ne' hq e =>
          ne' (quote_unique usdt_mem hq ((String.empty_append ..).trans e)).1.symm
      subst ne
      rw [binanceKey_usdt, String.empty_append, alone]
      refine iff_of_false (by decide) ?_
      rintro (⟨base', ne', e⟩ | ⟨ne', _⟩)
      · exact ne' (quote_unique usdt_mem usdt_mem ((String.empty_append ..).trans e)).1.symm
      · exact ne' rfl
    · rw [binanceKey_usdt, toSlashSymbol_append h.upper_eq ne usdt_mem]
      exact iff_of_true rfl (.inl ⟨base, ne, rfl⟩)
  · rw [binanceKey_of_not_usdt (not_exists.1 usdt)]
    by_cases split : ∃ base quote, base ≠ "" ∧ quote ∈ quoteCandidates ∧ raw = base ++ quote
    · obtain ⟨base, quote, ne, hq, rfl⟩ := split
      rw [toSlashSymbol_append h.upper_eq ne hq]
      refine iff_of_false (fun e => h.no_slash (e ▸ slash_mem_pair ..)) ?_
      rintro (⟨base', _, e⟩ | ⟨_, whole⟩)
      · exact usdt ⟨base', e⟩
      · exact whole base quote ne hq rfl
    · have whole : ∀ base quote, base ≠ "" → quote ∈ quoteCandidates → raw ≠ base ++ quote :=
        fun base quote ne hq e => split ⟨base, quote, ne, hq, e⟩
      rw [toSlashSymbol_of_no_quote h.upper_eq whole]
      exact iff_of_true rfl (.inr ⟨fun e => usdt ⟨"", e.trans (String.empty_append ..).symm⟩, whole⟩)

/-- The raw symbol of a message on the stream of a market. -/
lemma eq_of_binanceStream {market : QuotedMarket} {raw} (h : UpperAlnum raw)
    (e : binanceStream raw = binanceStream market.symbol) :
    raw = market.base ++ market.quote := by
  have e' := congrArg String.toList e
  rw [binanceStream, binanceStream, market.removeSlashes_symbol, removeSlashes_of_no_slash h.no_slash,
    String.toList_append, String.toList_append] at e'
  have same := String.toList_inj.1 (List.append_cancel_right e')
  exact String.toList_inj.1 (map_inj_on
    (fun c hc d hd => toLower_inj (h.2 c hc) (market.upperAlnum.2 d hd))
    (String.ofList_injective same))

/-- A message carries a row: two positive prices and a time. -/
structure Carries (now : ℚ) (m : BookTicker) (row : StreamRow) : Prop where
  bid_eq : m.bid.toFloat = .ok row.bid
  ask_eq : m.ask.toFloat = .ok row.ask
  bid_pos : 0 < row.bid
  ask_pos : 0 < row.ask
  ts_eq : m.eventTime.toInt (clockMs now) = .ok row.timestampMs

/-- The row that a message writes is the row of its raw symbol. -/
lemma binanceMessage_key {now m symbol row} (h : binanceMessage now m = .ok (some (symbol, row))) :
    symbol = binanceKey (upper m.symbol) := by
  rw [binanceMessage] at h
  split at h
  · cases h
  · obtain ⟨bid, _, h⟩ := Loop.bind_eq_ok.1 h
    obtain ⟨ask, _, h⟩ := Loop.bind_eq_ok.1 h
    split at h
    · cases h
    · obtain ⟨ts, _, h⟩ := Loop.bind_eq_ok.1 h
      simp only [pure, Except.pure, Except.ok.injEq, Option.some.injEq, Prod.mk.injEq] at h
      exact h.1.symm

/-- A message that carries a row writes it. -/
lemma Carries.binanceMessage_eq {now m row} (carries : Carries now m row)
    (ne : upper m.symbol ≠ "") :
    binanceMessage now m = .ok (some (binanceKey (upper m.symbol), row)) := by
  have pos : ¬(row.bid ≤ 0 ∨ row.ask ≤ 0) :=
    not_or.2 ⟨carries.bid_pos.not_ge, carries.ask_pos.not_ge⟩
  rw [binanceMessage, if_neg ne]
  refine Loop.bind_eq_ok.2 ⟨row.bid, carries.bid_eq, Loop.bind_eq_ok.2 ⟨row.ask, carries.ask_eq, ?_⟩⟩
  rw [if_neg pos]
  exact Loop.bind_eq_ok.2 ⟨row.timestampMs, carries.ts_eq, rfl⟩

/-- No message writes the row of a market against another currency than USDT. -/
lemma get?_binanceConsume_of_not_usdt {market : QuotedMarket} {m : ℚ × BookTicker}
    (h : UpperAlnum m.2.symbol) (other : market.quote ≠ "USDT") (rows : StreamRows) :
    (binanceConsume rows m).get? market.symbol = rows.get? market.symbol := by
  refine get?_store_of_ne fun symbol row e => ?_
  have key := binanceMessage_key e
  rw [h.upper_eq] at key
  rw [key]
  exact (binanceKey_ne h other).symm

/-- Over a run: the row of such a market stays missing. -/
lemma get?_foldl_binanceConsume {market : QuotedMarket} {ms : List (ℚ × BookTicker)}
    (raw : ∀ m ∈ ms, UpperAlnum m.2.symbol) (other : market.quote ≠ "USDT") (rows : StreamRows) :
    (ms.foldl binanceConsume rows).get? market.symbol = rows.get? market.symbol := by
  induction ms generalizing rows with
  | nil => rfl
  | cons m ms ih =>
    rw [List.foldl_cons, ih fun m' mem => raw m' (List.mem_cons_of_mem _ mem)]
    exact get?_binanceConsume_of_not_usdt (raw m (List.mem_cons_self ..)) other rows

/-- The Binance stream keys a raw symbol as the Bybit stream does exactly when the symbol is a base
currency followed by USDT, or when neither stream puts a slash into it; and after a message on the
stream of a market, whatever came before it, the row is found under the market's symbol exactly when
the market is against USDT. -/
theorem binance_keys_iff {raw : String} (h : UpperAlnum raw) :
    (binanceKey raw = toSlashSymbol raw ↔
      (∃ base, base ≠ "" ∧ raw = base ++ "USDT") ∨
        raw ≠ "USDT" ∧ ∀ base quote, base ≠ "" → quote ∈ quoteCandidates → raw ≠ base ++ quote) ∧
    ∀ (market : QuotedMarket) (ms : List (ℚ × BookTicker)) (now : ℚ) (m : BookTicker)
      (row : StreamRow), (∀ m ∈ ms, UpperAlnum m.2.symbol) → m.symbol = raw →
      binanceStream raw = binanceStream market.symbol → Carries now m row →
      (((ms ++ [(now, m)]).foldl binanceConsume .empty).get? market.symbol = some row ↔
        market.quote = "USDT") := by
  refine ⟨binanceKey_eq_iff h, fun market ms now m row raws named stream carries => ?_⟩
  subst named
  by_cases usdt : market.quote = "USDT"
  · have key : binanceKey (upper m.symbol) = market.symbol := by
      rw [h.upper_eq, eq_of_binanceStream h stream, usdt, binanceKey_usdt, QuotedMarket.symbol, usdt]
    have nonempty : upper m.symbol ≠ "" := by
      rw [h.upper_eq]
      exact h.1
    have written := carries.binanceMessage_eq nonempty
    rw [List.foldl_append, List.foldl_cons, List.foldl_nil, binanceConsume, written, key]
    exact iff_of_true (OrdDict.get?_set_self ..) usdt
  · have missing : ((ms ++ [(now, m)]).foldl binanceConsume .empty).get? market.symbol = none := by
      refine (get?_foldl_binanceConsume (fun m' mem => ?_) usdt .empty).trans (OrdDict.get?_empty _)
      rcases List.mem_append.1 mem with mem | mem
      · exact raws m' mem
      · cases List.mem_singleton.1 mem
        exact h
    rw [missing]
    exact iff_of_false (Option.some_ne_none row).symm usdt

/-- A message on the stream of ETH/USDT, and its row. -/
def sampleTicker : BookTicker := ⟨"ETHUSDT", .num 2000, .num 2001, .num 900⟩

theorem binance_keys_sample :
    ([(1, sampleTicker)].foldl binanceConsume .empty).get? "ETH/USDT" = some ⟨2000, 2001, 900⟩ :=
  ((@binance_keys_iff "ETHUSDT" (by decide)).2 ⟨"ETH", "USDT", by decide, by decide⟩ [] 1
    sampleTicker ⟨2000, 2001, 900⟩ (fun _ mem => by cases mem) rfl (by decide)
    ⟨rfl, rfl, by decide, by decide, by decide +kernel⟩).2 rfl

/-- The Binance stream keeps the raw symbol of a market against BTC, where the Bybit stream puts the
slash back, so that the market is not found after a message on its stream; and of USDT alone it makes a
symbol without a base currency. -/
theorem raw_symbol_kept :
    UpperAlnum "ETHBTC" ∧ binanceKey "ETHBTC" = "ETHBTC" ∧ toSlashSymbol "ETHBTC" = "ETH/BTC" ∧
    UpperAlnum "USDT" ∧ binanceKey "USDT" = "/USDT" ∧ toSlashSymbol "USDT" = "USDT" ∧
    ethBtc.symbol = "ETH/BTC" ∧ binanceStream "ETHBTC" = binanceStream "ETH/BTC" ∧
    ([(1, (⟨"ETHBTC", .num 7, .num 8, .num 900⟩ : BookTicker))].foldl binanceConsume .empty).get?
      "ETH/BTC" = none := by
  decide +kernel

end ArbBot
