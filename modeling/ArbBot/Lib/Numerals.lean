import ArbBot.Lib.Separated
import Mathlib.Algebra.Order.Field.Rat
import Mathlib.Data.Nat.Log
import Mathlib.Data.Nat.Prime.Basic
import Mathlib.Data.Rat.Lemmas
import Mathlib.Tactic.FieldSimp
import Mathlib.Tactic.Ring

/-!
# Numerals

Numbers as scripting languages read them from a text: white space around an optional sign and decimal
digits, between which single underscores may stand; and for a number that need not be whole, a point
and an exponent, or a word for an infinity or an undefined number. Both kinds have a range: a whole number
has at most `maxDigits` digits, and a number that need not be whole is infinite or zero where binary64 has
no number of that size. Within that range binary64 rounds, which is left out: a number is read as it is
spelled. `readWhole` and `readDecimal` read, `wholeText` and `decimalText` write. What is in range
and written is read back (`readWhole_wholeText`, `readDecimal_decimalText`), and nothing else is read
(`small_of_readWhole`, `spellable_of_readDecimal`).
-/

namespace Numerals

open Separated

/-- The white space around a number. -/
def isBlank (c : Char) : Bool := c.toNat = 32 ∨ 9 ≤ c.toNat ∧ c.toNat ≤ 13

/-- Digits, between which single underscores may stand. -/
def isDigits (cs : List Char) : Bool :=
  (cs.splitOn '_').all fun run => run ≠ [] && run.all Char.isDigit

/-- The number that the digits spell. -/
def valueOf (cs : List Char) : ℕ := Nat.ofDigitChars 10 (cs.filter (· ≠ '_')) 0

/-- The sign, and what follows it. -/
def signed : List Char → ℤ × List Char
  | '-' :: cs => (-1, cs)
  | '+' :: cs => (1, cs)
  | cs => (1, cs)

/-- A sign and digits. -/
def readSigned (cs : List Char) : Option ℤ :=
  if isDigits (signed cs).2 then some ((signed cs).1 * valueOf (signed cs).2) else none

/-- The number of digits that a whole number may have. -/
def maxDigits : ℕ := 4300

/-- Read a whole number. -/
def readWhole (cs : List Char) : Option ℤ :=
  let cs := trim isBlank cs
  if ((signed cs).2.filter (· ≠ '_')).length ≤ maxDigits then readSigned cs else none

/-- Read digits around a point: the number that all of them spell, and how many follow the point. -/
def readMantissa (cs : List Char) : Option (ℕ × ℕ) :=
  let whole := cs.takeWhile (· ≠ '.')
  let fraction := (cs.dropWhile (· ≠ '.')).tail
  if (whole = [] ∨ isDigits whole) ∧ (fraction = [] ∨ isDigits fraction) ∧
      (whole ≠ [] ∨ fraction ≠ []) then
    some (valueOf (whole ++ fraction), (fraction.filter (· ≠ '_')).length)
  else none

/-- Read an exponent with its mark, if there is one. -/
def readExponent : List Char → Option ℤ
  | [] => some 0
  | _ :: cs => readSigned cs

/-- The marks of an exponent. -/
def isMark (c : Char) : Bool := c = 'e' ∨ c = 'E'

/-- Read a mantissa and an exponent. -/
def readUnsigned (cs : List Char) : Option ℚ := do
  let (digits, places) ← readMantissa (cs.takeWhile fun c => !isMark c)
  let exponent ← readExponent (cs.dropWhile fun c => !isMark c)
  return digits * (10 : ℚ) ^ (exponent - places)

/-- What a text spells. -/
inductive Spelled where
  | number (x : ℚ)
  | nonFinite
  | unreadable
  deriving DecidableEq, Repr

/-- The words for a number that is infinite or undefined. -/
def nonFiniteWords : List (List Char) := ["inf".toList, "infinity".toList, "nan".toList]

/-- From here on, a number is infinite in binary64. -/
def infinite : ℕ := 2 ^ 1024 - 2 ^ 970

/-- Up to one over this, a number is zero in binary64. -/
def negligible : ℕ := 2 ^ 1075

/-- A number, as far as binary64 reaches. -/
def ranged (x : ℚ) : Spelled :=
  if infinite ≤ |x| then .nonFinite
  else if |x| * negligible ≤ 1 then .number 0
  else .number x

/-- Read a number that need not be whole. -/
def readDecimal (cs : List Char) : Spelled :=
  let (sign, body) := signed (trim isBlank cs)
  if body.map Char.toLower ∈ nonFiniteWords then .nonFinite
  else
    match readUnsigned body with
    | some x => ranged (sign * x)
    | none => .unreadable

example : readWhole " -1_200".toList = some (-1200) := by decide
example : readDecimal "+.25e1 ".toList = .number (5 / 2) := by decide +kernel
example : readDecimal "-1e400".toList = .nonFinite := by decide +kernel
example : readDecimal "1e-400".toList = .number 0 := by decide +kernel

/-! ## Writing -/

/-- The last `k` digits. -/
def lastDigits : ℕ → ℕ → List Char
  | 0, _ => []
  | k + 1, n => lastDigits k (n / 10) ++ [Nat.digitChar (n % 10)]

/-- The sign that is written in front of a negative number. -/
def signText (negative : Bool) : List Char := if negative then ['-'] else []

/-- Write a whole number. -/
def wholeText (n : ℤ) : List Char := signText (n < 0) ++ Nat.toDigits 10 n.natAbs

/-- The places after the point that a decimal fraction may need. -/
def places (x : ℚ) : ℕ := Nat.log 2 x.den

/-- The digits of a decimal fraction, as a number. -/
def scaled (x : ℚ) : ℕ := x.num.natAbs * (10 ^ places x / x.den)

/-- Write a decimal fraction. -/
def decimalText (x : ℚ) : List Char :=
  signText (x < 0) ++
    (Nat.toDigits 10 (scaled x / 10 ^ places x) ++ '.' :: lastDigits (places x) (scaled x))

/-- Finitely many digits after the point are enough. -/
def Decimal (x : ℚ) : Prop := ∃ k : ℕ, x.den ∣ 10 ^ k

/-- A number that can be spelled so that it is read as it is. -/
structure Spellable (x : ℚ) : Prop where
  decimal : Decimal x
  finite : |x| < infinite
  notable : x ≠ 0 → 1 < |x| * negligible

example : String.ofList (decimalText (-3 / 20)) = "-0.1500" := by decide +kernel

/-! ## Characters -/

lemma isDigit_ne {c d : Char} (digit : c.isDigit = true) (other : d.isDigit = false) : c ≠ d := fun e => by
  rw [e, other] at digit
  cases digit

lemma isBlank_of_isDigit {c : Char} (digit : c.isDigit = true) : isBlank c = false := by
  have range : 48 ≤ c.toNat ∧ c.toNat ≤ 57 := Char.isDigit_iff_toNat.1 digit
  exact decide_eq_false (by omega)

lemma isMark_of_isDigit {c : Char} (digit : c.isDigit = true) : isMark c = false :=
  decide_eq_false (not_or.2 ⟨isDigit_ne digit rfl, isDigit_ne digit rfl⟩)

/-- Lower case leaves a digit alone. -/
lemma toLower_of_isDigit {c : Char} (digit : c.isDigit = true) : c.toLower = c := by
  have range : 48 ≤ c.toNat ∧ c.toNat ≤ 57 := Char.isDigit_iff_toNat.1 digit
  refine dif_neg fun upper => ?_
  have lo : 65 ≤ c.toNat := upper.1
  omega

/-! ## Digits -/

lemma isDigits_of_forall {cs : List Char} (ne : cs ≠ []) (h : ∀ c ∈ cs, c.isDigit = true) :
    isDigits cs = true := by
  have single : cs.splitOn '_' = [cs] :=
    List.splitOn_eq_singleton fun mem => absurd (h _ mem) Bool.false_ne_true
  rw [isDigits, single, List.all_cons, List.all_nil, Bool.and_true, Bool.and_eq_true]
  exact ⟨decide_eq_true ne, List.all_eq_true.2 h⟩

lemma filter_digits {cs : List Char} (h : ∀ c ∈ cs, c.isDigit = true) :
    cs.filter (· ≠ '_') = cs :=
  List.filter_eq_self.2 fun c mem => decide_eq_true (isDigit_ne (h c mem) rfl)

lemma valueOf_digits {cs : List Char} (h : ∀ c ∈ cs, c.isDigit = true) :
    valueOf cs = Nat.ofDigitChars 10 cs 0 := by
  rw [valueOf, filter_digits h]

lemma isDigit_toDigits {n : ℕ} {c : Char} (mem : c ∈ Nat.toDigits 10 n) : c.isDigit = true :=
  Nat.isDigit_of_mem_toDigits (by decide) (by decide) mem

lemma toDigits_ne_nil (n : ℕ) : Nat.toDigits 10 n ≠ [] := by
  rw [Nat.toDigits_eq_if (by decide)]
  split
  · exact List.cons_ne_nil _ _
  · exact List.append_ne_nil_of_right_ne_nil _ (List.cons_ne_nil _ _)

lemma isDigit_digitChar {d : ℕ} (h : d < 10) : (Nat.digitChar d).isDigit = true :=
  isDigit_toDigits (n := d) (by rw [Nat.toDigits_of_lt_base h]; exact List.mem_singleton_self _)

lemma isDigit_lastDigits {k n : ℕ} {c : Char} (mem : c ∈ lastDigits k n) : c.isDigit = true := by
  induction k generalizing n with
  | zero => cases mem
  | succ k ih =>
    cases List.mem_append.1 mem with
    | inl earlier => exact ih earlier
    | inr last =>
      rw [List.mem_singleton.1 last]
      exact isDigit_digitChar (Nat.mod_lt n (by decide))

lemma length_lastDigits (k n : ℕ) : (lastDigits k n).length = k := by
  induction k generalizing n with
  | zero => rfl
  | succ k ih => rw [lastDigits, List.length_append, ih, List.length_singleton]

/-- The last digits of a number, after the digits of another one. -/
lemma ofDigitChars_lastDigits (k n init : ℕ) :
    Nat.ofDigitChars 10 (lastDigits k n) init = 10 ^ k * init + n % 10 ^ k := by
  induction k generalizing n with
  | zero => rw [lastDigits, Nat.ofDigitChars_nil, Nat.pow_zero, Nat.mod_one, Nat.one_mul, Nat.add_zero]
  | succ k ih =>
    rw [lastDigits, Nat.ofDigitChars_append, ih,
      Nat.ofDigitChars_cons_digitChar_of_lt_ten (Nat.mod_lt n (by decide)), Nat.ofDigitChars_nil,
      Nat.pow_succ', Nat.mod_mul]
    ring

/-! ## Round trips -/

/-- The sign that is written is read. -/
lemma signed_signText {negative : Bool} {cs : List Char} {d : Char} (head : cs.head? = some d)
    (digit : d.isDigit = true) :
    signed (signText negative ++ cs) = (if negative then -1 else 1, cs) := by
  cases negative with
  | true => rfl
  | false =>
    cases cs with
    | nil => cases head
    | cons c cs =>
      cases head
      show signed (d :: cs) = (1, d :: cs)
      unfold signed
      split
      case h_1 e => cases e; cases digit
      case h_2 e => cases e; cases digit
      case h_3 => rfl

/-- A text of digits starts with a digit. -/
lemma head_toDigits (n : ℕ) (rest : List Char) :
    ∃ d, (Nat.toDigits 10 n ++ rest).head? = some d ∧ d.isDigit = true := by
  cases e : Nat.toDigits 10 n with
  | nil => exact absurd e (toDigits_ne_nil n)
  | cons d ds => exact ⟨d, rfl, isDigit_toDigits (n := n) (by rw [e]; exact List.mem_cons_self)⟩

lemma isBlank_signText {negative : Bool} {c : Char} (mem : c ∈ signText negative) :
    isBlank c = false := by
  cases negative with
  | true => rw [List.mem_singleton.1 mem]; rfl
  | false => cases mem

/-- A whole number that is written is read back. -/
theorem readWhole_wholeText {n : ℤ} (small : n.natAbs < 10 ^ maxDigits) :
    readWhole (wholeText n) = some n := by
  have plain : trim isBlank (wholeText n) = wholeText n := by
    apply trim_eq_self
    intro c mem
    cases List.mem_append.1 mem with
    | inl sign => exact isBlank_signText sign
    | inr digit => exact isBlank_of_isDigit (isDigit_toDigits digit)
  obtain ⟨d, head, digit⟩ := head_toDigits n.natAbs []
  rw [List.append_nil] at head
  have digits := isDigits_of_forall (toDigits_ne_nil n.natAbs) fun _ => isDigit_toDigits
  have few : (Nat.toDigits 10 n.natAbs).length ≤ maxDigits :=
    (Nat.length_toDigits_le_iff (by decide) (by decide)).2 small
  rw [readWhole, plain, readSigned, wholeText, signed_signText head digit,
    filter_digits fun _ => isDigit_toDigits, if_pos few, if_pos digits,
    valueOf_digits fun _ => isDigit_toDigits, Nat.ofDigitChars_ten_toDigits]
  congr 1
  by_cases negative : n < 0
  · rw [decide_eq_true negative, if_pos rfl]
    omega
  · rw [decide_eq_false negative, if_neg Bool.false_ne_true]
    omega

/-- The places that are written are enough. -/
lemma den_dvd_places {x : ℚ} (h : Decimal x) : x.den ∣ 10 ^ places x := by
  obtain ⟨k, dvd⟩ := h
  rw [show (10 : ℕ) = 2 * 5 from rfl, Nat.mul_pow] at dvd ⊢
  obtain ⟨a, b, ha, hb, e⟩ := (Nat.dvd_mul.1 dvd : ∃ a b, _)
  obtain ⟨i, _, rfl⟩ := (Nat.dvd_prime_pow Nat.prime_two).1 ha
  obtain ⟨j, _, rfl⟩ := (Nat.dvd_prime_pow (by decide : Nat.Prime 5)).1 hb
  have bound : ∀ {b e : ℕ}, 2 ≤ b → b ^ e ∣ x.den → e ≤ places x := fun {b e} two dvd => by
    apply Nat.le_log_of_pow_le Nat.one_lt_two
    exact (Nat.pow_le_pow_left two e).trans (Nat.le_of_dvd x.den_pos dvd)
  rw [← e]
  exact Nat.mul_dvd_mul
    (pow_dvd_pow 2 (bound le_rfl (e ▸ Nat.dvd_mul_right _ _)))
    (pow_dvd_pow 5 (bound (by decide) (e ▸ Nat.dvd_mul_left _ _)))

/-- The digits that are written, with the point moved. -/
lemma scaled_div {x : ℚ} (h : Decimal x) :
    (scaled x : ℚ) * 10 ^ (0 - (places x : ℤ)) = x.num.natAbs / x.den := by
  obtain ⟨m, e⟩ := den_dvd_places h
  have den : (x.den : ℚ) ≠ 0 := Nat.cast_ne_zero.2 x.den_nz
  have quotient : 10 ^ places x / x.den = m := by
    rw [e, Nat.mul_div_cancel_left _ x.den_pos]
  have cast : (10 : ℚ) ^ places x = x.den * m := by
    rw [← Nat.cast_mul, ← e, Nat.cast_pow]
    rfl
  have hm : (m : ℚ) ≠ 0 := fun zero => by
    rw [zero, mul_zero] at cast
    exact pow_ne_zero _ (by decide) cast
  rw [scaled, quotient, zero_sub, zpow_neg, zpow_natCast, cast, Nat.cast_mul]
  field_simp

/-- Digits around a point are read, as one number. -/
lemma readMantissa_digits {whole fraction : List Char} (ne : whole ≠ [])
    (hw : ∀ c ∈ whole, c.isDigit = true) (hf : ∀ c ∈ fraction, c.isDigit = true) :
    readMantissa (whole ++ '.' :: fraction) =
      some (Nat.ofDigitChars 10 (whole ++ fraction) 0, fraction.length) := by
  have pointless : ∀ c ∈ whole, decide (c ≠ '.') = true := fun c mem =>
    decide_eq_true (isDigit_ne (hw c mem) rfl)
  have all : ∀ c ∈ whole ++ fraction, c.isDigit = true := fun c mem =>
    (List.mem_append.1 mem).elim (hw c) (hf c)
  have front : (whole ++ '.' :: fraction).takeWhile (· ≠ '.') = whole := by
    rw [List.takeWhile_append_of_pos pointless, List.takeWhile_cons_of_neg (by decide), List.append_nil]
  have back : ((whole ++ '.' :: fraction).dropWhile (· ≠ '.')).tail = fraction := by
    rw [List.dropWhile_append_of_pos pointless, List.dropWhile_cons_of_neg (by decide)]
    rfl
  have digits : fraction = [] ∨ isDigits fraction = true := by
    cases fraction with
    | nil => exact .inl rfl
    | cons c cs => exact .inr (isDigits_of_forall (List.cons_ne_nil _ _) hf)
  rw [readMantissa, front, back, if_pos ⟨.inr (isDigits_of_forall ne hw), digits, .inl ne⟩,
    valueOf_digits all, filter_digits hf]

/-- The characters of a number that is written. -/
lemma decimalText_chars {x : ℚ} {c : Char}
    (mem : c ∈ Nat.toDigits 10 (scaled x / 10 ^ places x) ++ '.' :: lastDigits (places x) (scaled x)) :
    c.isDigit = true ∨ c = '.' := by
  cases List.mem_append.1 mem with
  | inl whole => exact .inl (isDigit_toDigits whole)
  | inr rest =>
    cases List.mem_cons.1 rest with
    | inl point => exact .inr point
    | inr fraction => exact .inl (isDigit_lastDigits fraction)

lemma range_of_isDigit {c : Char} (digit : c.isDigit = true) : 45 ≤ c.toNat ∧ c.toNat ≤ 57 := by
  have range : 48 ≤ c.toNat ∧ c.toNat ≤ 57 := Char.isDigit_iff_toNat.1 digit
  omega

lemma range_of_mem_signText {negative : Bool} {c : Char} (mem : c ∈ signText negative) :
    45 ≤ c.toNat ∧ c.toNat ≤ 57 := by
  cases negative with
  | true => rw [List.mem_singleton.1 mem]; decide
  | false => cases mem

/-- The codes of the characters of a whole number that is written. -/
lemma range_of_mem_wholeText {n : ℤ} {c : Char} (mem : c ∈ wholeText n) :
    45 ≤ c.toNat ∧ c.toNat ≤ 57 :=
  (List.mem_append.1 mem).elim range_of_mem_signText fun digit =>
    range_of_isDigit (isDigit_toDigits digit)

/-- The codes of the characters of a decimal fraction that is written. -/
lemma range_of_mem_decimalText {x : ℚ} {c : Char} (mem : c ∈ decimalText x) :
    45 ≤ c.toNat ∧ c.toNat ≤ 57 := by
  cases List.mem_append.1 mem with
  | inl sign => exact range_of_mem_signText sign
  | inr body =>
    cases decimalText_chars body with
    | inl digit => exact range_of_isDigit digit
    | inr point => rw [point]; decide

lemma readUnsigned_scaled {x : ℚ} (h : Decimal x) :
    readUnsigned (Nat.toDigits 10 (scaled x / 10 ^ places x) ++
      '.' :: lastDigits (places x) (scaled x)) = some ((x.num.natAbs : ℚ) / x.den) := by
  have unmarked : ∀ c ∈ Nat.toDigits 10 (scaled x / 10 ^ places x) ++
      '.' :: lastDigits (places x) (scaled x), (!isMark c) = true := by
    intro c mem
    cases decimalText_chars mem with
    | inl digit => rw [isMark_of_isDigit digit]; rfl
    | inr point => rw [point]; rfl
  have digits : Nat.ofDigitChars 10 (Nat.toDigits 10 (scaled x / 10 ^ places x) ++
      lastDigits (places x) (scaled x)) 0 = scaled x := by
    rw [Nat.ofDigitChars_append, Nat.ofDigitChars_ten_toDigits, ofDigitChars_lastDigits,
      Nat.div_add_mod]
  rw [readUnsigned, List.takeWhile_eq_self_iff.2 unmarked, List.dropWhile_eq_nil_iff.2 unmarked,
    readMantissa_digits (toDigits_ne_nil _) (fun _ => isDigit_toDigits) (fun _ => isDigit_lastDigits),
    digits, length_lastDigits]
  exact congrArg some (scaled_div h)

/-- A digit is in no word for a number that is not finite. -/
lemma finite_of_digit {cs : List Char} {d : Char} (head : cs.head? = some d)
    (digit : d.isDigit = true) : cs.map Char.toLower ∉ nonFiniteWords := by
  have first : (cs.map Char.toLower).head? = some d := by
    rw [List.head?_map, head, Option.map_some, toLower_of_isDigit digit]
  intro mem
  have words : ∀ w ∈ nonFiniteWords, w.head?.all (fun c => !c.isDigit) = true := by decide
  have word := words _ mem
  rw [first, Option.all_some, digit] at word
  cases word

lemma ranged_of_spellable {x : ℚ} (h : Spellable x) : ranged x = .number x := by
  rw [ranged, if_neg (not_le.2 h.finite)]
  by_cases zero : x = 0
  · rw [zero, ite_self]
  · rw [if_neg (not_le.2 (h.notable zero))]

/-- A decimal fraction in range that is written is read back. -/
theorem readDecimal_decimalText {x : ℚ} (h : Spellable x) :
    readDecimal (decimalText x) = .number x := by
  have plain : trim isBlank (decimalText x) = decimalText x := by
    apply trim_eq_self
    intro c mem
    cases List.mem_append.1 mem with
    | inl sign => exact isBlank_signText sign
    | inr body =>
      cases decimalText_chars body with
      | inl digit => exact isBlank_of_isDigit digit
      | inr point => rw [point]; rfl
  obtain ⟨d, head, digit⟩ := head_toDigits (scaled x / 10 ^ places x)
    ('.' :: lastDigits (places x) (scaled x))
  rw [readDecimal, plain, decimalText, signed_signText head digit]
  dsimp only
  rw [if_neg (finite_of_digit head digit), readUnsigned_scaled h.decimal]
  have signed : ((if decide (x < 0) = true then -1 else 1 : ℤ) : ℚ) * x.num.natAbs = x.num := by
    rw [← Int.cast_natCast, ← Int.cast_mul]
    congr 1
    by_cases negative : x < 0
    · have num := Rat.num_neg.2 negative
      rw [decide_eq_true negative, if_pos rfl]
      omega
    · have num := Rat.num_nonneg.2 (not_lt.1 negative)
      rw [decide_eq_false negative, if_neg Bool.false_ne_true]
      omega
  dsimp only
  rw [← mul_div_assoc, signed, Rat.num_div_den, ranged_of_spellable h]

/-! ## What is read -/

lemma decimal_intCast_div (n : ℤ) (k : ℕ) : Decimal (n / 10 ^ k) := by
  refine ⟨k, ?_⟩
  have dvd := Rat.den_dvd n (10 ^ k)
  rw [Rat.divInt_eq_div, Int.cast_pow] at dvd
  exact_mod_cast dvd

/-- What is spelled with a sign is a decimal fraction. -/
lemma decimal_of_readUnsigned {cs : List Char} {y : ℚ} (e : readUnsigned cs = some y) (sign : ℤ) :
    Decimal (sign * y) := by
  obtain ⟨⟨digits, after⟩, _, e⟩ := Option.bind_eq_some_iff.1 e
  obtain ⟨exponent, _, e⟩ := Option.bind_eq_some_iff.1 e
  cases e
  -- the exponent moves the point to the right or to the left
  cases exponent - (after : ℤ) with
  | ofNat m =>
    have decimal := decimal_intCast_div (sign * digits * 10 ^ m) 0
    rw [pow_zero, div_one, Int.cast_mul, Int.cast_mul, mul_assoc] at decimal
    rw [Int.ofNat_eq_natCast, zpow_natCast]
    exact_mod_cast decimal
  | negSucc m =>
    have decimal := decimal_intCast_div (sign * digits) (m + 1)
    rw [Int.cast_mul, mul_div_assoc, div_eq_mul_inv] at decimal
    rw [zpow_negSucc]
    exact_mod_cast decimal

/-- What is left of a decimal fraction can be spelled. -/
lemma spellable_of_ranged {x y : ℚ} (decimal : Decimal x) (e : ranged x = .number y) : Spellable y := by
  unfold ranged at e
  split at e
  case isTrue => cases e
  case isFalse finite =>
    split at e
    case isTrue =>
      cases e
      refine ⟨⟨0, by decide⟩, ?_, fun ne => absurd rfl ne⟩
      rw [abs_zero]
      exact (abs_nonneg x).trans_lt (not_le.1 finite)
    case isFalse notable =>
      cases e
      exact ⟨decimal, not_le.1 finite, fun _ => not_le.1 notable⟩

/-- Only numbers that can be spelled are read. -/
theorem spellable_of_readDecimal {cs : List Char} {x : ℚ} (e : readDecimal cs = .number x) :
    Spellable x := by
  unfold readDecimal at e
  dsimp only at e
  split at e
  case isTrue => cases e
  case isFalse =>
    split at e
    case h_1 y hy => exact spellable_of_ranged (decimal_of_readUnsigned hy _) e
    case h_2 => cases e

/-- Digits spell a number that has no more of them. -/
lemma ofDigitChars_lt {cs : List Char} (h : ∀ c ∈ cs, c.isDigit = true) (init : ℕ) :
    Nat.ofDigitChars 10 cs init < 10 ^ cs.length * (init + 1) := by
  induction cs generalizing init with
  | nil => rw [Nat.ofDigitChars_nil, List.length_nil, Nat.pow_zero, Nat.one_mul]; exact Nat.lt_succ_self _
  | cons c cs ih =>
    obtain ⟨digit, rest⟩ := List.forall_mem_cons.1 h
    have range : 48 ≤ c.toNat ∧ c.toNat ≤ 57 := Char.isDigit_iff_toNat.1 digit
    have zero : '0'.toNat = 48 := rfl
    rw [Nat.ofDigitChars_cons, List.length_cons]
    calc Nat.ofDigitChars 10 cs (10 * init + (c.toNat - '0'.toNat))
        < 10 ^ cs.length * (10 * init + (c.toNat - '0'.toNat) + 1) := ih rest _
      _ ≤ 10 ^ cs.length * (10 * (init + 1)) := Nat.mul_le_mul_left _ (by omega)
      _ = 10 ^ (cs.length + 1) * (init + 1) := by ring

/-- What is no underscore among digits is a digit. -/
lemma isDigit_of_isDigits {cs : List Char} (h : isDigits cs = true) {c : Char}
    (mem : c ∈ cs.filter (· ≠ '_')) : c.isDigit = true := by
  obtain ⟨mem, other⟩ := List.mem_filter.1 mem
  have runs : ['_'].intercalate (cs.splitOn '_') = cs := List.intercalate_splitOn '_'
  rw [← runs] at mem
  rcases mem_of_mem_intercalate mem with mark | ⟨run, hrun, mem⟩
  · exact absurd mark (of_decide_eq_true other)
  · have digits := List.all_eq_true.1 h run hrun
    rw [Bool.and_eq_true] at digits
    exact List.all_eq_true.1 digits.2 c mem

/-- Only whole numbers without too many digits are read. -/
theorem small_of_readWhole {cs : List Char} {n : ℤ} (e : readWhole cs = some n) :
    n.natAbs < 10 ^ maxDigits := by
  unfold readWhole at e
  dsimp only at e
  split at e
  case isFalse => cases e
  case isTrue few =>
    unfold readSigned at e
    split at e
    case isFalse => cases e
    case isTrue digits =>
      cases e
      have value := ofDigitChars_lt (fun c => isDigit_of_isDigits digits) 0
      rw [Nat.zero_add, Nat.mul_one] at value
      have sign : (signed (trim isBlank cs)).1.natAbs = 1 := by
        unfold signed
        split <;> rfl
      rw [Int.natAbs_mul, sign, Nat.one_mul, Int.natAbs_natCast]
      exact value.trans_le (Nat.pow_le_pow_right (by decide) few)

end Numerals
