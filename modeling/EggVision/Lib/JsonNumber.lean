import EggVision.Lib.DecimalText
import EggVision.Lib.Digits
import EggVision.Lib.JsonText
import Mathlib.Tactic.IntervalCases
import Mathlib.Tactic.Positivity
import Mathlib.Tactic.Ring

/-!
# Words and numbers as JSON

The texts that a stream writes for truth values and for numbers, and what a reader makes of them:
natural numbers and integers in base ten, numbers with a fixed number of digits behind the point,
and the names of what is no number, which JSON does not have.

## Main definitions

* `ascii`, `decimal`, `signed`, `fixedPoint`

## Main results

* `Reads.word`, `Reads.decimal`, `Reads.signed`, `Reads.fixedPoint`, `Reads.refused`
-/

namespace JsonText

open JsonString Digits

/-- The bytes of a text of ASCII characters. -/
def ascii (text : String) : Bytes := text.toList.map byte

def decimal (n : ℕ) : Bytes := (Nat.toDigits 10 n).map byte

def signed (n : ℤ) : Bytes :=
  if n < 0 then byte '-' :: decimal n.natAbs else decimal n.natAbs

/-- A number of `units / 10 ^ places`, with all its places. -/
def fixedPoint (places : ℕ) (negative : Bool) (units : ℕ) : Bytes :=
  (if negative then [byte '-'] else []) ++ decimal (units / 10 ^ places) ++
    byte '.' :: (padded places (units % 10 ^ places)).map byte

/-! ### Scalars in a value's place -/

section

variable {text rest : Bytes} {json : Json}

/-- A text whose first byte opens nothing is read as a scalar. -/
theorem value_scalar {b : UInt8} (hspace : isSpace b = false) (hbrace : b ≠ byte '{')
    (hbracket : b ≠ byte '[') (hquote : b ≠ quote) (rest : Bytes) :
    value (b :: rest) = readScalar (b :: rest) := by
  rw [value_eq, skip_cons hspace]
  dsimp only
  rw [if_neg hbrace, if_neg hbracket, if_neg hquote]

theorem readWord_append (word rest : Bytes) (json : Json) :
    readWord word json (word ++ rest) = some (json, rest) := by
  rw [readWord, if_pos (List.prefix_append _ _), List.drop_left]

theorem Reads.null : Reads (ascii "null") (some .null) := by
  intro rest _
  rw [show ascii "null" ++ rest = byte 'n' :: (ascii "ull" ++ rest) from rfl,
    value_scalar (by decide) (by decide) (by decide) (by decide)]
  exact readWord_append (ascii "null") rest .null

theorem Reads.bool (b : Bool) : Reads (ascii (if b then "true" else "false")) (some (.bool b)) := by
  intro rest _
  cases b with
  | true =>
    rw [if_pos rfl, show ascii "true" ++ rest = byte 't' :: (ascii "rue" ++ rest) from rfl,
      value_scalar (by decide) (by decide) (by decide) (by decide)]
    exact readWord_append (ascii "true") rest (.bool true)
  | false =>
    rw [if_neg (by decide),
      show ascii "false" ++ rest = byte 'f' :: (ascii "alse" ++ rest) from rfl,
      value_scalar (by decide) (by decide) (by decide) (by decide)]
    exact readWord_append (ascii "false") rest (.bool false)

/-- What begins like no number is none. -/
theorem Reads.refused {b : UInt8} (hspace : isSpace b = false) (hbrace : b ≠ byte '{')
    (hbracket : b ≠ byte '[') (hquote : b ≠ quote)
    (h : ∀ rest, readScalar (b :: (text ++ rest)) = none) : Reads (b :: text) none := by
  intro rest _
  rw [List.cons_append, value_scalar hspace hbrace hbracket hquote, h]
  rfl

end

/-! ### Digits -/

theorem toNat_byte {c : Char} (h : c.isDigit = true) : (byte c).toNat = c.toNat := by
  obtain ⟨hlo, hhi⟩ := DecimalText.isDigit_toNat h
  rw [byte, Nat.toUInt8, UInt8.toNat_ofNat']
  omega

theorem isDigit_byte {c : Char} (h : c.isDigit = true) : isDigit (byte c) = true := by
  obtain ⟨hlo, hhi⟩ := DecimalText.isDigit_toNat h
  simp only [isDigit, Bool.and_eq_true, decide_eq_true_eq, UInt8.le_iff_toNat_le, toNat_byte h]
  exact ⟨hlo, hhi⟩

/-- A byte that may follow a value continues no number. -/
theorem Stops.not_number {rest : Bytes} (h : Stops rest) : ∀ b ∈ rest.head?,
    isDigit b = false ∧ b ≠ byte '.' ∧ b ≠ byte 'e' ∧ b ≠ byte 'E' := by
  intro b hb
  have hcases : b ∈ [0x20, 0x09, 0x0A, 0x0D, byte ',', byte '}', byte ']'] := by
    rcases h b hb with h | h | h | h
    · simp only [isSpace, Bool.or_eq_true, decide_eq_true_eq] at h
      simp only [List.mem_cons]
      tauto
    · simp [h]
    · simp [h]
    · simp [h]
  have hall : [0x20, 0x09, 0x0A, 0x0D, byte ',', byte '}', byte ']'].all (fun c =>
      !isDigit c && c != byte '.' && c != byte 'e' && c != byte 'E') = true := by decide
  simpa [and_assoc] using List.all_eq_true.mp hall b hcases

theorem readDigits_append {digits rest : Bytes} (hne : digits ≠ [])
    (hdigits : ∀ b ∈ digits, isDigit b = true) (hrest : ∀ b ∈ rest.head?, isDigit b = false) :
    readDigits (digits ++ rest) = some (digits, rest) := by
  have htake : rest.takeWhile isDigit = [] ∧ rest.dropWhile isDigit = rest := by
    cases rest with
    | nil => exact ⟨rfl, rfl⟩
    | cons b rest =>
      have hb := hrest b rfl
      exact ⟨List.takeWhile_cons_of_neg (by simp [hb]), List.dropWhile_cons_of_neg (by simp [hb])⟩
  rw [readDigits, List.takeWhile_append_of_pos hdigits, List.dropWhile_append_of_pos hdigits,
    htake.1, htake.2, List.append_nil, if_neg hne]

theorem digitsValue_append (l m : Bytes) :
    digitsValue (l ++ m) = digitsValue l * 10 ^ m.length + digitsValue m := by
  induction m using List.reverseRecOn with
  | nil => simp [digitsValue]
  | append_singleton m b ih =>
    rw [← List.append_assoc, digitsValue, List.foldl_append, ← digitsValue, ih, digitsValue,
      digitsValue, digitsValue, List.foldl_append, List.length_append]
    simp only [List.foldl_cons, List.foldl_nil, List.length_singleton, Nat.pow_succ]
    ring

theorem digitsValue_byte {l : List Char} (h : ∀ c ∈ l, c.isDigit = true) :
    digitsValue (l.map byte) = Nat.ofDigitChars 10 l 0 := by
  induction l using List.reverseRecOn with
  | nil => rfl
  | append_singleton l c ih =>
    have hl := ih fun d hd => h d (List.mem_append_left _ hd)
    rw [List.map_append, digitsValue_append, hl, Nat.ofDigitChars_append, Nat.ofDigitChars_cons,
      Nat.ofDigitChars_nil]
    simp only [digitsValue, List.map_cons, List.map_nil, List.foldl_cons, List.foldl_nil,
      List.length_singleton, toNat_byte (h c (by simp))]
    rw [show '0'.toNat = 48 from rfl]
    omega

theorem decimal_digits (n : ℕ) : ∀ b ∈ decimal n, isDigit b = true := by
  intro b hb
  obtain ⟨c, hc, rfl⟩ := List.mem_map.mp hb
  exact isDigit_byte (Nat.isDigit_of_mem_toDigits (by omega) (by omega) hc)

theorem decimal_ne_nil (n : ℕ) : decimal n ≠ [] := by
  intro h
  exact Nat.toDigits_ne_nil (List.map_eq_nil_iff.mp h)

theorem digitsValue_decimal (n : ℕ) : digitsValue (decimal n) = n := by
  rw [decimal, digitsValue_byte fun c hc => Nat.isDigit_of_mem_toDigits (by omega) (by omega) hc,
    Nat.ofDigitChars_ten_toDigits]

/-- There is no zero in front of a number. -/
theorem decimal_head (n : ℕ) :
    ¬ (1 < (decimal n).length ∧ (decimal n).head? = some (byte '0')) := by
  rintro ⟨hlong, hzero⟩
  have hn : 0 < n := by
    rcases Nat.eq_zero_or_pos n with rfl | hpos
    · exact absurd hlong (by decide)
    · exact hpos
  clear hlong
  induction n using Nat.strongRecOn with
  | ind n ih =>
    by_cases hlt : n < 10
    · rw [decimal, Nat.toDigits_of_lt_base hlt] at hzero
      interval_cases n <;> exact absurd hzero (by decide)
    · rw [decimal, Nat.toDigits_of_base_le (by omega) (by omega), List.map_append,
        ← decimal, List.head?_append_of_ne_nil _ (decimal_ne_nil _)] at hzero
      exact ih (n / 10) (by omega) hzero (by omega)

/-! ### Numbers -/

/-- The sign, the digits and what `tail` begins with are a number. -/
theorem readNumber_text (negative : Bool) (n : ℕ) {fraction tail rest : Bytes}
    (hfraction : readFraction tail = some (fraction, rest))
    (htail : ∀ b ∈ tail.head?, isDigit b = false) (hrest : Stops rest) :
    readNumber ((if negative then [byte '-'] else []) ++ decimal n ++ tail) =
      some ((if negative then -1 else 1) *
        (digitsValue (decimal n ++ fraction) * (10 : ℚ) ^ (-(fraction.length : ℤ))), rest) := by
  have hsign : readSign false ((if negative then [byte '-'] else []) ++ decimal n ++ tail) =
      (negative, decimal n ++ tail) := by
    cases negative with
    | true => rfl
    | false =>
      obtain ⟨b, digits, hdigits⟩ := List.exists_cons_of_ne_nil (decimal_ne_nil n)
      have hb : isDigit b = true := decimal_digits n b (by simp [hdigits])
      have hminus : b ≠ byte '-' := by
        rintro rfl
        exact absurd hb (by decide)
      simp [hdigits, readSign, hminus]
  have hexponent : readExponent rest = some (0, rest) := by
    cases rest with
    | nil => rfl
    | cons b rest =>
      have hb := hrest.not_number b rfl
      rw [readExponent, if_neg (by tauto)]
  rw [readNumber, hsign, readDigits_append (decimal_ne_nil n) (decimal_digits n) htail,
    Option.bind_some]
  dsimp only
  rw [if_neg (decimal_head n), hfraction, Option.bind_some]
  dsimp only
  rw [hexponent]
  cases negative <;> simp

/-- A number is read where a value is expected. -/
theorem value_number (negative : Bool) (n : ℕ) {fraction tail rest : Bytes}
    (hfraction : readFraction tail = some (fraction, rest))
    (htail : ∀ b ∈ tail.head?, isDigit b = false) (hrest : Stops rest) :
    value ((if negative then [byte '-'] else []) ++ decimal n ++ tail) =
      some (.number ((if negative then -1 else 1) *
        (digitsValue (decimal n ++ fraction) * (10 : ℚ) ^ (-(fraction.length : ℤ)))), rest) := by
  have hnumber := readNumber_text negative n hfraction htail hrest
  obtain ⟨b, text, htext, hb⟩ : ∃ b text,
      (if negative then [byte '-'] else []) ++ decimal n ++ tail = b :: text ∧
        (b = byte '-' ∨ isDigit b = true) := by
    obtain ⟨b, digits, hdigits⟩ := List.exists_cons_of_ne_nil (decimal_ne_nil n)
    have hb : isDigit b = true := decimal_digits n b (by simp [hdigits])
    cases negative with
    | true => exact ⟨_, _, rfl, Or.inl rfl⟩
    | false => exact ⟨b, digits ++ tail, by simp [hdigits], Or.inr hb⟩
  rw [htext] at hnumber ⊢
  have hplain : isSpace b = false ∧ b ≠ byte '{' ∧ b ≠ byte '[' ∧ b ≠ quote ∧ b ≠ byte 'n' ∧
      b ≠ byte 't' ∧ b ≠ byte 'f' := by
    rcases hb with rfl | hb
    · decide
    · have hall : [0x20, 0x09, 0x0A, 0x0D, byte '{', byte '[', quote, byte 'n', byte 't',
          byte 'f'].all (fun c => !isDigit c) = true := by decide
      have hne : ∀ c ∈ [0x20, 0x09, 0x0A, 0x0D, byte '{', byte '[', quote, byte 'n', byte 't',
          byte 'f'], b ≠ c := by
        rintro c hc rfl
        have hother : (!isDigit b) = true := List.all_eq_true.mp hall b hc
        rw [hb] at hother
        cases hother
      simp only [List.mem_cons, List.not_mem_nil, or_false, forall_eq_or_imp, forall_eq] at hne
      obtain ⟨hspace, htab, hnewline, hreturn, hother⟩ := hne
      exact ⟨by simp [isSpace, hspace, htab, hnewline, hreturn], hother⟩
  obtain ⟨hspace, hbrace, hbracket, hquote, hn, ht, hf⟩ := hplain
  rw [value_scalar hspace hbrace hbracket hquote, readScalar, if_neg (by simpa using hn),
    if_neg (by simpa using ht), if_neg (by simpa using hf), hnumber]
  rfl

theorem readFraction_stops {rest : Bytes} (h : Stops rest) :
    readFraction rest = some ([], rest) := by
  cases rest with
  | nil => rfl
  | cons b rest => rw [readFraction, if_neg (h.not_number b rfl).2.1]

theorem Reads.decimal (n : ℕ) : Reads (decimal n) (some (.number n)) := by
  intro rest hrest
  have := value_number false n (readFraction_stops hrest)
    (fun b hb => (hrest.not_number b hb).1) hrest
  simpa [digitsValue_decimal] using this

theorem Reads.signed (n : ℤ) : Reads (signed n) (some (.number n)) := by
  intro rest hrest
  have := value_number (decide (n < 0)) n.natAbs (readFraction_stops hrest)
    (fun b hb => (hrest.not_number b hb).1) hrest
  by_cases hn : n < 0
  · have habs : ((n.natAbs : ℤ) : ℚ) = -n := by
      rw [Int.ofNat_natAbs_of_nonpos hn.le, Int.cast_neg]
    rw [Int.cast_natCast] at habs
    simpa [JsonText.signed, hn, digitsValue_decimal, habs] using this
  · have habs : ((n.natAbs : ℤ) : ℚ) = n := by
      rw [Int.natAbs_of_nonneg (by omega)]
    rw [Int.cast_natCast] at habs
    simpa [JsonText.signed, hn, digitsValue_decimal, habs] using this

/-- A number with a fixed number of places is read as what it says. -/
theorem Reads.fixedPoint {places : ℕ} (hplaces : 0 < places) (negative : Bool) (units : ℕ) :
    Reads (fixedPoint places negative units)
      (some (.number ((if negative then -1 else 1) * (units / 10 ^ places)))) := by
  intro rest hrest
  have hlt : units % 10 ^ places < 10 ^ places := Nat.mod_lt _ (by positivity)
  have hlength := length_padded hplaces hlt
  have hdigits : ∀ c ∈ padded places (units % 10 ^ places), c.isDigit = true :=
    fun c => isDigit_of_mem_padded
  have hfraction : readFraction
      (byte '.' :: (padded places (units % 10 ^ places)).map byte ++ rest) =
        some ((padded places (units % 10 ^ places)).map byte, rest) := by
    rw [List.cons_append, readFraction, if_pos rfl]
    refine readDigits_append (fun hnil => ?_) (fun b hb => ?_)
      (fun b hb => (hrest.not_number b hb).1)
    · rw [List.map_eq_nil_iff.mp hnil, List.length_nil] at hlength
      omega
    · obtain ⟨c, hc, rfl⟩ := List.mem_map.mp hb
      exact isDigit_byte (hdigits c hc)
  have := value_number negative (units / 10 ^ places) hfraction (by rintro b ⟨⟩; decide) hrest
  have hunits : ((digitsValue (JsonText.decimal (units / 10 ^ places) ++
      (padded places (units % 10 ^ places)).map byte) : ℕ) : ℚ) = units := by
    rw [digitsValue_append, digitsValue_decimal, digitsValue_byte hdigits, ofDigitChars_padded,
      List.length_map, hlength, Nat.mul_comm, Nat.div_add_mod]
  rw [hunits, List.length_map, hlength, zpow_neg, zpow_natCast, ← div_eq_mul_inv] at this
  simpa [JsonText.fixedPoint] using this

end JsonText
