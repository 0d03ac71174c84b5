import Mathlib.Data.Int.Notation
import Mathlib.Data.List.TakeWhile
import Mathlib.Data.Nat.ModEq

/-!
# Numbers as the standard library of C++ reads them

`std::stoul` and its kin skip white space, take a sign, read digits for as long as there are any,
and do not look at what follows. A minus sign is no error for the unsigned ones: the number is
negated modulo `2 ^ 64`.

## Main definitions

* `Plain` — a text that is a number and nothing else
* `value` — the number that digits write
* `stoul`, `stoi` — the conversions; `none` is an exception

## Main results

* `stoul_plain`, `stoul_lt`
-/

namespace DecimalText

/-- `std::isspace` in the C locale. -/
def isSpace (c : Char) : Bool := decide (c.toNat = 32) || decide (9 ≤ c.toNat ∧ c.toNat ≤ 13)

def value (digits : List Char) : ℕ := digits.foldl (fun n c => n * 10 + (c.toNat - 48)) 0

/-- Digits, and nothing else. -/
def Plain (text : List Char) : Prop := text ≠ [] ∧ ∀ c ∈ text, c.isDigit = true

instance (text : List Char) : Decidable (Plain text) :=
  @instDecidableAnd _ _ inferInstance (List.decidableBAll (fun c => c.isDigit = true) text)

/-- The sign, and what follows it. -/
def sign : List Char → Bool × List Char
  | [] => (false, [])
  | c :: rest =>
    if c = '-' then (true, rest) else if c = '+' then (false, rest) else (false, c :: rest)

/-- The sign and the digits that a text begins with after white space. -/
def scan (text : List Char) : Option (Bool × ℕ) :=
  let (negative, rest) := sign (text.dropWhile isSpace)
  let digits := rest.takeWhile Char.isDigit
  if digits.isEmpty then none else some (negative, value digits)

/-- `std::stoul` and `std::stoull`, where both have 64 bits. -/
def stoul (text : String) : Option ℕ :=
  match scan text.toList with
  | none => none
  | some (negative, n) =>
    if 2 ^ 64 ≤ n then none else some (if negative then (2 ^ 64 - n) % 2 ^ 64 else n)

/-- `std::stoi`. -/
def stoi (text : String) : Option ℤ :=
  match scan text.toList with
  | none => none
  | some (negative, n) =>
    let number : ℤ := if negative then -n else n
    if number < -2 ^ 31 ∨ 2 ^ 31 ≤ number then none else some number

theorem isDigit_toNat {c : Char} (h : c.isDigit = true) : 48 ≤ c.toNat ∧ c.toNat ≤ 57 := by
  simp only [Char.isDigit, Bool.and_eq_true, decide_eq_true_eq] at h
  exact ⟨h.1, h.2⟩

theorem scan_plain {text : List Char} (h : Plain text) : scan text = some (false, value text) := by
  obtain ⟨hne, hdigits⟩ := h
  cases text with
  | nil => exact absurd rfl hne
  | cons c rest =>
    obtain ⟨hlo, hhi⟩ := isDigit_toNat (hdigits c (by simp))
    have hspace : isSpace c = false := by
      simp only [isSpace, Bool.or_eq_false_iff, decide_eq_false_iff_not]
      omega
    have hminus : c ≠ '-' := by
      rintro rfl
      exact absurd hlo (by decide)
    have hplus : c ≠ '+' := by
      rintro rfl
      exact absurd hlo (by decide)
    have hall : (c :: rest).takeWhile Char.isDigit = c :: rest :=
      List.takeWhile_eq_self_iff.mpr hdigits
    simp [scan, sign, hspace, hminus, hplus, hall]

/-- A plain number is read as it is written, if it fits. -/
theorem stoul_plain {text : String} (h : Plain text.toList) :
    stoul text = if 2 ^ 64 ≤ value text.toList then none else some (value text.toList) := by
  rw [stoul, scan_plain h]
  rfl

theorem stoul_lt {text : String} {n : ℕ} (h : stoul text = some n) : n < 2 ^ 64 := by
  unfold stoul at h
  split at h
  · cases h
  · split at h
    · cases h
    · cases h
      split <;> omega

end DecimalText
