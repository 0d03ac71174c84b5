import Mathlib.Data.List.Basic

/-!
# Strings of JSON, byte by byte

`readString` reads a string with its quotation marks and decodes its escapes as it goes. It is
strict: a control character, an escape that JSON does not have and a text that ends too early are
refused. Bytes from `0x80` on are taken as they are; the escape of a surrogate is refused.

## Main definitions

* `readEscape`, `readBody`, `readString` — the reader
* `hasBareQuote` — a quotation mark without a backslash of its own
* `EscapeOf` — the escapes of an ASCII byte

## Main results

* `readBody_plain`, `readBody_escape` — one character, or one escape
* `EscapeOf.readBody`, `EscapeOf.printable`, `EscapeOf.hasBareQuote`
-/

namespace JsonString

abbrev Bytes := List UInt8

def quote : UInt8 := 0x22

def backslash : UInt8 := 0x5C

/-- The byte of an ASCII character. -/
def byte (c : Char) : UInt8 := c.toNat.toUInt8

/-! ### Escapes -/

/-- What stands for one byte after a backslash. -/
def simpleEscape (b : UInt8) : Option UInt8 :=
  if b = quote then some quote
  else if b = backslash then some backslash
  else if b = byte '/' then some (byte '/')
  else if b = byte 'b' then some 0x08
  else if b = byte 'f' then some 0x0C
  else if b = byte 'n' then some 0x0A
  else if b = byte 'r' then some 0x0D
  else if b = byte 't' then some 0x09
  else none

def hexValue (b : UInt8) : Option ℕ :=
  if byte '0' ≤ b ∧ b ≤ byte '9' then some (b.toNat - (byte '0').toNat)
  else if byte 'a' ≤ b ∧ b ≤ byte 'f' then some (b.toNat - (byte 'a').toNat + 10)
  else if byte 'A' ≤ b ∧ b ≤ byte 'F' then some (b.toNat - (byte 'A').toNat + 10)
  else none

/-- The bytes of a code point that four hexadecimal digits can name. -/
def utf8 (n : ℕ) : Option Bytes :=
  if n < 0x80 then some [n.toUInt8]
  else if n < 0x800 then some [(0xC0 + n / 0x40).toUInt8, (0x80 + n % 0x40).toUInt8]
  else if 0xD800 ≤ n ∧ n < 0xE000 then none
  else some [(0xE0 + n / 0x1000).toUInt8, (0x80 + n / 0x40 % 0x40).toUInt8,
    (0x80 + n % 0x40).toUInt8]

/-- Four hexadecimal digits, and what follows them. -/
def readHex : Bytes → Option (ℕ × Bytes)
  | a :: b :: c :: d :: rest => do
    let a ← hexValue a
    let b ← hexValue b
    let c ← hexValue c
    let d ← hexValue d
    some (((a * 16 + b) * 16 + c) * 16 + d, rest)
  | _ => none

/-- An escape without its backslash: the bytes it stands for, and what follows. -/
def readEscape : Bytes → Option (Bytes × Bytes)
  | [] => none
  | b :: rest =>
    match simpleEscape b with
    | some c => some ([c], rest)
    | none =>
      if b = byte 'u' then do
        let (n, after) ← readHex rest
        let bytes ← utf8 n
        some (bytes, after)
      else none

theorem readHex_length {l rest : Bytes} {n : ℕ} (h : readHex l = some (n, rest)) :
    rest.length < l.length := by
  unfold readHex at h
  split at h
  · simp only [Option.bind_eq_bind, Option.bind_eq_some_iff, Option.some.injEq,
      Prod.mk.injEq] at h
    obtain ⟨_, -, _, -, _, -, _, -, -, rfl⟩ := h
    simp only [List.length_cons]
    omega
  · cases h

theorem readEscape_length {l bytes rest : Bytes} (h : readEscape l = some (bytes, rest)) :
    rest.length < l.length := by
  cases l with
  | nil => cases h
  | cons b l =>
    simp only [readEscape] at h
    split at h
    · cases h
      exact Nat.lt_succ_self _
    · split at h
      · simp only [Option.bind_eq_bind, Option.bind_eq_some_iff, Option.some.injEq,
          Prod.mk.injEq] at h
        obtain ⟨⟨n, after⟩, hhex, _, -, -, rfl⟩ := h
        exact Nat.lt_succ_of_lt (readHex_length hhex)
      · cases h

/-! ### Strings -/

/-- A string from after its opening mark: what it says, and what follows its closing mark. -/
def readBody : Bytes → Option (Bytes × Bytes)
  | [] => none
  | b :: rest =>
    if b = quote then some ([], rest)
    else if b = backslash then
      match h : readEscape rest with
      | none => none
      | some (bytes, after) =>
        have := readEscape_length h
        (readBody after).map fun (decoded, more) => (bytes ++ decoded, more)
    else if b < 0x20 then none
    else (readBody rest).map fun (decoded, more) => (b :: decoded, more)
termination_by l => l.length
decreasing_by all_goals simp only [List.length_cons]; omega

/-- A string with its marks. -/
def readString : Bytes → Option (Bytes × Bytes)
  | [] => none
  | b :: rest => if b = quote then readBody rest else none

/-- There is a quotation mark that is not part of an escape. -/
def hasBareQuote : Bytes → Bool
  | [] => false
  | b :: rest =>
    if b = backslash then
      match rest with
      | [] => false
      | _ :: rest => hasBareQuote rest
    else decide (b = quote) || hasBareQuote rest

/-! ### One character at a time -/

@[simp] theorem readBody_quote (rest : Bytes) : readBody (quote :: rest) = some ([], rest) := by
  rw [readBody, if_pos rfl]

theorem readBody_plain {b : UInt8} (hquote : b ≠ quote) (hbackslash : b ≠ backslash)
    (hprintable : ¬ b < 0x20) (rest : Bytes) :
    readBody (b :: rest) = (readBody rest).map fun (decoded, more) => (b :: decoded, more) := by
  rw [readBody, if_neg hquote, if_neg hbackslash, if_neg hprintable]

theorem readBody_escape {escape bytes rest : Bytes} (h : readEscape escape = some (bytes, rest)) :
    readBody (backslash :: escape) =
      (readBody rest).map fun (decoded, more) => (bytes ++ decoded, more) := by
  rw [readBody, if_neg (by decide), if_pos rfl]
  split
  next hnone =>
    rw [h] at hnone
    cases hnone
  next bytes' rest' hsome =>
    rw [h] at hsome
    cases hsome
    rfl

theorem readEscape_simple {b c : UInt8} (h : simpleEscape b = some c) (rest : Bytes) :
    readEscape (b :: rest) = some ([c], rest) := by
  simp [readEscape, h]

/-- Four digits that name an ASCII character stand for its byte. -/
theorem readEscape_u {a b c d : UInt8} {i j k l : ℕ} (ha : hexValue a = some i)
    (hb : hexValue b = some j) (hc : hexValue c = some k) (hd : hexValue d = some l)
    (hascii : ((i * 16 + j) * 16 + k) * 16 + l < 0x80) (rest : Bytes) :
    readEscape (byte 'u' :: a :: b :: c :: d :: rest) =
      some ([(((i * 16 + j) * 16 + k) * 16 + l).toUInt8], rest) := by
  have hu : simpleEscape (byte 'u') = none := by decide
  simp [readEscape, hu, readHex, ha, hb, hc, hd, utf8, hascii]

/-! ### Bytes that are escaped -/

/-- The two ways to escape an ASCII byte. -/
inductive EscapeOf (b : UInt8) : Bytes → Prop
  | simple {c : UInt8} : simpleEscape c = some b → EscapeOf b [backslash, c]
  | hex {h₁ h₂ h₃ h₄ : UInt8} {i j k l : ℕ} : hexValue h₁ = some i → hexValue h₂ = some j →
      hexValue h₃ = some k → hexValue h₄ = some l →
      ((i * 16 + j) * 16 + k) * 16 + l = b.toNat → b < 0x80 →
      EscapeOf b [backslash, byte 'u', h₁, h₂, h₃, h₄]

theorem simpleEscape_printable {b c : UInt8} (h : simpleEscape b = some c) : 0x20 ≤ b := by
  unfold simpleEscape at h
  split_ifs at h <;> subst b <;> decide

theorem hexValue_printable {b : UInt8} {n : ℕ} (h : hexValue b = some n) :
    0x20 ≤ b ∧ b ≠ quote ∧ b ≠ backslash := by
  have hrange : 48 ≤ b.toNat ∧ b.toNat ≠ 92 := by
    unfold hexValue at h
    simp only [UInt8.le_iff_toNat_le] at h
    split_ifs at h with hdecimal hlower hupper
    · exact ⟨hdecimal.1, fun heq => absurd hdecimal.2 (by rw [heq]; decide)⟩
    · exact ⟨Nat.le_trans (by decide) hlower.1, fun heq => absurd hlower.1 (by rw [heq]; decide)⟩
    · exact ⟨Nat.le_trans (by decide) hupper.1, fun heq => absurd hupper.2 (by rw [heq]; decide)⟩
  refine ⟨UInt8.le_iff_toNat_le.mpr (Nat.le_trans (by decide) hrange.1), ?_, ?_⟩
  · rintro rfl
    exact absurd hrange.1 (by decide)
  · rintro rfl
    exact hrange.2 rfl

variable {b : UInt8} {text : Bytes}

/-- A reader takes the escape for the byte. -/
theorem EscapeOf.readBody (h : EscapeOf b text) (rest : Bytes) :
    readBody (text ++ rest) =
      (readBody rest).map fun (decoded, more) => (b :: decoded, more) := by
  cases h with
  | simple h => exact readBody_escape (readEscape_simple h rest)
  | hex h₁ h₂ h₃ h₄ hvalue hascii =>
    have hlt : b.toNat < 0x80 := hascii
    have hescape := readEscape_u h₁ h₂ h₃ h₄ (hvalue ▸ hlt) rest
    rw [hvalue, show b.toNat.toUInt8 = b from UInt8.ofNat_toNat] at hescape
    exact readBody_escape hescape

theorem EscapeOf.printable (h : EscapeOf b text) : ∀ c ∈ text, 0x20 ≤ c := by
  cases h with
  | simple h => simpa using ⟨by decide, simpleEscape_printable h⟩
  | hex h₁ h₂ h₃ h₄ =>
    simp only [List.mem_cons, List.not_mem_nil, or_false, forall_eq_or_imp, forall_eq]
    exact ⟨by decide, by decide, (hexValue_printable h₁).1, (hexValue_printable h₂).1,
      (hexValue_printable h₃).1, (hexValue_printable h₄).1⟩

theorem hasBareQuote_plain (hquote : b ≠ quote) (hbackslash : b ≠ backslash) (rest : Bytes) :
    hasBareQuote (b :: rest) = hasBareQuote rest := by
  rw [hasBareQuote.eq_def]
  simp [hquote, hbackslash]

theorem EscapeOf.hasBareQuote (h : EscapeOf b text) (rest : Bytes) :
    hasBareQuote (text ++ rest) = hasBareQuote rest := by
  have hskip : ∀ (c : UInt8) (l : Bytes),
      JsonString.hasBareQuote (backslash :: c :: l) = JsonString.hasBareQuote l := fun c l => by
    rw [JsonString.hasBareQuote.eq_def]
    simp
  cases h with
  | simple h => exact hskip _ rest
  | hex h₁ h₂ h₃ h₄ =>
    simp only [List.cons_append, List.nil_append, hskip]
    rw [hasBareQuote_plain (hexValue_printable h₁).2.1 (hexValue_printable h₁).2.2,
      hasBareQuote_plain (hexValue_printable h₂).2.1 (hexValue_printable h₂).2.2,
      hasBareQuote_plain (hexValue_printable h₃).2.1 (hexValue_printable h₃).2.2,
      hasBareQuote_plain (hexValue_printable h₄).2.1 (hexValue_printable h₄).2.2]

end JsonString
