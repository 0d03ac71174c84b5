import EggVision.Lib.JsonString
import Mathlib.Algebra.Order.Field.Rat

/-!
# Texts of JSON

A reader for all of JSON, byte by byte, and the texts it reads. Every function of the reader takes
what is left of the text and returns a value with what is left behind it; white space is skipped
where JSON allows it. The reader recurses on an amount of fuel, and the amount that `value`,
`members` and `elements` give it is enough: they satisfy the equations of a reader without fuel.

What a text is read as may be nothing, and the rules that build texts from texts carry that along:
if one value of an object is no JSON, the object is none.

## Main definitions

* `Json`
* `readValue`, `readMembers`, `readElements`; `value`, `members`, `elements`, `document`
* `Reads text result` — where a value is expected, the text is read as the result or as nothing

## Main results

* `value_object`, `value_array`, `members_eq`, `elements_eq` — the reader without fuel
* `Reads.object`, `Reads.array`, `ReadsMembers.cons`, `ReadsElements.cons` — how texts are built
-/

namespace JsonText

open JsonString

inductive Json
  | null
  | bool (value : Bool)
  | number (value : ℚ)
  | string (value : Bytes)
  | array (items : List Json)
  | object (members : List (Bytes × Json))

/-! ### Scalars -/

def isSpace (b : UInt8) : Bool := b = 0x20 || b = 0x09 || b = 0x0A || b = 0x0D

def skip (text : Bytes) : Bytes := text.dropWhile isSpace

def isDigit (b : UInt8) : Bool := decide (byte '0' ≤ b) && decide (b ≤ byte '9')

/-- The number that digits write. -/
def digitsValue (digits : Bytes) : ℕ := digits.foldl (fun n b => n * 10 + (b.toNat - 48)) 0

/-- One digit or more, and what follows. -/
def readDigits (text : Bytes) : Option (Bytes × Bytes) :=
  let digits := text.takeWhile isDigit
  if digits = [] then none else some (digits, text.dropWhile isDigit)

/-- A sign that may be missing. -/
def readSign (plus : Bool) : Bytes → Bool × Bytes
  | [] => (false, [])
  | b :: rest =>
    if b = byte '-' then (true, rest)
    else if plus && b = byte '+' then (false, rest)
    else (false, b :: rest)

/-- A point with digits behind it, or nothing. -/
def readFraction : Bytes → Option (Bytes × Bytes)
  | [] => some ([], [])
  | b :: rest => if b = byte '.' then readDigits rest else some ([], b :: rest)

/-- A power of ten, or nothing. -/
def readExponent : Bytes → Option (ℤ × Bytes)
  | [] => some (0, [])
  | b :: rest =>
    if b = byte 'e' ∨ b = byte 'E' then
      (readDigits (readSign true rest).2).map fun (digits, after) =>
        (if (readSign true rest).1 then -(digitsValue digits : ℤ) else digitsValue digits, after)
    else some (0, b :: rest)

/-- A number, with no zero in front of it. -/
def readNumber (text : Bytes) : Option (ℚ × Bytes) :=
  (readDigits (readSign false text).2).bind fun (whole, rest) =>
    if 1 < whole.length ∧ whole.head? = some (byte '0') then none
    else
      (readFraction rest).bind fun (fraction, rest) =>
        (readExponent rest).map fun (exponent, rest) =>
          let magnitude : ℚ := digitsValue (whole ++ fraction) * 10 ^ (exponent - fraction.length)
          (if (readSign false text).1 then -magnitude else magnitude, rest)

def readWord (word : Bytes) (json : Json) (text : Bytes) : Option (Json × Bytes) :=
  if word <+: text then some (json, text.drop word.length) else none

/-- A value that begins with neither a bracket nor a quotation mark. -/
def readScalar (text : Bytes) : Option (Json × Bytes) :=
  if text.head? = some (byte 'n') then readWord ("null".toList.map byte) .null text
  else if text.head? = some (byte 't') then readWord ("true".toList.map byte) (.bool true) text
  else if text.head? = some (byte 'f') then readWord ("false".toList.map byte) (.bool false) text
  else (readNumber text).map fun (n, rest) => (.number n, rest)

/-! ### The reader -/

/-- One byte, behind white space. -/
def expect (b : UInt8) (text : Bytes) : Option Bytes :=
  match skip text with
  | [] => none
  | c :: rest => if c = b then some rest else none

/-- The key of a member, and its colon. -/
def readKey (text : Bytes) : Option (Bytes × Bytes) :=
  (expect quote text).bind fun rest =>
    (readBody rest).bind fun (key, rest) =>
      (expect (byte ':') rest).map fun rest => (key, rest)

/-- A comma, or the end. -/
def readSeparator (close : UInt8) (text : Bytes) : Option (Bool × Bytes) :=
  match skip text with
  | [] => none
  | c :: rest =>
    if c = byte ',' then some (true, rest) else if c = close then some (false, rest) else none

mutual

def readValue : ℕ → Bytes → Option (Json × Bytes)
  | 0, _ => none
  | fuel + 1, text =>
    match skip text with
    | [] => none
    | b :: rest =>
      if b = byte '{' then
        match expect (byte '}') rest with
        | some rest => some (.object [], rest)
        | none => (readMembers fuel rest).map fun (members, rest) => (.object members, rest)
      else if b = byte '[' then
        match expect (byte ']') rest with
        | some rest => some (.array [], rest)
        | none => (readElements fuel rest).map fun (items, rest) => (.array items, rest)
      else if b = quote then (readBody rest).map fun (string, rest) => (.string string, rest)
      else readScalar (b :: rest)

/-- Members up to the closing brace. -/
def readMembers : ℕ → Bytes → Option (List (Bytes × Json) × Bytes)
  | 0, _ => none
  | fuel + 1, text =>
    (readKey text).bind fun (key, rest) =>
      (readValue fuel rest).bind fun (json, rest) =>
        (readSeparator (byte '}') rest).bind fun (more, rest) =>
          if more then
            (readMembers fuel rest).map fun (members, rest) => ((key, json) :: members, rest)
          else some ([(key, json)], rest)

/-- Items up to the closing bracket. -/
def readElements : ℕ → Bytes → Option (List Json × Bytes)
  | 0, _ => none
  | fuel + 1, text =>
    (readValue fuel text).bind fun (json, rest) =>
      (readSeparator (byte ']') rest).bind fun (more, rest) =>
        if more then (readElements fuel rest).map fun (items, rest) => (json :: items, rest)
        else some ([json], rest)

end

/-! ### What is left is shorter -/

theorem skip_length (text : Bytes) : (skip text).length ≤ text.length :=
  (List.dropWhile_suffix _).length_le

theorem expect_length {b : UInt8} {text rest : Bytes} (h : expect b text = some rest) :
    rest.length < text.length := by
  unfold expect at h
  have hskip := skip_length text
  split at h
  · cases h
  next heq =>
    rw [heq, List.length_cons] at hskip
    split at h
    · cases h
      omega
    · cases h

theorem readSeparator_length {close : UInt8} {text rest : Bytes} {more : Bool}
    (h : readSeparator close text = some (more, rest)) : rest.length < text.length := by
  unfold readSeparator at h
  have hskip := skip_length text
  split at h
  · cases h
  next heq =>
    rw [heq, List.length_cons] at hskip
    split_ifs at h <;> cases h <;> omega

theorem readBody_length (text : Bytes) :
    ∀ {body rest : Bytes}, readBody text = some (body, rest) → rest.length < text.length := by
  induction text using readBody.induct with
  | case1 =>
    intro body rest h
    simp [readBody] at h
  | case2 tail =>
    intro body rest h
    rw [readBody_quote] at h
    cases h
    exact Nat.lt_succ_self _
  | case3 tail hnone _ =>
    intro body rest h
    rw [readBody, if_neg (by decide), if_pos rfl] at h
    split at h
    · cases h
    next hsome => rw [hnone] at hsome; cases hsome
  | case4 tail bytes after hescape hlt _ ih =>
    intro body rest h
    rw [readBody_escape hescape] at h
    obtain ⟨⟨decoded, more⟩, hbody, heq⟩ := Option.map_eq_some_iff.mp h
    cases heq
    have := ih hbody
    simp only [List.length_cons]
    omega
  | case5 b tail hquote hbackslash hcontrol =>
    intro body rest h
    rw [readBody, if_neg hquote, if_neg hbackslash, if_pos hcontrol] at h
    cases h
  | case6 b tail hquote hbackslash hcontrol ih =>
    intro body rest h
    rw [readBody_plain hquote hbackslash hcontrol] at h
    obtain ⟨⟨decoded, more⟩, hbody, heq⟩ := Option.map_eq_some_iff.mp h
    cases heq
    have := ih hbody
    simp only [List.length_cons]
    omega

theorem readKey_length {text key rest : Bytes} (h : readKey text = some (key, rest)) :
    rest.length < text.length := by
  obtain ⟨after, hquote, h⟩ := Option.bind_eq_some_iff.mp h
  obtain ⟨⟨key', behind⟩, hbody, h⟩ := Option.bind_eq_some_iff.mp h
  obtain ⟨last, hcolon, heq⟩ := Option.map_eq_some_iff.mp h
  cases heq
  have h₁ := expect_length hquote
  have h₂ := readBody_length after hbody
  have h₃ := expect_length hcolon
  omega

theorem readDigits_length {text digits rest : Bytes} (h : readDigits text = some (digits, rest)) :
    rest.length < text.length := by
  unfold readDigits at h
  dsimp only at h
  split at h
  · cases h
  next hne =>
    cases h
    have := congrArg List.length (List.takeWhile_append_dropWhile (p := isDigit) (l := text))
    rw [List.length_append] at this
    have := List.length_pos_iff.mpr hne
    omega

theorem readSign_length (plus : Bool) (text : Bytes) :
    (readSign plus text).2.length ≤ text.length := by
  unfold readSign
  split
  · exact Nat.le_refl _
  · split_ifs <;> simp

theorem readFraction_length {text fraction rest : Bytes}
    (h : readFraction text = some (fraction, rest)) : rest.length ≤ text.length := by
  unfold readFraction at h
  split at h
  · cases h
    exact Nat.le_refl _
  · split at h
    · have := readDigits_length h
      simp only [List.length_cons]
      omega
    · cases h
      exact Nat.le_refl _

theorem readExponent_length {text rest : Bytes} {exponent : ℤ}
    (h : readExponent text = some (exponent, rest)) : rest.length ≤ text.length := by
  unfold readExponent at h
  split at h
  · cases h
    exact Nat.le_refl _
  next b tail =>
    split at h
    · simp only [Option.map_eq_some_iff, Prod.mk.injEq, Prod.exists] at h
      obtain ⟨digits, after, hdigits, -, rfl⟩ := h
      have h₁ := readSign_length true tail
      have h₂ := readDigits_length hdigits
      simp only [List.length_cons]
      omega
    · cases h
      exact Nat.le_refl _

theorem readNumber_length {text rest : Bytes} {n : ℚ} (h : readNumber text = some (n, rest)) :
    rest.length < text.length := by
  obtain ⟨⟨whole, after⟩, hwhole, h⟩ := Option.bind_eq_some_iff.mp h
  dsimp only at h
  split at h
  · cases h
  · obtain ⟨⟨fraction, behind⟩, hfraction, h⟩ := Option.bind_eq_some_iff.mp h
    simp only [Option.map_eq_some_iff, Prod.mk.injEq, Prod.exists] at h
    obtain ⟨exponent, last, hexponent, -, rfl⟩ := h
    have h₁ := readSign_length false text
    have h₂ := readDigits_length hwhole
    have h₃ := readFraction_length hfraction
    have h₄ := readExponent_length hexponent
    omega

theorem readScalar_length {text rest : Bytes} {json : Json}
    (h : readScalar text = some (json, rest)) : rest.length < text.length := by
  have hword : ∀ {word : Bytes} {json' : Json}, word ≠ [] →
      readWord word json' text = some (json, rest) → rest.length < text.length := by
    intro word json' hne h
    unfold readWord at h
    split at h
    next hprefix =>
      cases h
      have := hprefix.length_le
      have := List.length_pos_iff.mpr hne
      rw [List.length_drop]
      omega
    · cases h
  unfold readScalar at h
  split_ifs at h
  · exact hword (by decide) h
  · exact hword (by decide) h
  · exact hword (by decide) h
  · simp only [Option.map_eq_some_iff, Prod.mk.injEq, Prod.exists] at h
    obtain ⟨n, after, hnumber, -, rfl⟩ := h
    exact readNumber_length hnumber

/-- Whatever is read takes something of the text. -/
theorem read_length (fuel : ℕ) :
    (∀ {text rest : Bytes} {json : Json}, readValue fuel text = some (json, rest) →
        rest.length < text.length) ∧
      (∀ {text rest : Bytes} {members : List (Bytes × Json)},
        readMembers fuel text = some (members, rest) → rest.length < text.length) ∧
      ∀ {text rest : Bytes} {items : List Json}, readElements fuel text = some (items, rest) →
        rest.length < text.length := by
  induction fuel with
  | zero => exact ⟨by rintro _ _ _ ⟨⟩, by rintro _ _ _ ⟨⟩, by rintro _ _ _ ⟨⟩⟩
  | succ fuel ih =>
    obtain ⟨hvalue, hmembers, helements⟩ := ih
    refine ⟨?_, ?_, ?_⟩
    · intro text rest json h
      have hskip := skip_length text
      simp only [readValue] at h
      split at h
      · cases h
      next b tail heq =>
        rw [heq, List.length_cons] at hskip
        split_ifs at h
        · split at h
          next hclose =>
            cases h
            have := expect_length hclose
            omega
          next =>
            simp only [Option.map_eq_some_iff, Prod.mk.injEq, Prod.exists] at h
            obtain ⟨members, after, hread, -, rfl⟩ := h
            have := hmembers hread
            omega
        · split at h
          next hclose =>
            cases h
            have := expect_length hclose
            omega
          next =>
            simp only [Option.map_eq_some_iff, Prod.mk.injEq, Prod.exists] at h
            obtain ⟨items, after, hread, -, rfl⟩ := h
            have := helements hread
            omega
        · simp only [Option.map_eq_some_iff, Prod.mk.injEq, Prod.exists] at h
          obtain ⟨string, after, hread, -, rfl⟩ := h
          have := readBody_length tail hread
          omega
        · have := readScalar_length h
          simp only [List.length_cons] at this
          omega
    · intro text rest members h
      obtain ⟨⟨key, after⟩, hkey, h⟩ := Option.bind_eq_some_iff.mp h
      obtain ⟨⟨json, behind⟩, hjson, h⟩ := Option.bind_eq_some_iff.mp h
      obtain ⟨⟨more, last⟩, hmore, h⟩ := Option.bind_eq_some_iff.mp h
      have h₁ := readKey_length hkey
      have h₂ := hvalue hjson
      have h₃ := readSeparator_length hmore
      dsimp only at h
      split at h
      · simp only [Option.map_eq_some_iff, Prod.mk.injEq, Prod.exists] at h
        obtain ⟨others, end', hread, -, rfl⟩ := h
        have := hmembers hread
        omega
      · cases h
        omega
    · intro text rest items h
      obtain ⟨⟨json, behind⟩, hjson, h⟩ := Option.bind_eq_some_iff.mp h
      obtain ⟨⟨more, last⟩, hmore, h⟩ := Option.bind_eq_some_iff.mp h
      have h₂ := hvalue hjson
      have h₃ := readSeparator_length hmore
      dsimp only at h
      split at h
      · simp only [Option.map_eq_some_iff, Prod.mk.injEq, Prod.exists] at h
        obtain ⟨others, end', hread, -, rfl⟩ := h
        have := helements hread
        omega
      · cases h
        omega

/-! ### How much fuel is enough -/

/-- Two amounts of fuel that are enough read the same. -/
theorem read_fuel (fuel : ℕ) : ∀ fuel',
    (∀ text : Bytes, 2 * text.length ≤ fuel → 2 * text.length ≤ fuel' →
        readValue fuel text = readValue fuel' text) ∧
      (∀ text : Bytes, 2 * text.length ≤ fuel → 2 * text.length ≤ fuel' →
        readMembers fuel text = readMembers fuel' text) ∧
      ∀ text : Bytes, 2 * text.length < fuel → 2 * text.length < fuel' →
        readElements fuel text = readElements fuel' text := by
  have hvalueNil : ∀ fuel, readValue fuel [] = none := by
    rintro (_ | fuel) <;> rfl
  have hmembersNil : ∀ fuel, readMembers fuel [] = none := by
    rintro (_ | fuel) <;> rfl
  induction fuel with
  | zero =>
    refine fun fuel' => ⟨fun text h _ => ?_, fun text h _ => ?_, fun text h => absurd h (by omega)⟩
    · obtain rfl := List.length_eq_zero_iff.mp (by omega : text.length = 0)
      rw [hvalueNil, hvalueNil]
    · obtain rfl := List.length_eq_zero_iff.mp (by omega : text.length = 0)
      rw [hmembersNil, hmembersNil]
  | succ fuel ih =>
    rintro (_ | fuel')
    · refine ⟨fun text _ h => ?_, fun text _ h => ?_, fun text _ h => absurd h (by omega)⟩
      · obtain rfl := List.length_eq_zero_iff.mp (by omega : text.length = 0)
        rw [hvalueNil, hvalueNil]
      · obtain rfl := List.length_eq_zero_iff.mp (by omega : text.length = 0)
        rw [hmembersNil, hmembersNil]
    · obtain ⟨hvalue, hmembers, helements⟩ := ih fuel'
      refine ⟨fun text h h' => ?_, fun text h h' => ?_, fun text h h' => ?_⟩
      · have hskip := skip_length text
        simp only [readValue]
        split
        · rfl
        next b rest heq =>
          rw [heq, List.length_cons] at hskip
          rw [hmembers rest (by omega) (by omega), helements rest (by omega) (by omega)]
      · simp only [readMembers]
        refine Option.bind_congr fun ⟨key, rest⟩ hkey => ?_
        have hlt := readKey_length hkey
        dsimp only
        rw [hvalue rest (by omega) (by omega)]
        refine Option.bind_congr fun ⟨json, after⟩ hjson => ?_
        have hlt' := (read_length fuel').1 hjson
        refine Option.bind_congr fun ⟨more, last⟩ hmore => ?_
        have hlt'' : last.length < after.length := readSeparator_length hmore
        dsimp only
        rw [hmembers last (by omega) (by omega)]
      · simp only [readElements]
        rw [hvalue text (by omega) (by omega)]
        refine Option.bind_congr fun ⟨json, after⟩ hjson => ?_
        have hlt' := (read_length fuel').1 hjson
        refine Option.bind_congr fun ⟨more, last⟩ hmore => ?_
        have hlt'' : last.length < after.length := readSeparator_length hmore
        dsimp only
        rw [helements last (by omega) (by omega)]

def value (text : Bytes) : Option (Json × Bytes) := readValue (2 * text.length) text

def members (text : Bytes) : Option (List (Bytes × Json) × Bytes) :=
  readMembers (2 * text.length) text

def elements (text : Bytes) : Option (List Json × Bytes) :=
  readElements (2 * text.length + 1) text

/-- A text that is one value and nothing else. -/
def document (text : Bytes) : Option Json :=
  (value text).bind fun (json, rest) => if skip rest = [] then some json else none

theorem readValue_eq {fuel : ℕ} {text : Bytes} (h : 2 * text.length ≤ fuel) :
    readValue fuel text = value text := (read_fuel fuel _).1 text h (Nat.le_refl _)

theorem readMembers_eq {fuel : ℕ} {text : Bytes} (h : 2 * text.length ≤ fuel) :
    readMembers fuel text = members text := (read_fuel fuel _).2.1 text h (Nat.le_refl _)

theorem readElements_eq {fuel : ℕ} {text : Bytes} (h : 2 * text.length < fuel) :
    readElements fuel text = elements text := (read_fuel fuel _).2.2 text h (Nat.lt_succ_self _)

/-- The reader of values, without fuel. -/
theorem value_eq (text : Bytes) : value text =
    match skip text with
    | [] => none
    | b :: rest =>
      if b = byte '{' then
        match expect (byte '}') rest with
        | some rest => some (.object [], rest)
        | none => (members rest).map fun (members, rest) => (.object members, rest)
      else if b = byte '[' then
        match expect (byte ']') rest with
        | some rest => some (.array [], rest)
        | none => (elements rest).map fun (items, rest) => (.array items, rest)
      else if b = quote then (readBody rest).map fun (string, rest) => (.string string, rest)
      else readScalar (b :: rest) := by
  rw [← readValue_eq (Nat.le_succ (2 * text.length))]
  have hskip := skip_length text
  simp only [readValue]
  split
  · rfl
  next b rest heq =>
    rw [heq, List.length_cons] at hskip
    rw [readMembers_eq (by omega), readElements_eq (by omega)]

theorem members_eq (text : Bytes) : members text =
    (readKey text).bind fun (key, rest) =>
      (value rest).bind fun (json, rest) =>
        (readSeparator (byte '}') rest).bind fun (more, rest) =>
          if more then (members rest).map fun (members, rest) => ((key, json) :: members, rest)
          else some ([(key, json)], rest) := by
  rw [← readMembers_eq (Nat.le_succ (2 * text.length))]
  simp only [readMembers]
  refine Option.bind_congr fun ⟨key, rest⟩ hkey => ?_
  have hlt := readKey_length hkey
  dsimp only
  rw [readValue_eq (by omega)]
  refine Option.bind_congr fun ⟨json, after⟩ hjson => ?_
  have hlt' := (read_length _).1 hjson
  refine Option.bind_congr fun ⟨more, last⟩ hmore => ?_
  have hlt'' : last.length < after.length := readSeparator_length hmore
  dsimp only
  rw [readMembers_eq (by omega)]

theorem elements_eq (text : Bytes) : elements text =
    (value text).bind fun (json, rest) =>
      (readSeparator (byte ']') rest).bind fun (more, rest) =>
        if more then (elements rest).map fun (items, rest) => (json :: items, rest)
        else some ([json], rest) := by
  rw [← readElements_eq (Nat.lt_succ_self (2 * text.length))]
  simp only [readElements]
  rw [readValue_eq (Nat.le_refl _)]
  refine Option.bind_congr fun ⟨json, after⟩ hjson => ?_
  have hlt' := (read_length _).1 hjson
  refine Option.bind_congr fun ⟨more, last⟩ hmore => ?_
  have hlt'' : last.length < after.length := readSeparator_length hmore
  dsimp only
  rw [readElements_eq (by omega)]

/-! ### Texts that are read -/

/-- What may follow a value. -/
def Stops (rest : Bytes) : Prop :=
  ∀ b ∈ rest.head?, isSpace b = true ∨ b = byte ',' ∨ b = byte '}' ∨ b = byte ']'

/-- Where a value is expected, the text is read as the result, or as nothing. -/
def Reads (text : Bytes) (result : Option Json) : Prop :=
  ∀ rest, Stops rest → value (text ++ rest) = result.map fun json => (json, rest)

/-- Members with their closing brace. -/
structure ReadsMembers (text : Bytes) (result : Option (List (Bytes × Json))) : Prop where
  opens : ∀ rest, expect (byte '}') (text ++ rest) = none
  reads : ∀ rest, members (text ++ rest) = result.map fun members => (members, rest)

/-- Items with their closing bracket. -/
structure ReadsElements (text : Bytes) (result : Option (List Json)) : Prop where
  opens : ∀ rest, expect (byte ']') (text ++ rest) = none
  reads : ∀ rest, elements (text ++ rest) = result.map fun items => (items, rest)

/-- Between quotation marks, the text is read as the string. -/
def Spells (body string : Bytes) : Prop :=
  ∀ rest, readBody (body ++ quote :: rest) = some (string, rest)

def Blank (lead : Bytes) : Prop := ∀ b ∈ lead, isSpace b = true

instance (lead : Bytes) : Decidable (Blank lead) :=
  List.decidableBAll (fun b => isSpace b = true) lead

theorem skip_blank {lead : Bytes} (h : Blank lead) (text : Bytes) :
    skip (lead ++ text) = skip text :=
  List.dropWhile_append_of_pos h

theorem skip_cons {b : UInt8} (h : isSpace b = false) (text : Bytes) :
    skip (b :: text) = b :: text := by
  rw [skip, List.dropWhile_cons_of_neg (by simp [h])]

theorem Stops.blank {lead rest : Bytes} (h : Blank lead) (hrest : Stops rest) :
    Stops (lead ++ rest) := by
  cases lead with
  | nil => exact hrest
  | cons b lead =>
    rintro c ⟨⟩
    exact Or.inl (h b List.mem_cons_self)

theorem Stops.nil : Stops [] := by
  intro b hb
  simp at hb

theorem Stops.comma (rest : Bytes) : Stops (byte ',' :: rest) := by
  rintro b ⟨⟩
  exact Or.inr (Or.inl rfl)

theorem Stops.brace (rest : Bytes) : Stops (byte '}' :: rest) := by
  rintro b ⟨⟩
  exact Or.inr (Or.inr (Or.inl rfl))

theorem Stops.bracket (rest : Bytes) : Stops (byte ']' :: rest) := by
  rintro b ⟨⟩
  exact Or.inr (Or.inr (Or.inr rfl))

section

variable {text more lead trail body content : Bytes} {result : Option Json}

theorem Reads.of_eq {result' : Option Json} (h : Reads text result) (heq : result = result') :
    Reads text result' := heq ▸ h

theorem Reads.blank (h : Reads text result) (hlead : Blank lead) : Reads (lead ++ text) result := by
  intro rest hrest
  rw [← h rest hrest, List.append_assoc, value_eq, skip_blank hlead, ← value_eq]

/-- The text of a value, with white space behind it. -/
theorem Reads.document (h : Reads text result) (htrail : Blank trail) :
    document (text ++ trail) = result := by
  rw [JsonText.document, h trail (by simpa using Stops.blank htrail Stops.nil)]
  cases result with
  | none => rfl
  | some json =>
    have hskip := skip_blank htrail []
    rw [List.append_nil] at hskip
    simp only [Option.map_some, Option.bind_some, hskip]
    rfl

/-! ### Strings -/

theorem Reads.string (h : Spells body content) :
    Reads (quote :: (body ++ [quote])) (some (.string content)) := by
  intro rest _
  rw [value_eq, List.cons_append, skip_cons (by decide)]
  dsimp only
  rw [if_neg (by decide), if_neg (by decide), if_pos rfl, List.append_assoc, List.singleton_append,
    h rest]
  rfl

/-- Bytes that mean themselves. -/
theorem Spells.plain (h : ∀ b ∈ body, b ≠ quote ∧ b ≠ backslash ∧ ¬ b < 0x20) :
    Spells body body := by
  intro rest
  induction body with
  | nil => exact readBody_quote rest
  | cons b body ih =>
    obtain ⟨hquote, hbackslash, hcontrol⟩ := h b List.mem_cons_self
    rw [List.cons_append, readBody_plain hquote hbackslash hcontrol,
      ih fun c hc => h c (List.mem_cons_of_mem _ hc)]
    rfl

/-! ### Objects -/

/-- One member: its key, and the text of its value. -/
def member (lead key text : Bytes) : Bytes :=
  lead ++ quote :: (key ++ quote :: byte ':' :: text)

variable {key : Bytes}

theorem expect_of_skip {b c : UInt8} (h : skip text = b :: more) :
    expect c text = if b = c then some more else none := by
  unfold expect
  rw [h]

theorem readKey_member (hlead : Blank lead) (hkey : Spells body key) (rest : Bytes) :
    readKey (member lead body text ++ rest) = some (key, text ++ rest) := by
  have hskip : skip (member lead body text ++ rest) =
      quote :: (body ++ quote :: byte ':' :: (text ++ rest)) := by
    simp only [member, List.append_assoc, List.cons_append]
    rw [skip_blank hlead, skip_cons (by decide)]
  rw [readKey, expect_of_skip hskip, if_pos rfl, Option.bind_some, hkey, Option.bind_some]
  dsimp only
  rw [expect_of_skip (skip_cons (by decide) _), if_pos rfl]
  rfl

theorem expect_member (hlead : Blank lead) (rest : Bytes) :
    expect (byte '}') (member lead body text ++ rest) = none := by
  have hskip : skip (member lead body text ++ rest) =
      quote :: (body ++ quote :: byte ':' :: (text ++ rest)) := by
    simp only [member, List.append_assoc, List.cons_append]
    rw [skip_blank hlead, skip_cons (by decide)]
  rw [expect_of_skip hskip, if_neg (by decide)]

theorem ReadsMembers.last (hlead : Blank lead) (hkey : Spells body key) (h : Reads text result)
    (htrail : Blank trail) :
    ReadsMembers (member lead body text ++ (trail ++ [byte '}']))
      (result.map fun json => [(key, json)]) := by
  refine ⟨fun rest => ?_, fun rest => ?_⟩
  · rw [List.append_assoc]
    exact expect_member hlead _
  · rw [List.append_assoc, members_eq, readKey_member hlead hkey, Option.bind_some]
    dsimp only
    rw [h _ (by simpa using Stops.blank htrail (Stops.brace rest))]
    cases result with
    | none => rfl
    | some json =>
      have hskip : skip (trail ++ [byte '}'] ++ rest) = byte '}' :: rest := by
        rw [List.append_assoc, skip_blank htrail]
        exact skip_cons (by decide) _
      simp only [Option.map_some, Option.bind_some, readSeparator, hskip]
      rfl

theorem ReadsMembers.cons {others : Option (List (Bytes × Json))} (hlead : Blank lead)
    (hkey : Spells body key) (h : Reads text result) (hmore : ReadsMembers more others) :
    ReadsMembers (member lead body text ++ byte ',' :: more)
      (result.bind fun json => others.map fun members => (key, json) :: members) := by
  refine ⟨fun rest => ?_, fun rest => ?_⟩
  · rw [List.append_assoc]
    exact expect_member hlead _
  · rw [List.append_assoc, members_eq, readKey_member hlead hkey, Option.bind_some]
    dsimp only [List.cons_append]
    rw [h _ (Stops.comma _)]
    cases result with
    | none => rfl
    | some json =>
      have hskip : skip (byte ',' :: (more ++ rest)) = byte ',' :: (more ++ rest) :=
        skip_cons (by decide) _
      simp only [Option.map_some, Option.bind_some, readSeparator, hskip, if_pos]
      rw [hmore.reads]
      cases others <;> rfl

theorem Reads.object {others : Option (List (Bytes × Json))} (h : ReadsMembers text others) :
    Reads (byte '{' :: text) (others.map .object) := by
  intro rest _
  rw [value_eq, List.cons_append, skip_cons (by decide)]
  dsimp only
  rw [if_pos rfl, h.opens, h.reads]
  cases others <;> rfl

/-! ### Arrays -/

theorem Reads.emptyArray : Reads [byte '[', byte ']'] (some (.array [])) := by
  intro rest _
  rw [value_eq, List.cons_append, skip_cons (by decide)]
  dsimp only
  rw [if_neg (by decide), if_pos rfl, List.singleton_append,
    expect_of_skip (skip_cons (by decide) _), if_pos rfl]
  rfl

theorem ReadsElements.last (hopens : ∀ rest, expect (byte ']') (text ++ rest) = none)
    (h : Reads text result) (htrail : Blank trail) :
    ReadsElements (text ++ (trail ++ [byte ']'])) (result.map fun json => [json]) := by
  refine ⟨fun rest => ?_, fun rest => ?_⟩
  · rw [List.append_assoc]
    exact hopens _
  · rw [List.append_assoc, elements_eq,
      h _ (by simpa using Stops.blank htrail (Stops.bracket rest))]
    cases result with
    | none => rfl
    | some json =>
      have hskip : skip (trail ++ [byte ']'] ++ rest) = byte ']' :: rest := by
        rw [List.append_assoc, skip_blank htrail]
        exact skip_cons (by decide) _
      simp only [Option.map_some, Option.bind_some, readSeparator, hskip]
      rfl

theorem ReadsElements.cons {others : Option (List Json)}
    (hopens : ∀ rest, expect (byte ']') (text ++ rest) = none) (h : Reads text result)
    (hmore : ReadsElements more others) :
    ReadsElements (text ++ byte ',' :: more)
      (result.bind fun json => others.map fun items => json :: items) := by
  refine ⟨fun rest => ?_, fun rest => ?_⟩
  · rw [List.append_assoc]
    exact hopens _
  · rw [List.append_assoc, elements_eq, List.cons_append, h _ (Stops.comma _)]
    cases result with
    | none => rfl
    | some json =>
      have hskip : skip (byte ',' :: (more ++ rest)) = byte ',' :: (more ++ rest) :=
        skip_cons (by decide) _
      simp only [Option.map_some, Option.bind_some, readSeparator, hskip, if_pos]
      rw [hmore.reads]
      cases others <;> rfl

theorem Reads.array {others : Option (List Json)} (h : ReadsElements text others) :
    Reads (byte '[' :: text) (others.map .array) := by
  intro rest _
  rw [value_eq, List.cons_append, skip_cons (by decide)]
  dsimp only
  rw [if_neg (by decide), if_pos rfl, h.opens, h.reads]
  cases others <;> rfl

/-! ### Layouts -/

/-- The text of an object: what stands before its first member, before any other, before a value,
and before its closing brace, and its keys with the texts of their values. -/
def objectText (first lead gap trail : Bytes) : List (Bytes × Bytes) → Bytes
  | [] => byte '{' :: (trail ++ [byte '}'])
  | field :: fields =>
    byte '{' :: (member first field.1 (gap ++ field.2) ++
      (fields.flatMap (fun field => byte ',' :: member lead field.1 (gap ++ field.2)) ++
        (trail ++ [byte '}'])))

/-- The text of an array, likewise. -/
def arrayText (first lead trail : Bytes) : List Bytes → Bytes
  | [] => [byte '[', byte ']']
  | item :: items =>
    byte '[' :: (first ++ item ++
      (items.flatMap (fun item => byte ',' :: (lead ++ item)) ++ (trail ++ [byte ']'])))

/-- The members of an object, if all of them are read. -/
def allMembers : List (Bytes × Option Json) → Option (List (Bytes × Json))
  | [] => some []
  | (key, result) :: results =>
    result.bind fun json => (allMembers results).map fun members => (key, json) :: members

/-- The items of an array, if all of them are read. -/
def allItems : List (Option Json) → Option (List Json)
  | [] => some []
  | result :: results =>
    result.bind fun json => (allItems results).map fun items => json :: items

/-- The text of a member is read as the member. -/
def ReadsField (field : Bytes × Bytes) (result : Bytes × Option Json) : Prop :=
  Spells field.1 result.1 ∧ Reads field.2 result.2

theorem Reads.objectText {first lead gap trail : Bytes} {field : Bytes × Bytes}
    {fields : List (Bytes × Bytes)} {results : List (Bytes × Option Json)} (hfirst : Blank first)
    (hlead : Blank lead) (hgap : Blank gap) (htrail : Blank trail)
    (h : List.Forall₂ ReadsField (field :: fields) results) :
    Reads (objectText first lead gap trail (field :: fields))
      ((allMembers results).map .object) := by
  refine Reads.object ?_
  induction fields generalizing first field results with
  | nil =>
    obtain _ | ⟨⟨hkey, hvalue⟩, _ | _⟩ := h
    rename_i result
    have hlast := ReadsMembers.last hfirst hkey (hvalue.blank hgap) htrail
    obtain ⟨key, _ | json⟩ := result <;> exact hlast
  | cons next fields ih =>
    obtain _ | ⟨⟨hkey, hvalue⟩, hfields⟩ := h
    rename_i result results
    obtain ⟨key, result⟩ := result
    have hcons := ReadsMembers.cons hfirst hkey (hvalue.blank hgap) (ih hlead hfields)
    simpa only [allMembers, List.flatMap_cons, List.append_assoc, List.cons_append] using hcons

/-- Neither blank nor a bracket that closes. -/
def OpensItem (text : Bytes) : Prop :=
  ∃ b ∈ text.head?, isSpace b = false ∧ b ≠ byte ']'

theorem OpensItem.expect (h : OpensItem text) (hlead : Blank lead) (rest : Bytes) :
    expect (byte ']') (lead ++ text ++ rest) = none := by
  obtain ⟨b, hb, hspace, hclose⟩ := h
  obtain ⟨tail, rfl⟩ := List.head?_eq_some_iff.mp hb
  have hskip : skip (lead ++ b :: tail ++ rest) = b :: (tail ++ rest) := by
    rw [List.append_assoc, skip_blank hlead, List.cons_append, skip_cons hspace]
  rw [expect_of_skip hskip, if_neg hclose]

theorem ReadsElements.items {first lead trail item : Bytes} {items : List Bytes}
    {result : Option Json} {results : List (Option Json)} (hfirst : Blank first)
    (hlead : Blank lead) (htrail : Blank trail) (hopens : ∀ text ∈ item :: items, OpensItem text)
    (h : List.Forall₂ Reads (item :: items) (result :: results)) :
    ReadsElements (first ++ item ++
        (items.flatMap (fun item => byte ',' :: (lead ++ item)) ++ (trail ++ [byte ']'])))
      (allItems (result :: results)) := by
  induction items generalizing first item result results with
  | nil =>
    obtain _ | ⟨hitem, _ | _⟩ := h
    have hlast := ReadsElements.last ((hopens item (by simp)).expect hfirst) (hitem.blank hfirst)
      htrail
    obtain _ | json := result <;> exact hlast
  | cons next items ih =>
    obtain _ | ⟨hitem, hitems⟩ := h
    obtain _ | ⟨hnext, hitems⟩ := hitems
    have hmore := ih hlead (fun text htext => hopens text (List.mem_cons_of_mem _ htext))
      (.cons hnext hitems)
    have hcons := ReadsElements.cons ((hopens item (by simp)).expect hfirst) (hitem.blank hfirst)
      hmore
    simpa only [allItems, List.flatMap_cons, List.append_assoc, List.cons_append] using hcons

theorem Reads.arrayText {first lead trail : Bytes} {items : List Bytes}
    {results : List (Option Json)} (hfirst : Blank first) (hlead : Blank lead)
    (htrail : Blank trail) (hopens : ∀ item ∈ items, OpensItem item)
    (h : List.Forall₂ Reads items results) :
    Reads (arrayText first lead trail items) ((allItems results).map .array) := by
  cases h with
  | nil => exact Reads.emptyArray
  | cons hitem hitems =>
    exact Reads.array (ReadsElements.items hfirst hlead htrail hopens (.cons hitem hitems))

end

end JsonText
