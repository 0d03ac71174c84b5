import EggVision.Lib.JsonString

/-!
# The strings of `metadata.json`

`jsonEscape` writes to a stream, and the stream remembers how it was told to write numbers. The fill
character that one control character asks for is still there for all that follows; the base is set
back by hand, and the width by whatever is written next. The stream is modelled with these settings,
so that what a character becomes might depend on those before it; that it does not is the invariant
`FormatStream.Ready`.

## Main definitions

* `FormatStream` — `std::ostringstream`, as far as it is used here
* `jsonEscape`

## Main results

* `jsonEscape_eq` — every byte is escaped for itself
* `readString_jsonEscape` — what a reader of JSON finds
-/

namespace EggVision

open JsonString

/-- `std::ostringstream` with the flags that `jsonEscape` sets. -/
structure FormatStream where
  bytes : Bytes := []
  hex : Bool := false
  width : ℕ := 0
  fill : UInt8 := byte ' '
deriving DecidableEq, Repr

namespace FormatStream

/-- `operator<<` for text, padded on the left. It takes the width back. -/
def put (text : Bytes) (stream : FormatStream) : FormatStream :=
  { stream with
    bytes := stream.bytes ++ List.replicate (stream.width - text.length) stream.fill ++ text
    width := 0 }

/-- `operator<<` for an unsigned number, in the base the stream is set to. -/
def putUnsigned (n : ℕ) (stream : FormatStream) : FormatStream :=
  stream.put ((Nat.toDigits (if stream.hex then 16 else 10) n).map byte)

def setHex (stream : FormatStream) : FormatStream := { stream with hex := true }

def setDec (stream : FormatStream) : FormatStream := { stream with hex := false }

def setWidth (width : ℕ) (stream : FormatStream) : FormatStream := { stream with width }

def setFill (fill : UInt8) (stream : FormatStream) : FormatStream := { stream with fill }

end FormatStream

/-- The body of the loop of `jsonEscape`. -/
def escapeByte (result : FormatStream) (character : UInt8) : FormatStream :=
  if character = quote then result.put [backslash, quote]
  else if character = backslash then result.put [backslash, backslash]
  else if character = 0x08 then result.put [backslash, byte 'b']
  else if character = 0x0C then result.put [backslash, byte 'f']
  else if character = 0x0A then result.put [backslash, byte 'n']
  else if character = 0x0D then result.put [backslash, byte 'r']
  else if character = 0x09 then result.put [backslash, byte 't']
  else if character < 0x20 then
    ((((result.put [backslash, byte 'u']).setHex.setWidth 4).setFill (byte '0')).putUnsigned
      character.toNat).setDec
  else result.put [character]

def jsonEscape (value : Bytes) : Bytes := (value.foldl escapeByte {}).bytes

/-! ### One byte -/

/-- Between two characters the base is ten and no width is set; the fill may be any. -/
structure FormatStream.Ready (stream : FormatStream) : Prop where
  hex : stream.hex = false
  width : stream.width = 0

/-- What a byte becomes. -/
def escaped (b : UInt8) : Bytes := (escapeByte {} b).bytes

theorem FormatStream.Ready.put {stream : FormatStream} (h : stream.Ready) (text : Bytes) :
    (stream.put text).Ready ∧ (stream.put text).bytes = stream.bytes ++ text := by
  refine ⟨⟨h.hex, rfl⟩, ?_⟩
  simp [FormatStream.put, h.width]

/-- The stream is given text, the same whatever its settings are, or the character's number. -/
def Writes (b : UInt8) (write : FormatStream → FormatStream) : Prop :=
  (∃ text, ∀ stream, write stream = stream.put text) ∨
    ∀ stream, write stream =
      ((((stream.put [backslash, byte 'u']).setHex.setWidth 4).setFill (byte '0')).putUnsigned
        b.toNat).setDec

theorem Writes.put (b : UInt8) (text : Bytes) : Writes b (FormatStream.put text) :=
  Or.inl ⟨text, fun _ => rfl⟩

theorem Writes.ite {b : UInt8} {p : Prop} [Decidable p] {write write' : FormatStream → FormatStream}
    (h : Writes b write) (h' : Writes b write') :
    Writes b fun stream => if p then write stream else write' stream := by
  by_cases hp : p
  · simpa only [if_pos hp] using h
  · simpa only [if_neg hp] using h'

theorem escapeByte_writes (b : UInt8) : Writes b fun stream => escapeByte stream b := by
  unfold escapeByte
  refine .ite (.put b _) <| .ite (.put b _) <| .ite (.put b _) <| .ite (.put b _) <|
    .ite (.put b _) <| .ite (.put b _) <| .ite (.put b _) <| .ite ?_ (.put b _)
  exact Or.inr fun _ => rfl

/-- A character leaves the stream as it has to be for the next one, and adds to it what it would add
to a new stream. -/
theorem escapeByte_ready {stream : FormatStream} (h : stream.Ready) (b : UInt8) :
    (escapeByte stream b).Ready ∧ (escapeByte stream b).bytes = stream.bytes ++ escaped b := by
  have hnew : FormatStream.Ready {} := ⟨rfl, rfl⟩
  rcases escapeByte_writes b with ⟨text, htext⟩ | hnumber
  · beta_reduce at htext
    rw [escaped, htext, htext, (hnew.put text).2]
    exact h.put text
  · beta_reduce at hnumber
    rw [escaped, hnumber, hnumber]
    refine ⟨⟨rfl, rfl⟩, ?_⟩
    simp [FormatStream.setHex, FormatStream.setWidth, FormatStream.setFill, FormatStream.setDec,
      FormatStream.putUnsigned, FormatStream.put, h.width]

/-- **Every byte is escaped for itself**, whatever came before it. -/
theorem jsonEscape_eq (value : Bytes) : jsonEscape value = value.flatMap escaped := by
  suffices hfrom : ∀ stream : FormatStream, stream.Ready →
      (value.foldl escapeByte stream).bytes = stream.bytes ++ value.flatMap escaped from
    hfrom {} ⟨rfl, rfl⟩
  induction value with
  | nil => simp
  | cons b value ih =>
    intro stream h
    obtain ⟨hready, hbytes⟩ := escapeByte_ready h b
    rw [List.foldl_cons, ih _ hready, hbytes, List.flatMap_cons, List.append_assoc]

/-- A byte is written as it is, or with an escape that stands for it. -/
theorem escaped_cases (b : UInt8) :
    (b ≠ quote ∧ b ≠ backslash ∧ ¬ b < 0x20 ∧ escaped b = [b]) ∨ EscapeOf b (escaped b) := by
  by_cases hquote : b = quote
  · subst hquote
    exact Or.inr (.simple (by decide))
  by_cases hbackslash : b = backslash
  · subst hbackslash
    exact Or.inr (.simple (by decide))
  by_cases hcontrol : b < 0x20
  · refine Or.inr ?_
    have hdigits : ∀ d < 16, hexValue (byte (Nat.digitChar d)) = some d := by decide
    have hshape : ∀ n < 32,
        (∃ c ∈ [byte 'b', byte 'f', byte 'n', byte 'r', byte 't'],
          escaped n.toUInt8 = [backslash, c] ∧ simpleEscape c = some n.toUInt8) ∨
        escaped n.toUInt8 = [backslash, byte 'u', byte '0', byte '0',
          byte (Nat.digitChar (n / 16)), byte (Nat.digitChar (n % 16))] := by decide
    have hlt : b.toNat < 32 := hcontrol
    have hb : b.toNat.toUInt8 = b := UInt8.ofNat_toNat
    have hb' := hshape b.toNat hlt
    rw [hb] at hb'
    rcases hb' with ⟨c, -, hc, hescape⟩ | hhex
    · rw [hc]
      exact .simple hescape
    · rw [hhex]
      exact .hex (hdigits 0 (by decide)) (hdigits 0 (by decide)) (hdigits _ (by omega))
        (hdigits _ (by omega)) (by omega) (UInt8.lt_trans hcontrol (by decide))
  · refine Or.inl ⟨hquote, hbackslash, hcontrol, ?_⟩
    have hplain : ∀ c : UInt8, c < 0x20 → b ≠ c := by
      rintro c hc rfl
      exact hcontrol hc
    rw [escaped, escapeByte, if_neg hquote, if_neg hbackslash, if_neg (hplain _ (by decide)),
      if_neg (hplain _ (by decide)), if_neg (hplain _ (by decide)), if_neg (hplain _ (by decide)),
      if_neg (hplain _ (by decide)), if_neg hcontrol]
    rfl

/-! ### The whole string -/

/-- **JSON escaping round-trips.** For every string, the escaped one has no control character and
no quotation mark of its own; and between quotation marks, whatever follows, a reader of JSON stops
at the second of them and has read the string. -/
theorem readString_jsonEscape (value more : Bytes) :
    (∀ b ∈ jsonEscape value, 0x20 ≤ b) ∧ hasBareQuote (jsonEscape value) = false ∧
      readString (quote :: (jsonEscape value ++ quote :: more)) = some (value, more) := by
  rw [jsonEscape_eq, readString, if_pos rfl]
  induction value with
  | nil => exact ⟨by simp, rfl, readBody_quote more⟩
  | cons b value ih =>
    obtain ⟨hprintable, hbare, hread⟩ := ih
    rw [List.flatMap_cons, List.append_assoc]
    rcases escaped_cases b with ⟨hquote, hbackslash, hcontrol, heq⟩ | hescape
    · rw [heq, List.singleton_append, hasBareQuote_plain hquote hbackslash, List.singleton_append,
        readBody_plain hquote hbackslash hcontrol, hread]
      refine ⟨fun c hc => ?_, hbare, rfl⟩
      rcases List.mem_cons.mp hc with rfl | hc
      · exact UInt8.not_lt.mp hcontrol
      · exact hprintable c hc
    · rw [hescape.hasBareQuote, hescape.readBody, hread]
      refine ⟨fun c hc => ?_, hbare, rfl⟩
      rcases List.mem_append.mp hc with hc | hc
      · exact hescape.printable c hc
      · exact hprintable c hc

end EggVision
