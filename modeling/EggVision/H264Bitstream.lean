import EggVision.Lib.StartCodes

/-!
# Annex B inspection

The encoder learns from the bytes of an access unit whether it can be decoded on its own:
`inspectH264ByteStream` looks for start codes and notes the types of the NAL units behind them. The
pre-roll of an event clip begins at a unit that this scanner called a keyframe, so an IDR it misses
is lost to every clip.

A read is checked here: `data[i]?` has no value outside the bytes, and then neither has the
function. The loop is given as many rounds as there are bytes, and has no value either if it needs
more. No sum in it exceeds `size + 3`, and a byte array has less than `2 ^ 63` elements.

## Main definitions

* `startCodeLength`, `inspectH264ByteStream` — the scanner.
* `H264NalSummary.note` — what one header adds to the summary.
* `NalUnit`, `annexB` — the streams the scanner is for.

## Main results

* `inspectH264ByteStream_eq` — the scanner notes `StartCodes.headers` of its bytes.
* `inspectH264ByteStream_exact` — it stays in bounds, invents no type, and misses none in a
  well-formed stream.
-/

namespace EggVision

structure H264NalSummary where
  hasIdr : Bool := false
  hasSps : Bool := false
  hasPps : Bool := false
deriving Repr, DecidableEq

/-- The `&&` chain `data[offset] == b₀ && data[offset + 1] == b₁ && …`, which reads no further than
to the first difference. -/
def bytesMatch (data : List UInt8) (offset : ℕ) : List UInt8 → Option Bool
  | [] => some true
  | b :: rest => do
    let byte ← data[offset]?
    if byte = b then bytesMatch data (offset + 1) rest else return false

/-- The length of the start code at `offset`, or `0`. -/
def startCodeLength (data : List UInt8) (size offset : ℕ) : Option ℕ := do
  let three ← if offset + 3 ≤ size then bytesMatch data offset [0, 0, 1] else some false
  let four ← if !three && offset + 4 ≤ size then bytesMatch data offset [0, 0, 0, 1]
    else some false
  return if three then 3 else if four then 4 else 0

/-- `nal_unit_type`, the low five bits of a NAL unit's header. -/
def nalType (header : UInt8) : UInt8 := header &&& 0x1f

/-- The three assignments for one header. -/
def H264NalSummary.note (summary : H264NalSummary) (header : UInt8) : H264NalSummary where
  hasIdr := summary.hasIdr || nalType header == 5
  hasSps := summary.hasSps || nalType header == 7
  hasPps := summary.hasPps || nalType header == 8

/-- The `for` loop, for at most `fuel` rounds. -/
def inspectLoop (data : List UInt8) (size : ℕ) :
    (fuel offset : ℕ) → H264NalSummary → Option H264NalSummary
  | 0, offset, summary => if offset + 3 < size then none else some summary
  | fuel + 1, offset, summary =>
    if offset + 3 < size then do
      let length ← startCodeLength data size offset
      if length = 0 then
        inspectLoop data size fuel (offset + 1) summary
      else if size ≤ offset + length then
        return summary
      else do
        let header ← data[offset + length]?
        inspectLoop data size fuel (offset + length + 1) (summary.note header)
    else
      some summary

/-- `inspectH264ByteStream`; `none` is the null pointer. -/
def inspectH264ByteStream (data : Option (List UInt8)) (size : ℕ) : Option H264NalSummary :=
  match data with
  | none => some {}
  | some bytes => if size < 4 then some {} else inspectLoop bytes size size 0 {}

/-! ## What the scanner computes -/

/-- Inside the bytes the chain has a value: whether they stand there. -/
theorem bytesMatch_eq (data : List UInt8) (expected : List UInt8) (offset : ℕ)
    (h : offset + expected.length ≤ data.length) :
    bytesMatch data offset expected = some (decide (expected <+: data.drop offset)) := by
  induction expected generalizing offset with
  | nil => simp [bytesMatch]
  | cons b rest ih =>
    rw [List.length_cons] at h
    have hlt : offset < data.length := by omega
    rw [bytesMatch, List.getElem?_eq_getElem hlt, List.drop_eq_getElem_cons hlt,
      ih (offset + 1) (by omega)]
    simp only [List.cons_prefix_cons, eq_comm (a := b)]
    by_cases hb : data[offset] = b
    · simp [hb]
    · simp [hb]

theorem startCodeLength_eq {data : List UInt8} {offset : ℕ} (h : offset + 3 < data.length) :
    startCodeLength data data.length offset =
      some (if [0, 0, 1] <+: data.drop offset then 3
        else if [0, 0, 0, 1] <+: data.drop offset then 4 else 0) := by
  have h3 := bytesMatch_eq data [0, 0, 1] offset (by simp only [List.length_cons]; simp; omega)
  have h4 := bytesMatch_eq data [0, 0, 0, 1] offset (by simp only [List.length_cons]; simp; omega)
  rw [startCodeLength, if_pos (by omega), h3, h4]
  by_cases hthree : [0, 0, 1] <+: data.drop offset
  · simp [hthree]
  · have hle : offset + 4 ≤ data.length := by omega
    simp [hthree, hle]

/-- A start code that does not end the bytes has a header behind it. -/
theorem exists_header {data code : List UInt8} {offset : ℕ} (hcode : code <+: data.drop offset)
    (hlt : offset + code.length < data.length) :
    ∃ header, data[offset + code.length]? = some header ∧
      data.drop offset = code ++ header :: data.drop (offset + code.length + 1) := by
  obtain ⟨rest, hrest⟩ := hcode
  have hdrop : data.drop (offset + code.length) = rest := by
    rw [← List.drop_drop, ← hrest, List.drop_left]
  refine ⟨data[offset + code.length], List.getElem?_eq_getElem hlt, ?_⟩
  rw [← List.drop_eq_getElem_cons hlt, hdrop, hrest]

/-- **The loop notes the headers in front of it**, if it has a round for each byte. -/
theorem inspectLoop_eq (data : List UInt8) (fuel offset : ℕ) (summary : H264NalSummary)
    (hfuel : data.length ≤ offset + fuel) :
    inspectLoop data data.length fuel offset summary =
      some ((StartCodes.headers 0 1 (data.drop offset)).foldl H264NalSummary.note summary) := by
  induction fuel generalizing offset summary with
  | zero =>
    rw [inspectLoop, if_neg (by omega),
      StartCodes.headers_of_length_le (by rw [List.length_drop]; omega)]
    rfl
  | succ fuel ih =>
    rw [inspectLoop]
    by_cases hmore : offset + 3 < data.length
    · have hlength : (data.drop offset).length = data.length - offset := List.length_drop
      rw [if_pos hmore, startCodeLength_eq hmore]
      by_cases hthree : [0, 0, 1] <+: data.drop offset
      · obtain ⟨header, hread, hdrop⟩ := exists_header hthree hmore
        simp only [List.length_cons, List.length_nil, Nat.zero_add, Nat.reduceAdd] at hread hdrop
        rw [if_pos hthree, hdrop]
        simp only [bind, Option.bind]
        rw [if_neg (by omega), if_neg (by omega), hread]
        exact ih (offset + 3 + 1) _ (by omega)
      rw [if_neg hthree]
      by_cases hfour : [0, 0, 0, 1] <+: data.drop offset
      · have hlonger := hfour.length_le
        rw [if_pos hfour]
        simp only [List.length_cons, List.length_nil, bind, Option.bind] at hlonger ⊢
        rw [if_neg (by omega)]
        by_cases hend : data.length ≤ offset + 4
        · have hdrop : data.drop offset = [0, 0, 0, 1] :=
            (hfour.eq_of_length (by simp only [List.length_cons, List.length_nil]; omega)).symm
          rw [if_pos hend, hdrop]
          rfl
        · obtain ⟨header, hread, hdrop⟩ := exists_header hfour (by simp; omega)
          simp only [List.length_cons, List.length_nil, Nat.zero_add, Nat.reduceAdd] at hread hdrop
          have hskip : StartCodes.headers (0 : UInt8) 1 (data.drop offset) =
              header :: StartCodes.headers 0 1 (data.drop (offset + 4 + 1)) := by
            rw [hdrop]
            exact StartCodes.headers_padded (by decide) 1 header _
          rw [if_neg hend, hread, hskip]
          exact ih (offset + 4 + 1) _ (by omega)
      · have hlt : offset < data.length := by omega
        have hnone : StartCodes.headers (0 : UInt8) 1 (data.drop offset) =
            StartCodes.headers 0 1 (data.drop (offset + 1)) := by
          rw [List.drop_eq_getElem_cons hlt] at hthree ⊢
          exact StartCodes.headers_cons hthree
        rw [if_neg hfour, hnone]
        exact ih (offset + 1) _ (by omega)
    · rw [if_neg hmore, StartCodes.headers_of_length_le (by rw [List.length_drop]; omega)]
      rfl

/-- **The scanner notes the headers of its bytes**, without a read outside them. -/
theorem inspectH264ByteStream_eq (data : List UInt8) :
    inspectH264ByteStream (some data) data.length =
      some ((StartCodes.headers 0 1 data).foldl H264NalSummary.note {}) := by
  rw [inspectH264ByteStream]
  by_cases hshort : data.length < 4
  · rw [if_pos hshort, StartCodes.headers_of_length_le (by omega)]
    rfl
  · rw [if_neg hshort]
    exact inspectLoop_eq data data.length 0 {} (by omega)

/-! ## What the summary says about the bytes -/

/-- Some header is of the given type. -/
def HasType (type : UInt8) (headers : List UInt8) : Prop :=
  ∃ header ∈ headers, nalType header = type

/-- A summary of these headers: each flag is set when one of them has its type. -/
structure H264NalSummary.Of (headers : List UInt8) (summary : H264NalSummary) : Prop where
  idr : summary.hasIdr = true ↔ HasType 5 headers
  sps : summary.hasSps = true ↔ HasType 7 headers
  pps : summary.hasPps = true ↔ HasType 8 headers

theorem hasType_append {type : UInt8} {headers : List UInt8} {header : UInt8} :
    HasType type (headers ++ [header]) ↔ HasType type headers ∨ nalType header = type := by
  simp [HasType, or_and_right, exists_or]

theorem H264NalSummary.Of.note {headers : List UInt8} {summary : H264NalSummary}
    (h : summary.Of headers) (header : UInt8) :
    (summary.note header).Of (headers ++ [header]) where
  idr := by simp [H264NalSummary.note, hasType_append, h.idr]
  sps := by simp [H264NalSummary.note, hasType_append, h.sps]
  pps := by simp [H264NalSummary.note, hasType_append, h.pps]

theorem H264NalSummary.of_foldl (headers : List UInt8) :
    H264NalSummary.Of headers (headers.foldl H264NalSummary.note {}) := by
  induction headers using List.reverseRecOn with
  | nil => constructor <;> simp [HasType]
  | append_singleton headers header ih =>
    rw [List.foldl_append]
    exact ih.note header

/-- The bytes `00 00 01` and a header of the given type behind them, all inside the bytes. -/
def CodedAt (type : UInt8) (data : List UInt8) (i : ℕ) : Prop :=
  data[i]? = some 0 ∧ data[i + 1]? = some 0 ∧ data[i + 2]? = some 1 ∧
    ∃ header, data[i + 3]? = some header ∧ nalType header = type

theorem HasType.codedAt {type : UInt8} {data : List UInt8}
    (h : HasType type (StartCodes.headers 0 1 data)) : ∃ i, CodedAt type data i := by
  obtain ⟨header, hmem, htype⟩ := h
  obtain ⟨before, rest, rfl⟩ := StartCodes.infix_of_mem_headers data hmem
  refine ⟨before.length, ?_, ?_, ?_, header, ?_, htype⟩ <;> simp

/-- A NAL unit that Annex B allows in a byte stream. Annex B also forbids `00 00 00` within a unit;
the scanner does not depend on it. -/
abbrev NalUnit : Type := StartCodes.Frame (0 : UInt8) 1

/-- An Annex B stream: each unit with the number of additional zero bytes before its start code. -/
def annexB (units : List (ℕ × NalUnit)) (trailing : ℕ) : List UInt8 :=
  StartCodes.stream units trailing

/-- **Annex B inspection.** For every byte sequence the scanner comes to an end without a read
outside, and it reports no type that does not follow a start code. In a well-formed stream, with
any padding, it reports exactly the types of the units. -/
theorem inspectH264ByteStream_exact :
    (∀ size, inspectH264ByteStream none size = some {}) ∧
    (∀ data : List UInt8, ∃ summary,
      inspectH264ByteStream (some data) data.length = some summary ∧
      (summary.hasIdr = true → ∃ i, CodedAt 5 data i) ∧
      (summary.hasSps = true → ∃ i, CodedAt 7 data i) ∧
      (summary.hasPps = true → ∃ i, CodedAt 8 data i)) ∧
    ∀ (units : List (ℕ × NalUnit)) (trailing : ℕ), ∃ summary,
      inspectH264ByteStream (some (annexB units trailing)) (annexB units trailing).length =
        some summary ∧
      summary.Of (units.map (fun unit => unit.2.header)) := by
  refine ⟨fun size => rfl, fun data => ?_, fun units trailing => ?_⟩
  · have hof := H264NalSummary.of_foldl (StartCodes.headers 0 1 data)
    exact ⟨_, inspectH264ByteStream_eq data, fun h => (hof.idr.mp h).codedAt,
      fun h => (hof.sps.mp h).codedAt, fun h => (hof.pps.mp h).codedAt⟩
  · refine ⟨_, inspectH264ByteStream_eq _, ?_⟩
    rw [annexB, StartCodes.headers_stream (by decide)]
    exact H264NalSummary.of_foldl _

/-- The stream of the source's own test. -/
example : inspectH264ByteStream
    (some [0, 0, 0, 1, 0x67, 1, 0, 0, 1, 0x68, 2, 0, 0, 0, 1, 0x65, 3]) 17 =
      some { hasIdr := true, hasSps := true, hasPps := true } := by
  decide

end EggVision
