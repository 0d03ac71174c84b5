import Mathlib.Algebra.Ring.Nat

/-!
# Encoded access units

One H.264 access unit as it leaves the hardware encoder. The same immutable object is handed to
the RTSP server and to the event recorder, so both are modelled over this type.

Integer fields are natural numbers. Where the source relies on the 64-bit range (saturating
addition, presentation times) the range is written out at the operation.
-/

namespace EggVision

/-- `std::numeric_limits<std::uint64_t>::max()`. -/
def u64Max : ℕ := 2 ^ 64 - 1

/-- The `saturatingAdd` helper of the event recorder. -/
def saturatingAdd (left right : ℕ) : ℕ :=
  if right > u64Max - left then u64Max else left + right

theorem min_le_saturatingAdd (left right : ℕ) :
    min u64Max (left + right) ≤ saturatingAdd left right := by
  unfold saturatingAdd
  split <;> omega

theorem saturatingAdd_mono {left left' : ℕ} (right : ℕ) (h : left ≤ left') :
    saturatingAdd left right ≤ saturatingAdd left' right := by
  unfold saturatingAdd
  split <;> split <;> omega

/-- `EncodedAccessUnit`. The payload pointer may be null. -/
structure EncodedAccessUnit where
  sensorTimestampNs : ℕ
  durationNs : ℕ := 0
  generation : ℕ
  keyframe : Bool := false
  hasSps : Bool := false
  hasPps : Bool := false
  payload : Option (List UInt8) := none
deriving DecidableEq, Repr

namespace EncodedAccessUnit

/-- `sizeBytes()`: a null payload has no bytes. -/
def sizeBytes (unit : EncodedAccessUnit) : ℕ :=
  match unit.payload with
  | some payload => payload.length
  | none => 0

/-- `independentlyDecodable()`: an IDR that carries its parameter sets. -/
def independentlyDecodable (unit : EncodedAccessUnit) : Bool :=
  unit.keyframe && unit.hasSps && unit.hasPps

/-- The units of the repository's own tests: parameter sets come with every keyframe. -/
def ofTest (sensorTimestampNs generation : ℕ) (key : Bool) (size : ℕ) : EncodedAccessUnit where
  sensorTimestampNs
  durationNs := 100
  generation
  keyframe := key
  hasSps := key
  hasPps := key
  payload := some (List.replicate size 0x5a)

end EncodedAccessUnit

end EggVision
