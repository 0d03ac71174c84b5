import EggVision.Encoder.Units

/-!
# The consumer of the encoder

The output thread makes a unit, hands it to the consumer, and goes on when the consumer returns. In
`EncoderStream` the consumer has no steps of its own. Here is what a system with the encoder in it
has to know: when a unit is handed over, and when its consumer returns.

## Main definitions

* `EncoderStream.inHand` — the unit that is handed to the consumer
* `EncoderStream.returns` — the step by which the consumer returns
* `EncoderStream.made` — the units up to the one in hand

## Main results

* `EncoderStream.step_handed` — what a step means for the unit in hand
* `EncoderStream.made_sublist` — the units that were made are frames
-/

namespace EggVision

open Transition

namespace EncoderStream

variable {s s' : EncoderStream} {history : List (EncoderStream × StreamAction)} {fps : ℕ}
  {a : StreamAction}

/-- The unit that is handed to the consumer. -/
def inHand (s : EncoderStream) : Option EncodedAccessUnit :=
  match s.output with
  | .consuming unit => some unit
  | _ => none

/-- The step by which the consumer returns. -/
def returns (s : EncoderStream) : StreamAction → Bool
  | .output .. => s.inHand.isSome
  | _ => false

/-- The units that were made, the one in hand among them. -/
def made (s : EncoderStream) : List EncodedAccessUnit := s.delivered ++ s.inHand.toList

/-- What a step means for the unit in hand: nothing, or the thread makes it, or the consumer
returns. -/
theorem step_handed (hs : s.step a = some s') :
    (s.returns a = false ∧ s'.delivered = s.delivered ∧ s'.inHand = s.inHand) ∨
      (∃ pulled throws sample bytes, a = .output pulled throws ∧ s.output = .mapping sample ∧
        sample.data = some bytes ∧ s'.delivered = s.delivered ∧
        s'.inHand = some (accessUnit s.fps s.base s.generation sample bytes)) ∨
      ∃ unit, s.returns a = true ∧ s.inHand = some unit ∧
        s'.delivered = s.delivered ++ [unit] ∧ s'.inHand = none := by
  cases a with
  | submit frame refused =>
    obtain rfl := Option.some.inj hs
    refine .inl ⟨rfl, ?_⟩
    unfold submit
    split <;> exact ⟨rfl, rfl⟩
  | input outcomes flow =>
    obtain ⟨_, _, _, _, _, _, rfl⟩ := inputStep_eq hs
    exact .inl ⟨rfl, rfl, rfl⟩
  | lose index =>
    obtain rfl := Option.some.inj hs
    exact .inl ⟨rfl, rfl, rfl⟩
  | output pulled throws =>
    simp only [step, outputStep] at hs
    split at hs
    · cases hs
    · cases hs
    next hout =>
      obtain rfl := Option.some.inj hs
      refine .inl ⟨by simp [returns, inHand, hout], rfl, ?_⟩
      by_cases hrunning : s.running = true <;> simp [inHand, hout, hrunning]
    next hout =>
      have hrest : s.returns (.output pulled throws) = false ∧ s.inHand = none := by
        simp [returns, inHand, hout]
      split at hs
      · obtain rfl := Option.some.inj hs
        exact .inl ⟨hrest.1, rfl, hrest.2.symm⟩
      · cases hs
      · obtain rfl := Option.some.inj hs
        exact .inl ⟨hrest.1, rfl, hrest.2.symm⟩
    next sample hout =>
      split at hs
      · obtain rfl := Option.some.inj hs
        exact .inl ⟨by simp [returns, inHand, hout], rfl, by simp [inHand, hout]⟩
      next bytes hbytes =>
        obtain rfl := Option.some.inj hs
        exact .inr (.inl ⟨pulled, throws, sample, bytes, rfl, hout, hbytes, rfl, rfl⟩)
    next unit hout =>
      obtain rfl := Option.some.inj hs
      exact .inr (.inr ⟨unit, by simp [returns, inHand, hout], by simp [inHand, hout], rfl, rfl⟩)
  | bus message =>
    obtain ⟨_, _, _, _, _, rfl⟩ := busStep_eq hs
    exact .inl ⟨rfl, rfl, rfl⟩
  | owner ok =>
    have hdelivered : s'.delivered = s.delivered := by
      obtain ⟨_, _, _, _, _, _, _, _, _, _, _, rfl⟩ := ownerStep_eq hs
      rfl
    refine .inl ⟨rfl, hdelivered, ?_⟩
    -- the owner touches a thread that is not there or has returned
    have hjoined : s.Joined → s.inHand = none := by
      rintro ⟨-, hout, -⟩
      unfold inHand
      split at hout <;> simp_all
    simp only [step, ownerStep] at hs
    split at hs
    · cases hs
    · rw [← Option.some.inj hs]
      split <;> rfl
    · obtain ⟨-, rfl | rfl⟩ := spawn_eq_some hs <;> rfl
    · obtain ⟨hfree, rfl | rfl⟩ := spawn_eq_some hs
      · have hout : s.output = .absent := by simpa using hfree
        simp [inHand, hout]
      · rfl
    · obtain ⟨-, rfl | rfl⟩ := spawn_eq_some hs <;> rfl
    · rw [← Option.some.inj hs]
      rfl
    · obtain ⟨hdone, hs⟩ := Option.ite_none_right_eq_some.mp hs
      rw [← Option.some.inj hs]
      exact (hjoined hdone).symm
    · rw [← Option.some.inj hs]
      rfl
    · obtain ⟨hdone, hs⟩ := Option.ite_none_right_eq_some.mp hs
      rw [← Option.some.inj hs]
      exact (hjoined hdone).symm
  | initializeEncoder ok =>
    obtain ⟨-, hs⟩ := Option.ite_none_right_eq_some.mp hs
    rw [← Option.some.inj hs]
    exact .inl ⟨rfl, by split <;> exact ⟨rfl, rfl⟩⟩
  | startEncoder =>
    obtain ⟨-, hs⟩ := Option.ite_none_right_eq_some.mp hs
    rw [← Option.some.inj hs]
    refine .inl ⟨rfl, ?_⟩
    split_ifs <;> exact ⟨rfl, rfl⟩
  | stopEncoder =>
    obtain ⟨-, hs⟩ := Option.ite_none_right_eq_some.mp hs
    rw [← Option.some.inj hs]
    exact .inl ⟨rfl, rfl, rfl⟩

/-- By generation and timestamp, the units that were made are some of the frames, in their order. -/
theorem made_sublist (h : Run step (initial fps) history s) (hkeeps : ∀ x ∈ history, KeepsPts x)
    (hthreadless : ∀ x ∈ history, StartsThreadless x) (hmono : Monotonic (frames history)) :
    (s.made.map unitStamp).Sublist (frames history) := by
  have hstamped := (stamped_of_run h hkeeps hthreadless hmono).sublist
  refine List.Sublist.trans ?_ hstamped
  rw [made, List.map_append, units, carried, stamped]
  refine List.Sublist.append_left ?_ _
  unfold inHand handing
  cases s.output <;> simp [unitStamp]

/-! ### A run for the witnesses -/

/-- The encoder is started. -/
def bringUp : List StreamAction :=
  [.initializeEncoder true, .startEncoder] ++ List.replicate 4 (.owner true)

/-- What comes out of the pipeline for a frame. -/
def sampleAt (pts : ℕ) (bytes : List UInt8) : GstSample :=
  { pts, duration := none, deltaUnit := true, data := some bytes }

/-- A frame on its way through the encoder, until its unit is in hand. -/
def encodeOne (sensorTimestampNs : UInt64) (pts : ℕ) (bytes : List UInt8) : List StreamAction :=
  let outcomes : RawOutcomes :=
    { buffer := true, allocator := true, duplicated := fun _ => true, allocated := fun _ => true }
  .submit { main := { planes := [{}] }, sensorTimestampNs } false ::
    List.replicate 4 (.input outcomes .ok) ++
    [.output none false, .output (some (sampleAt pts bytes)) false, .output none false]

/-- A sample with parameter sets and an IDR slice. -/
def keyBytes : List UInt8 := [0, 0, 1, 0x67, 0, 0, 1, 0x68, 0, 0, 1, 0x65]

def deltaBytes : List UInt8 := [0, 0, 1, 0x41]

end EncoderStream

end EggVision
