import EggVision.LatestFrameQueue
import EggVision.Rtsp.Sections

/-!
# The feeder thread

`feederLoop` takes one unit after the other from the queue, looks up the bound source, and hands
the unit over in a buffer of its own numbering. Its local variables are the state here; the steps
are cut where it enters a critical section, waits for the queue, or calls into GStreamer.

Every unit carries the place it had in the order of the `submit` calls. Every unit the feeder
decides about while a source is bound is recorded with what became of it.

## Main definitions

* `GstBuffer`, `makeBuffer`
* `FeedEntry` — what became of a unit, and on which binding
* `Feeder`, with one function for each step of the loop
-/

namespace EggVision

/-- A unit with its place in the order of the `submit` calls. -/
structure Submitted where
  index : ℕ
  unit : EncodedAccessUnit
deriving DecidableEq, Repr

/-- The fields of `GstBuffer` that `makeBuffer` sets. -/
structure GstBuffer where
  payload : List UInt8
  pts : ℕ
  dts : ℕ
  duration : ℕ
  offset : ℕ
  offsetEnd : ℕ
  live : Bool
  deltaUnit : Bool
deriving DecidableEq, Repr

/-- `GST_SECOND`. -/
def gstSecond : ℕ := 1000000000

/-- `frame_index * GST_SECOND / config_.fps`, with a product of 64 bits. -/
def presentationTime (fps frameIndex : ℕ) : ℕ := frameIndex * gstSecond % 2 ^ 64 / fps

/-- `makeBuffer`; `allocated` is the outcome of `gst_buffer_new_wrapped_full`. -/
def makeBuffer (fps : ℕ) (allocated : Bool) (unit : EncodedAccessUnit) (frameIndex : ℕ) :
    Option GstBuffer :=
  match unit.payload with
  | none => none
  | some payload =>
    if payload.isEmpty || !allocated then none
    else
      some {
        payload
        pts := presentationTime fps frameIndex
        dts := presentationTime fps frameIndex
        duration := if unit.durationNs ≠ 0 then unit.durationNs else gstSecond / fps
        offset := frameIndex
        offsetEnd := frameIndex + 1
        live := true
        deltaUnit := !unit.keyframe }

theorem makeBuffer_pts {fps frameIndex : ℕ} {allocated : Bool} {unit : EncodedAccessUnit}
    {buffer : GstBuffer} (h : makeBuffer fps allocated unit frameIndex = some buffer) :
    buffer.pts = presentationTime fps frameIndex ∧ buffer.offset = frameIndex := by
  unfold makeBuffer at h
  split at h
  · cases h
  · split at h
    · cases h
    · cases h
      exact ⟨rfl, rfl⟩

/-- What became of a unit: still waiting for a keyframe, no buffer, or handed over. -/
inductive FeedOutcome
  | awaited
  | unbuffered
  | pushed (buffer : GstBuffer) (flow : FlowReturn)
deriving DecidableEq, Repr

/-- The feeder's decision about a unit. `binding` is the generation read with the source: no two
bindings of a source have the same (`Rearms`). -/
structure FeedEntry where
  submitted : Submitted
  binding : ℕ
  source : ℕ
  outcome : FeedOutcome
deriving DecidableEq, Repr

namespace FeedEntry

/-- The buffer that was handed to `gst_app_src_push_buffer`. -/
def buffer (e : FeedEntry) : Option GstBuffer :=
  match e.outcome with
  | .pushed buffer _ => some buffer
  | .awaited | .unbuffered => none

/-- The unit was handed over, and the source took it. -/
def accepted (e : FeedEntry) : Bool :=
  match e.outcome with
  | .pushed _ flow => decide (flow = .ok)
  | .awaited | .unbuffered => false

/-- Two units for one binding, from one generation of the encoder. -/
def SameStream (a e : FeedEntry) : Prop :=
  e.binding = a.binding ∧ e.submitted.unit.generation = a.submitted.unit.generation

end FeedEntry

/-- A unit between the lookup of the source and the push. `opening` says that the feeder stopped
waiting for a keyframe with this unit. -/
structure FeedItem where
  submitted : Submitted
  source : ℕ
  binding : ℕ
  mediaGeneration : ℕ
  opening : Bool
deriving DecidableEq, Repr

/-- Where the feeder thread is. `absent` is a `std::thread` without a thread. -/
inductive FeederPhase
  | absent
  | starting
  | checking
  | popping
  | popped (submitted : Submitted)
  | offering (item : FeedItem)
  | recording (mediaGeneration : ℕ) (flow : FlowReturn)
  | exited
deriving DecidableEq, Repr

/-- The places in the loop where the feeder has no unit for a source. -/
def FeederPhase.between : FeederPhase → Bool
  | .absent | .checking | .popping | .popped _ | .exited => true
  | .starting | .offering _ | .recording _ _ => false

theorem FeederPhase.not_offering {phase : FeederPhase} (h : phase.between = true)
    (item : FeedItem) : phase ≠ .offering item := by
  rintro rfl
  cases h

/-- The feeder thread, with the local variables of `feederLoop`. -/
structure Feeder where
  phase : FeederPhase := .absent
  observedGeneration : ℕ := 0
  frameIndex : ℕ := 0
  observedEncoderGeneration : ℕ := 0
  awaitingKeyframe : Bool := true
  log : List FeedEntry := []
deriving DecidableEq, Repr

namespace Feeder

/-- The variables as `feederLoop` declares them. -/
def begin (generation : ℕ) (f : Feeder) : Feeder :=
  { f with
    phase := .checking
    observedGeneration := generation
    frameIndex := 0
    observedEncoderGeneration := 0
    awaitingKeyframe := true }

/-- `while (running_.load())`. -/
def check (running : Bool) (f : Feeder) : Feeder :=
  { f with phase := if running then .popping else .exited }

/-- What `waitPop` returned. -/
def pop (submitted : Option Submitted) (f : Feeder) : Feeder :=
  match submitted with
  | some submitted => { f with phase := .popped submitted }
  | none => { f with phase := .exited }

/-- The feeder notices another source or another encoder generation. -/
def observe (generation : ℕ) (unit : EncodedAccessUnit) (f : Feeder) : Feeder :=
  if generation ≠ f.observedGeneration ∨ f.observedEncoderGeneration ≠ unit.generation then
    { f with
      observedGeneration := generation
      observedEncoderGeneration := unit.generation
      frameIndex := 0
      awaitingKeyframe := true }
  else f

/-- What follows the lookup of the bound `source`: the unit is dropped, or it is to be offered. -/
def screen (submitted : Submitted) (source generation mediaGeneration : ℕ) (f : Feeder) :
    Feeder :=
  let f := f.observe generation submitted.unit
  if f.awaitingKeyframe && !submitted.unit.independentlyDecodable then
    let entry := { submitted, binding := generation, source, outcome := .awaited }
    { f with phase := .checking, log := f.log ++ [entry] }
  else
    let item := { submitted, source, binding := generation, mediaGeneration
                  opening := f.awaitingKeyframe }
    { f with phase := .offering item, awaitingKeyframe := false }

/-- `makeBuffer` and the push. A frame index is used up also when there is no buffer. -/
def offer (fps : ℕ) (allocated : Bool) (flow : FlowReturn) (item : FeedItem) (f : Feeder) :
    Feeder :=
  let f' := { f with frameIndex := f.frameIndex + 1 }
  let entry := fun outcome =>
    { submitted := item.submitted, binding := item.binding, source := item.source, outcome }
  match makeBuffer fps allocated item.submitted.unit f.frameIndex with
  | some buffer =>
    { f' with
      phase := .recording item.mediaGeneration flow
      log := f.log ++ [entry (.pushed buffer flow)] }
  | none => { f' with phase := .checking, log := f.log ++ [entry .unbuffered] }

/-- One if a unit is on its way to a source, or its push is still to be recorded. -/
def inFlight (f : Feeder) : ℕ :=
  match f.phase with
  | .offering _ | .recording _ _ => 1
  | .absent | .starting | .checking | .popping | .popped _ | .exited => 0

end Feeder

end EggVision
