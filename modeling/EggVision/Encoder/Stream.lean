import EggVision.Camera.Consumers
import EggVision.H264Bitstream
import EggVision.Image.RawBuffer
import EggVision.LatestFrameQueue

/-!
# From frames to access units

`H264Encoder` pushes frames into a pipeline and takes access units out of it. What leaves the
pipeline knows of its frame only the presentation time, so the encoder counts the times of a
pipeline from its first frame, and adds that frame's sensor timestamp again at the other end.

The pipeline keeps what it is given in order, and may lose any of it. What a sample says comes from
the environment.

`Camera.Consumers` has the leases of the frames. Here it is the frames themselves.

## Main definitions

* `EncoderStream` — the fields of the encoder, its threads, and what is in the pipeline
* `EncoderStream.step` — one step of a thread, of the pipeline, or of a caller
* `EncoderStream.frames` — the frames of a run
-/

namespace EggVision

/-- What the encoder reads of a `FrameLease`. -/
structure Frame where
  main : StreamView
  sensorTimestampNs : UInt64

/-- A `GstSample`, as `outputLoop` reads it. A time is missing where it is not valid, and the bytes
where there is no buffer that can be mapped. -/
structure GstSample where
  pts : Option ℕ
  duration : Option ℕ
  deltaUnit : Bool
  data : Option (List UInt8)
deriving DecidableEq, Repr

/-- The unit that `outputLoop` makes of a sample. -/
def accessUnit (fps base generation : ℕ) (sample : GstSample) (bytes : List UInt8) :
    EncodedAccessUnit :=
  let summary := (inspectH264ByteStream (some bytes) bytes.length).getD {}
  { sensorTimestampNs := (base + sample.pts.getD 0) % 2 ^ 64
    durationNs := sample.duration.getD (gstSecond / fps)
    generation
    keyframe := summary.hasIdr || !sample.deltaUnit
    hasSps := summary.hasSps
    hasPps := summary.hasPps
    payload := some bytes }

/-- Where `inputLoop` is, with what it holds. -/
inductive InputStage
  | absent
  | checking
  | popping
  | making (frame : Frame)
  | pushing (buffer : RawBuffer)
  | exited

/-- Where `outputLoop` is, with what it holds. -/
inductive OutputStage
  | absent
  | checking
  | pulling
  | mapping (sample : GstSample)
  | consuming (unit : EncodedAccessUnit)
  | exited
deriving DecidableEq, Repr

/-- What `start` or `stop` does next. -/
inductive StreamOwner
  | idle
  | playing
  | spawningInput
  | spawningOutput
  | spawningBus
  | unwinding
  | abandoning
  | closing
  | joining
deriving DecidableEq, Repr

/-- `H264Encoder`. `initialized` is `initialized_` with the pipeline it stands for; `result` is what
the last `initialize` or `start` has returned; `delivered` is what the consumer has been given. -/
structure EncoderStream where
  fps : ℕ
  initialized : Bool := false
  running : Bool := false
  recoveryRequested : Bool := false
  generation : ℕ := 0
  base : ℕ := 0
  independentFrameSeen : Bool := false
  latest : LatestFrameQueue Frame := {}
  frameIndex : ℕ := 0
  input : InputStage := .absent
  pipeline : List RawBuffer := []
  output : OutputStage := .absent
  bus : BusPhase := .absent
  owner : StreamOwner := .idle
  result : Bool := false
  dropped : ℕ := 0
  errors : ℕ := 0
  accessUnits : ℕ := 0
  outputBytes : ℕ := 0
  delivered : List EncodedAccessUnit := []

/-- The steps. `submit` is its push, behind the two checks, which say whether the frame is refused;
`lose` is a buffer that the pipeline drops. -/
inductive StreamAction
  | submit (frame : Frame) (refused : Bool)
  | input (outcomes : RawOutcomes) (flow : FlowReturn)
  | lose (index : ℕ)
  | output (pulled : Option GstSample) (throws : Bool)
  | bus (message : Bool)
  | initializeEncoder (ok : Bool)
  | startEncoder
  | stopEncoder
  | owner (ok : Bool)

namespace EncoderStream

def initial (fps : ℕ) : EncoderStream := { fps }

/-- `submit`. -/
def submit (frame : Frame) (refused : Bool) (s : EncoderStream) : EncoderStream :=
  if refused then { s with dropped := s.dropped + 1 }
  else
    let (latest, replaced) := s.latest.push frame
    { s with latest, dropped := s.dropped + replaced.toNat }

/-- The next step of `inputLoop`. The first frame of a pipeline is the one its times count from. -/
def inputStep (outcomes : RawOutcomes) (flow : FlowReturn) (s : EncoderStream) :
    Option EncoderStream :=
  match s.input with
  | .absent | .exited => none
  | .checking => some { s with input := if s.running then .popping else .exited }
  | .popping =>
    s.latest.waitPop.map fun (frame, latest) =>
      { s with
        latest
        input := match frame with
          | some frame => .making frame
          | none => .exited }
  | .making frame =>
    let base := if s.base = 0 then frame.sensorTimestampNs.toNat else s.base
    let frameIndex := if s.base = 0 then 0 else s.frameIndex
    match makeRawBuffer s.fps outcomes frame.main frame.sensorTimestampNs.toNat base frameIndex with
    | some buffer =>
      some { s with base, frameIndex := frameIndex + 1, input := .pushing buffer }
    | none =>
      some { s with
        base, frameIndex := frameIndex + 1, input := .checking, errors := s.errors + 1 }
  | .pushing buffer =>
    some { s with
      input := .checking
      pipeline := if flow = .ok then s.pipeline ++ [buffer] else s.pipeline
      errors := if flow = .error then s.errors + 1 else s.errors }

/-- The next step of `outputLoop`. -/
def outputStep (pulled : Option GstSample) (throws : Bool) (s : EncoderStream) :
    Option EncoderStream :=
  match s.output with
  | .absent | .exited => none
  | .checking => some { s with output := if s.running then .pulling else .exited }
  | .pulling =>
    match pulled, s.pipeline with
    | none, _ => some { s with output := .checking }
    | some _, [] => none
    | some sample, _ :: pipeline => some { s with pipeline, output := .mapping sample }
  | .mapping sample =>
    match sample.data with
    | none => some { s with output := .checking, errors := s.errors + 1 }
    | some bytes =>
      let unit := accessUnit s.fps s.base s.generation sample bytes
      some { s with
        output := .consuming unit
        accessUnits := s.accessUnits + 1
        outputBytes := s.outputBytes + unit.sizeBytes
        independentFrameSeen := s.independentFrameSeen || unit.independentlyDecodable }
  | .consuming unit =>
    some { s with
      output := .checking
      delivered := s.delivered ++ [unit]
      errors := s.errors + throws.toNat }

/-- The next step of `busLoop`; `message` says that it has an error or the end of the stream. -/
def busStep (message : Bool) (s : EncoderStream) : Option EncoderStream :=
  match s.bus with
  | .absent | .exited => none
  | .watching =>
    if s.running then
      if message then
        some { s with
          errors := s.errors + 1, recoveryRequested := true, running := false, bus := .closing }
      else some s
    else some { s with bus := .exited }
  | .closing => some { s with latest := s.latest.close, bus := .watching }

/-- No thread object has a thread. -/
def Threadless (s : EncoderStream) : Prop :=
  match s.input, s.output, s.bus with
  | .absent, .absent, .absent => True
  | _, _, _ => False

instance (s : EncoderStream) : Decidable s.Threadless := by
  unfold Threadless
  split <;> infer_instance

/-- Every thread has returned. -/
def Joined (s : EncoderStream) : Prop :=
  (match s.input with | .absent | .exited => True | _ => False) ∧
    (match s.output with | .absent | .exited => True | _ => False) ∧
      (match s.bus with | .absent | .exited => True | _ => False)

instance (s : EncoderStream) : Decidable s.Joined := by
  unfold Joined
  refine @instDecidableAnd _ _ ?_ (@instDecidableAnd _ _ ?_ ?_) <;> split <;> infer_instance

/-- The start of a thread. A thread object that has a thread cannot be assigned another. -/
def spawn (s : EncoderStream) (free ok : Bool) (spawned : EncoderStream) : Option EncoderStream :=
  if free then
    some (if ok then spawned
      else { s with errors := s.errors + 1, running := false, owner := .unwinding })
  else none

/-- The steps of `start` and `stop`. -/
def ownerStep (ok : Bool) (s : EncoderStream) : Option EncoderStream :=
  match s.owner with
  | .idle => none
  | .playing =>
    some (if ok then { s with owner := .spawningInput }
      else { s with errors := s.errors + 1, running := false, owner := .idle, result := false })
  | .spawningInput =>
    s.spawn (match s.input with | .absent => true | _ => false) ok
      { s with input := .checking, frameIndex := 0, owner := .spawningOutput }
  | .spawningOutput =>
    s.spawn (s.output = .absent) ok { s with output := .checking, owner := .spawningBus }
  | .spawningBus =>
    s.spawn (s.bus = .absent) ok { s with bus := .watching, owner := .idle, result := true }
  | .unwinding => some { s with latest := s.latest.close, owner := .abandoning }
  | .abandoning =>
    if s.Joined then
      some { s with
        input := .absent, output := .absent, bus := .absent, pipeline := [], owner := .idle,
        result := false }
    else none
  | .closing => some { s with latest := s.latest.close, owner := .joining }
  | .joining =>
    if s.Joined then
      some { s with
        input := .absent, output := .absent, bus := .absent, pipeline := [], owner := .idle,
        initialized := false }
    else none

/-- A call of the owner, which waits for the one before it. -/
def call (s : EncoderStream) : StreamAction → Option EncoderStream
  | .initializeEncoder ok =>
    some (if s.initialized then { s with result := true }
      else { s with
        initialized := ok, result := ok, errors := s.errors + (!ok).toNat })
  | .startEncoder =>
    some (if !s.initialized then { s with result := false }
      else if s.running then { s with result := true }
      else { s with
        running := true
        latest := s.latest.reopen
        base := 0
        recoveryRequested := false
        generation := s.generation + 1
        independentFrameSeen := false
        owner := .playing })
  | .stopEncoder => some { s with running := false, owner := .closing }
  | _ => none

def step (s : EncoderStream) : StreamAction → Option EncoderStream
  | .submit frame refused => some (s.submit frame refused)
  | .input outcomes flow => s.inputStep outcomes flow
  | .lose index => some { s with pipeline := s.pipeline.eraseIdx index }
  | .output pulled throws => s.outputStep pulled throws
  | .bus message => s.busStep message
  | .owner ok => s.ownerStep ok
  | action => if s.owner = .idle then s.call action else none

/-- `waitForIndependentFrame`, whenever it returns. -/
def waitForIndependentFrame (s : EncoderStream) : Bool := s.independentFrameSeen

/-! ### The frames of a run -/

/-- The frame that a step pushes, with the generation it comes in. -/
def submitted (x : EncoderStream × StreamAction) : Option (ℕ × ℕ) :=
  match x.2 with
  | .submit frame false => some (x.1.generation, frame.sensorTimestampNs.toNat)
  | _ => none

/-- The sensor timestamps of the frames that are pushed in a run, with their generations. -/
def frames (history : List (EncoderStream × StreamAction)) : List (ℕ × ℕ) :=
  history.filterMap submitted

/-- The sample has the presentation time of the buffer it comes from: what `GstVideoEncoder` and
`h264parse` promise. -/
def KeepsPts (x : EncoderStream × StreamAction) : Prop :=
  match x.2, x.1.output, x.1.pipeline with
  | .output (some sample) _, .pulling, buffer :: _ => sample.pts = some buffer.pts
  | _, _, _ => True

instance (x : EncoderStream × StreamAction) : Decidable (KeepsPts x) := by
  unfold KeepsPts
  split <;> infer_instance

end EncoderStream

end EggVision
