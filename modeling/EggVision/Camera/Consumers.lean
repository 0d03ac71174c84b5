import EggVision.Camera.Conservation

/-!
# The consumers of frames

`onRequestCompleted` hands the lease of a completed request to `H264Encoder::submit` and then to
`InferenceWorker::submit`. Both keep the latest frame in a queue of capacity one, which a thread of
their own empties. The encoder's thread wraps the frame into a `GstBuffer`, which the pipeline
destroys when it likes; the inference thread lets the frame go at the end of its iteration.

A frame is in the list as long as its lease is alive, with the place of the encoder's copy and of
the copy for inference. The arguments of the two calls are copies as well, but they go before the
callback's own.

Every load or store of a flag, every lock region, and every call of a callback is a step of its own,
of the camera's thread, of the four threads of the consumers, of the owner that starts and stops
them, or of whoever destroys a buffer. The counters are those of frames; the requests for recovery,
the timestamps and the output side of the encoder do not touch leases.

## Main definitions

* `LeasedFrame`, `EncoderPart`, `InferencePart` — a live lease, and where its copies are
* `FramePipeline`, `FrameAction`, `FramePipeline.step`
* `reserve`, `admissionLimit` — the admission of `H264Encoder::submit`
* `Exchanged` — a frame and its lease change together

## Main results

* `Exchanged.countP_le` — what that does to the number of frames of a kind
* `evicted_cases` — what closing, reopening or pushing does to the frame in a queue
-/

namespace EggVision

open Transition CameraCapture

/-! ### Frames -/

/-- Where `H264Encoder` is with a frame. -/
inductive EncoderPart
  /-- `submit` loads `running_` -/
  | loading
  /-- `submit` loads `outstanding_leases` -/
  | admitting
  /-- `submit` pushes the frame -/
  | pushing
  /-- in `latest_` -/
  | queued
  /-- in the hands of `inputLoop` -/
  | input
  /-- in a `GstBuffer` -/
  | buffer
  /-- refused, replaced or let go -/
  | gone
deriving DecidableEq, Repr

/-- Where `InferenceWorker` is with a frame. -/
inductive InferencePart
  /-- `submit` loads `running_` -/
  | loading
  /-- `submit` pushes the frame -/
  | pushing
  /-- in `latest_` -/
  | queued
  /-- in the hands of `workerLoop` -/
  | worker
  /-- refused, replaced or let go -/
  | gone
deriving DecidableEq, Repr

/-- The encoder owns a copy of the lease. -/
def EncoderPart.holds : EncoderPart → Bool
  | .queued | .input | .buffer => true
  | .loading | .admitting | .pushing | .gone => false

/-- `submit` has not returned. -/
def EncoderPart.pending : EncoderPart → Bool
  | .loading | .admitting | .pushing => true
  | .queued | .input | .buffer | .gone => false

/-- The inference owns a copy of the lease. -/
def InferencePart.holds : InferencePart → Bool
  | .queued | .worker => true
  | .loading | .pushing | .gone => false

/-- `submit` has not returned. -/
def InferencePart.pending : InferencePart → Bool
  | .loading | .pushing => true
  | .queued | .worker | .gone => false

/-- A live lease: the callback that built it is `delivering` it, or its copies are somewhere. -/
structure LeasedFrame where
  request : Request
  delivering : Bool := true
  encoder : EncoderPart := .loading
  inference : InferencePart := .loading
deriving DecidableEq, Repr

/-- The lease of a frame. -/
def LeasedFrame.lease (f : LeasedFrame) : Lease where
  request := f.request
  delivering := f.delivering
  copies := f.encoder.holds.toNat + f.inference.holds.toNat

namespace LeasedFrame

variable {f : LeasedFrame}

/-- A move that keeps or lacks the encoder's copy leaves the lease alone. -/
theorem lease_encoder {part : EncoderPart} (h : part.holds = f.encoder.holds) :
    { f with encoder := part }.lease = f.lease := by simp [lease, h]

theorem lease_encoder_queued (h : f.encoder.holds = false) :
    { f with encoder := .queued }.lease = { f.lease with copies := f.lease.copies + 1 } := by
  have hqueued : EncoderPart.queued.holds = true := rfl
  simp [lease, h, hqueued, Nat.add_comm]

theorem lease_encoder_gone (h : f.encoder.holds = true) :
    { f with encoder := .gone }.lease = { f.lease with copies := f.lease.copies - 1 } := by
  have hgone : EncoderPart.gone.holds = false := rfl
  simp [lease, h, hgone]

theorem lease_inference {part : InferencePart} (h : part.holds = f.inference.holds) :
    { f with inference := part }.lease = f.lease := by simp [lease, h]

theorem lease_inference_queued (h : f.inference.holds = false) :
    { f with inference := .queued }.lease = { f.lease with copies := f.lease.copies + 1 } := by
  have hqueued : InferencePart.queued.holds = true := rfl
  simp [lease, h, hqueued]

theorem lease_inference_gone (h : f.inference.holds = true) :
    { f with inference := .gone }.lease = { f.lease with copies := f.lease.copies - 1 } := by
  have hgone : InferencePart.gone.holds = false := rfl
  simp [lease, h, hgone]

end LeasedFrame

/-! ### The consumers and their threads -/

/-- Where `inputLoop` is. -/
inductive InputPhase
  | absent
  | checking
  | popping
  | making
  | exited
deriving DecidableEq, Repr

/-- Where `busLoop` is. -/
inductive BusPhase
  | absent
  | watching
  | closing
  | exited
deriving DecidableEq, Repr

/-- What `start` or `stop` of the encoder does next. -/
inductive EncoderOwner
  | idle
  | reopening
  | playing
  | spawningInput
  | spawningRest
  | closing
  | joining
deriving DecidableEq, Repr

/-- The fields of `H264Encoder` that decide about frames, but for the frames themselves; `closed` is
that of `latest_`. -/
structure H264Encoder where
  running : Bool := false
  closed : Bool := false
  input : InputPhase := .absent
  bus : BusPhase := .absent
  owner : EncoderOwner := .idle
  dropped : ℕ := 0
  errors : ℕ := 0
deriving DecidableEq, Repr

/-- Where `workerLoop` is. -/
inductive InferencePhase
  | absent
  | checking
  | popping
  | working
  | exited
deriving DecidableEq, Repr

/-- What `start` or `stop` of the inference does next. -/
inductive InferenceOwner
  | idle
  | spawning
  | closing
  | joining
deriving DecidableEq, Repr

/-- The fields of `InferenceWorker` that decide about frames. -/
structure InferenceWorker where
  running : Bool := false
  closed : Bool := false
  worker : InferencePhase := .absent
  owner : InferenceOwner := .idle
  dropped : ℕ := 0
deriving DecidableEq, Repr

/-- The camera with its consumers. `bufferCount` is `config_.buffer_count`. -/
structure FramePipeline where
  bufferCount : UInt32
  camera : CameraCapture
  frames : List LeasedFrame := []
  encoder : H264Encoder := {}
  inference : InferenceWorker := {}
deriving DecidableEq, Repr

/-- The steps. `input` is one of `inputLoop`, with the outcomes of `makeRawBuffer` and of the push
into the pipeline; `destroy` is the end of a `GstBuffer`. -/
inductive FrameAction
  | camera (action : CameraAction)
  | submit (frame : LeasedFrame)
  | offer (frame : LeasedFrame)
  | delivered (frame : LeasedFrame) (throws : Bool)
  | input (made pushed : Bool)
  | destroy (frame : LeasedFrame)
  | bus (error : Bool)
  | startEncoder
  | stopEncoder
  | encoderOwner (ok : Bool)
  | worker
  | startInference
  | stopInference
  | inferenceOwner (ok : Bool)
deriving DecidableEq, Repr

/-! ### Admission -/

/-- The leases that `submit` leaves to others. -/
def reserve (bufferCount : UInt32) : UInt64 := min 2 (bufferCount / 2).toUInt64

/-- The number of outstanding leases from which `submit` refuses. -/
def admissionLimit (bufferCount : UInt32) : UInt64 := bufferCount.toUInt64 - reserve bufferCount

theorem toNat_reserve (bufferCount : UInt32) :
    (reserve bufferCount).toNat = min 2 (bufferCount.toNat / 2) := by
  have hmin : reserve bufferCount =
      if 2 ≤ (bufferCount / 2).toUInt64 then 2 else (bufferCount / 2).toUInt64 := rfl
  rw [hmin, min_def, apply_ite UInt64.toNat]
  simp only [UInt64.le_iff_toNat_le, UInt32.toNat_toUInt64, UInt32.toNat_div]
  rfl

/-- The subtraction does not wrap. -/
theorem toNat_admissionLimit (bufferCount : UInt32) : (admissionLimit bufferCount).toNat =
    bufferCount.toNat - (reserve bufferCount).toNat := by
  have hle : reserve bufferCount ≤ bufferCount.toUInt64 := by
    rw [UInt64.le_iff_toNat_le, toNat_reserve, UInt32.toNat_toUInt64]
    omega
  rw [admissionLimit, UInt64.toNat_sub_of_le _ _ hle, UInt32.toNat_toUInt64]

/-! ### Steps -/

namespace FramePipeline

/-- Both have been constructed, and the camera has `count` requests. -/
def initial (bufferCount : UInt32) (count : ℕ) : FramePipeline where
  bufferCount
  camera := .initial count

/-- One frame in the place of another. A frame whose lease has no owner left is not there. -/
def exchange (f f' : LeasedFrame) (frames : List LeasedFrame) : List LeasedFrame :=
  if f'.lease.owned then f' :: frames.erase f else frames.erase f

/-- The frame moves on, and nobody gets or gives up a copy. -/
def relabel (f f' : LeasedFrame) (s : FramePipeline) : FramePipeline :=
  { s with frames := f' :: s.frames.erase f }

/-- The frame moves on with a step of its lease. -/
def settle (action : CameraAction) (f f' : LeasedFrame) (s : FramePipeline) :
    Option FramePipeline :=
  (s.camera.step action).map fun camera => { s with camera, frames := exchange f f' s.frames }

/-- A consumer gets a copy. -/
def hold (f f' : LeasedFrame) : FramePipeline → Option FramePipeline := settle (.copy f.lease) f f'

/-- A consumer gives a copy up. -/
def release (f f' : LeasedFrame) : FramePipeline → Option FramePipeline :=
  settle (.drop f.lease) f f'

/-- The frame in a queue is let go. -/
def evict (queued : LeasedFrame → Bool) (letGo : LeasedFrame → LeasedFrame) (s : FramePipeline) :
    Option FramePipeline :=
  match s.frames.find? queued with
  | none => some s
  | some old => s.release old (letGo old)

/-- The frame in the encoder's `latest_` is let go. -/
def evictEncoder : FramePipeline → Option FramePipeline :=
  evict (fun f => f.encoder == .queued) fun f => { f with encoder := .gone }

/-- The frame in the `latest_` of the inference is let go. -/
def evictInference : FramePipeline → Option FramePipeline :=
  evict (fun f => f.inference == .queued) fun f => { f with inference := .gone }

/-- A step of the camera, of its callbacks, or of the recycler. -/
def cameraStep (s : FramePipeline) : CameraAction → Option FramePipeline
  | .delivered _ _ | .copy _ | .drop _ => none
  | .callback callback =>
    (s.camera.step (.callback callback)).map fun camera =>
      { s with
        camera
        frames :=
          if callback.stage = .building then { request := callback.request } :: s.frames
          else s.frames }
  | action => (s.camera.step action).map fun camera => { s with camera }

/-- `H264Encoder::submit`. -/
def submit (f : LeasedFrame) (s : FramePipeline) : Option FramePipeline :=
  if f ∈ s.frames ∧ f.delivering = true then
    match f.encoder with
    | .loading =>
      some (s.relabel f { f with encoder := if s.encoder.running then .admitting else .gone })
    | .admitting =>
      if (admissionLimit s.bufferCount).toNat ≤ s.camera.outstandingLeases then
        some { s.relabel f { f with encoder := .gone } with
          encoder := { s.encoder with dropped := s.encoder.dropped + 1 } }
      else some (s.relabel f { f with encoder := .pushing })
    | .pushing =>
      if s.encoder.closed then some (s.relabel f { f with encoder := .gone })
      else
        let replaced := s.frames.any fun f => f.encoder == .queued
        (s.evictEncoder.bind (hold f { f with encoder := .queued })).map fun s =>
          { s with
            encoder := { s.encoder with dropped := s.encoder.dropped + replaced.toNat } }
    | .queued | .input | .buffer | .gone => none
  else none

/-- `InferenceWorker::submit`, behind that of the encoder. -/
def offer (f : LeasedFrame) (s : FramePipeline) : Option FramePipeline :=
  if f ∈ s.frames ∧ f.delivering = true ∧ f.encoder.pending = false then
    match f.inference with
    | .loading =>
      some (s.relabel f { f with inference := if s.inference.running then .pushing else .gone })
    | .pushing =>
      if s.inference.closed then some (s.relabel f { f with inference := .gone })
      else
        let replaced := s.frames.any fun f => f.inference == .queued
        (s.evictInference.bind (hold f { f with inference := .queued })).map fun s =>
          { s with
            inference := { s.inference with dropped := s.inference.dropped + replaced.toNat } }
    | .queued | .worker | .gone => none
  else none

/-- The end of `onRequestCompleted`, at once if a consumer throws. -/
def deliveredStep (f : LeasedFrame) (throws : Bool) (s : FramePipeline) : Option FramePipeline :=
  if f ∈ s.frames ∧ (throws = true ∨ f.encoder.pending = false ∧ f.inference.pending = false) then
    s.settle (.delivered f.lease throws) f { f with delivering := false }
  else none

/-- The next step of `inputLoop`. -/
def inputStep (made pushed : Bool) (s : FramePipeline) : Option FramePipeline :=
  match s.encoder.input with
  | .absent | .exited => none
  | .checking =>
    some { s with
      encoder := { s.encoder with input := if s.encoder.running then .popping else .exited } }
  | .popping =>
    match s.frames.find? fun f => f.encoder == .queued with
    | some f =>
      some { s.relabel f { f with encoder := .input } with
        encoder := { s.encoder with input := .making } }
    | none =>
      if s.encoder.closed then some { s with encoder := { s.encoder with input := .exited } }
      else none
  | .making =>
    match s.frames.find? fun f => f.encoder == .input with
    | none => none
    | some f =>
      if made then
        some { s.relabel f { f with encoder := .buffer } with
          encoder := { s.encoder with
            input := .checking
            errors := s.encoder.errors + (!pushed).toNat } }
      else
        (s.release f { f with encoder := .gone }).map fun s =>
          { s with
            encoder := { s.encoder with input := .checking, errors := s.encoder.errors + 1 } }

/-- `destroyLease`. -/
def destroyStep (f : LeasedFrame) (s : FramePipeline) : Option FramePipeline :=
  if f ∈ s.frames ∧ f.encoder = .buffer then s.release f { f with encoder := .gone } else none

/-- The next step of `busLoop`; `error` says that it has a message. -/
def busStep (error : Bool) (s : FramePipeline) : Option FramePipeline :=
  match s.encoder.bus with
  | .absent | .exited => none
  | .watching =>
    if s.encoder.running then
      if error then
        some { s with
          encoder := { s.encoder with
            running := false
            errors := s.encoder.errors + 1
            bus := .closing } }
      else some s
    else some { s with encoder := { s.encoder with bus := .exited } }
  | .closing =>
    s.evictEncoder.map fun s =>
      { s with encoder := { s.encoder with closed := true, bus := .watching } }

/-- The steps of `start` and `stop` of the encoder. A thread object that has a thread cannot be
assigned another. -/
def encoderOwnerStep (ok : Bool) (s : FramePipeline) : Option FramePipeline :=
  match s.encoder.owner with
  | .idle => none
  | .reopening =>
    s.evictEncoder.map fun s =>
      { s with encoder := { s.encoder with closed := false, owner := .playing } }
  | .playing =>
    some { s with
      encoder :=
        if ok then { s.encoder with owner := .spawningInput }
        else { s.encoder with running := false, errors := s.encoder.errors + 1, owner := .idle } }
  | .spawningInput =>
    if s.encoder.input = .absent then
      some { s with
        encoder :=
          if ok then { s.encoder with input := .checking, owner := .spawningRest }
          else
            { s.encoder with running := false, errors := s.encoder.errors + 1, owner := .closing } }
    else none
  | .spawningRest =>
    if s.encoder.bus = .absent then
      some { s with
        encoder :=
          if ok then { s.encoder with bus := .watching, owner := .idle }
          else
            { s.encoder with running := false, errors := s.encoder.errors + 1, owner := .closing } }
    else none
  | .closing =>
    s.evictEncoder.map fun s =>
      { s with encoder := { s.encoder with closed := true, owner := .joining } }
  | .joining =>
    if (s.encoder.input = .exited ∨ s.encoder.input = .absent) ∧
        (s.encoder.bus = .exited ∨ s.encoder.bus = .absent) then
      some { s with encoder := { s.encoder with input := .absent, bus := .absent, owner := .idle } }
    else none

/-- The next step of `workerLoop`. -/
def workerStep (s : FramePipeline) : Option FramePipeline :=
  match s.inference.worker with
  | .absent | .exited => none
  | .checking =>
    some { s with
      inference := { s.inference with
        worker := if s.inference.running then .popping else .exited } }
  | .popping =>
    match s.frames.find? fun f => f.inference == .queued with
    | some f =>
      some { s.relabel f { f with inference := .worker } with
        inference := { s.inference with worker := .working } }
    | none =>
      if s.inference.closed then
        some { s with inference := { s.inference with worker := .exited } }
      else none
  | .working =>
    match s.frames.find? fun f => f.inference == .worker with
    | none => none
    | some f =>
      (s.release f { f with inference := .gone }).map fun s =>
        { s with inference := { s.inference with worker := .checking } }

/-- The steps of `start` and `stop` of the inference. -/
def inferenceOwnerStep (ok : Bool) (s : FramePipeline) : Option FramePipeline :=
  match s.inference.owner with
  | .idle => none
  | .spawning =>
    if s.inference.worker = .absent then
      some { s with
        inference := { s.inference with
          worker := if ok then .checking else .absent
          owner := .idle } }
    else none
  | .closing =>
    s.evictInference.map fun s =>
      { s with inference := { s.inference with closed := true, owner := .joining } }
  | .joining =>
    if s.inference.worker = .exited ∨ s.inference.worker = .absent then
      some { s with inference := { s.inference with worker := .absent, owner := .idle } }
    else none

def step (s : FramePipeline) : FrameAction → Option FramePipeline
  | .camera action => s.cameraStep action
  | .submit f => s.submit f
  | .offer f => s.offer f
  | .delivered f throws => s.deliveredStep f throws
  | .input made pushed => s.inputStep made pushed
  | .destroy f => s.destroyStep f
  | .bus error => s.busStep error
  | .startEncoder =>
    if s.encoder.owner = .idle ∧ s.encoder.running = false then
      some { s with encoder := { s.encoder with running := true, owner := .reopening } }
    else none
  | .stopEncoder =>
    if s.encoder.owner = .idle then
      some { s with encoder := { s.encoder with running := false, owner := .closing } }
    else none
  | .encoderOwner ok => s.encoderOwnerStep ok
  | .worker => s.workerStep
  | .startInference =>
    if s.inference.owner = .idle ∧ s.inference.running = false then
      some { s with inference := { s.inference with running := true, owner := .spawning } }
    else none
  | .stopInference =>
    if s.inference.owner = .idle ∧ s.inference.running = true then
      some { s with inference := { s.inference with running := false, owner := .closing } }
    else none
  | .inferenceOwner ok => s.inferenceOwnerStep ok

variable {s s' : FramePipeline} {f f' : LeasedFrame} {count : ℕ}

/-! ### Frames and leases -/

/-- The frames are those of the live leases. -/
def Linked (s : FramePipeline) : Prop := s.camera.leases.Perm (s.frames.map LeasedFrame.lease)

theorem Linked.erase (h : Linked s) (hf : f ∈ s.frames) :
    (s.camera.leases.erase f.lease).Perm ((s.frames.erase f).map LeasedFrame.lease) := by
  have hout := h.trans ((List.perm_cons_erase hf).map LeasedFrame.lease)
  have herase := hout.erase f.lease
  rwa [List.map_cons, List.erase_cons_head] at herase

/-- A frame and its lease change together, and the rest of the camera goes on as it may. -/
structure Exchanged (s s' : FramePipeline) (f f' : LeasedFrame) : Prop where
  mem : f ∈ s.frames
  frames : s'.frames = f' :: s.frames.erase f ∧ (f.lease.owned = true → f'.lease.owned = true) ∨
    s'.frames = s.frames.erase f
  linked : Linked s → Linked s'
  camera : ∀ {count}, Reachable CameraCapture.step (.initial count) s.camera →
    Reachable CameraCapture.step (.initial count) s'.camera
  bufferCount : s'.bufferCount = s.bufferCount
  inference : s'.inference = s.inference

theorem exchanged_relabel (hf : f ∈ s.frames) (hlease : f'.lease = f.lease) :
    Exchanged s (s.relabel f f') f f' where
  mem := hf
  frames := Or.inl ⟨rfl, fun howned => by rwa [hlease]⟩
  linked := fun h => by
    have hcons := (h.erase hf).cons f'.lease
    rw [hlease] at hcons
    have hback := (List.perm_cons_erase (h.mem_iff.mpr (List.mem_map_of_mem hf))).trans hcons
    rw [← hlease] at hback
    exact hback
  camera := id
  bufferCount := rfl
  inference := rfl

/-- The encoder's copy moves on, or the frame has none. -/
theorem exchanged_encoder (hf : f ∈ s.frames) {p : EncoderPart}
    (h : p.holds = f.encoder.holds) :
    Exchanged s (s.relabel f { f with encoder := p }) f { f with encoder := p } :=
  exchanged_relabel hf (LeasedFrame.lease_encoder h)

/-- The copy for inference moves on, or the frame has none. -/
theorem exchanged_inference (hf : f ∈ s.frames) {p : InferencePart}
    (h : p.holds = f.inference.holds) :
    Exchanged s (s.relabel f { f with inference := p }) f { f with inference := p } :=
  exchanged_relabel hf (LeasedFrame.lease_inference h)

/-- What a step of a lease does to the leases, it does to the frames. -/
theorem Exchanged.of_settle {action : CameraAction} {lease : Lease} (hf : f ∈ s.frames)
    (hs : s.settle action f f' = some s') (hlease : f'.lease = lease)
    (hleases : ∀ camera, s.camera.step action = some camera → camera.leases =
      if lease.owned then lease :: s.camera.leases.erase f.lease
      else s.camera.leases.erase f.lease) :
    Exchanged s s' f f' := by
  obtain ⟨camera, hcamera, rfl⟩ := Option.map_eq_some_iff.mp hs
  have hafter := hleases camera hcamera
  rw [← hlease] at hafter
  refine ⟨hf, ?_, fun h => ?_, fun hr => hr.tail hcamera, rfl, rfl⟩
  · unfold exchange
    split
    next howned => exact Or.inl ⟨rfl, fun _ => howned⟩
    · exact Or.inr rfl
  · unfold Linked exchange
    rw [hafter]
    dsimp only
    split
    · exact (h.erase hf).cons f'.lease
    · exact h.erase hf

theorem exchanged_hold (hf : f ∈ s.frames) (hs : s.hold f f' = some s')
    (hlease : f'.lease = { f.lease with copies := f.lease.copies + 1 }) :
    Exchanged s s' f f' := by
  refine .of_settle hf hs hlease fun camera hcamera => ?_
  obtain ⟨-, hcamera⟩ := Option.ite_none_right_eq_some.mp hcamera
  cases hcamera
  simp [Lease.owned]

theorem exchanged_release (hf : f ∈ s.frames) (hs : s.release f f' = some s')
    (hlease : f'.lease = { f.lease with copies := f.lease.copies - 1 }) :
    Exchanged s s' f f' := by
  refine .of_settle hf hs hlease fun camera hcamera => ?_
  obtain ⟨-, hcamera⟩ := Option.ite_none_right_eq_some.mp hcamera
  cases hcamera
  unfold disown
  split <;> rfl

theorem exchanged_delivered {throws : Bool} (hf : f ∈ s.frames)
    (hs : s.settle (.delivered f.lease throws) f { f with delivering := false } = some s') :
    Exchanged s s' f { f with delivering := false } := by
  have hlease : { f with delivering := false }.lease = { f.lease with delivering := false } := rfl
  refine .of_settle hf hs hlease fun camera hcamera => ?_
  obtain ⟨-, hcamera⟩ := Option.ite_none_right_eq_some.mp hcamera
  cases hcamera
  unfold disown
  cases throws <;> (split <;> rfl)

/-- What it does to the number of frames of a kind. -/
theorem Exchanged.countP_le (h : Exchanged s s' f f') (p : LeasedFrame → Bool) :
    s'.frames.countP p + (p f).toNat ≤ s.frames.countP p + (p f').toNat := by
  have hout := (List.perm_cons_erase h.mem).countP_eq p
  rw [List.countP_cons] at hout
  rcases h.frames with ⟨heq, -⟩ | heq
  · rw [heq, List.countP_cons, hout]
    cases p f <;> cases p f' <;> simp
  · rw [heq, hout]
    cases p f <;> cases p f' <;> simp

theorem Exchanged.countP_mono (h : Exchanged s s' f f') {p : LeasedFrame → Bool}
    (hp : p f' = true → p f = true) : s'.frames.countP p ≤ s.frames.countP p := by
  have hle := h.countP_le p
  cases hbefore : p f with
  | true =>
    have := (p f').toNat_le
    rw [hbefore, Bool.toNat_true] at hle
    omega
  | false =>
    have hafter : p f' = false := Bool.eq_false_iff.mpr fun hc => by simp [hp hc] at hbefore
    rwa [hbefore, hafter, Bool.toNat_false, Nat.add_zero, Nat.add_zero] at hle

/-- Closing or reopening a queue, or pushing to it, lets go of at most the frame in it. -/
theorem evicted_cases {queued : LeasedFrame → Bool} {letGo : LeasedFrame → LeasedFrame}
    (hs : s.evict queued letGo = some s')
    (hlease : ∀ f, queued f = true →
      (letGo f).lease = { f.lease with copies := f.lease.copies - 1 }) :
    (s' = s ∧ ∀ f ∈ s.frames, queued f = false) ∨
      ∃ old, queued old = true ∧ Exchanged s s' old (letGo old) := by
  unfold evict at hs
  split at hs
  next hnone =>
    cases hs
    exact Or.inl ⟨rfl, fun f hf => by simpa using List.find?_eq_none.mp hnone f hf⟩
  next old hold =>
    have hqueued := List.find?_some hold
    exact Or.inr ⟨old, hqueued,
      exchanged_release (List.mem_of_find?_eq_some hold) hs (hlease old hqueued)⟩

theorem evictEncoder_cases (hs : s.evictEncoder = some s') :
    (s' = s ∧ ∀ f ∈ s.frames, f.encoder ≠ .queued) ∨
      ∃ old, old.encoder = .queued ∧ Exchanged s s' old { old with encoder := .gone } := by
  rcases evicted_cases hs fun f hf => LeasedFrame.lease_encoder_gone (by rw [beq_iff_eq.mp hf]; rfl)
    with ⟨hsame, hnone⟩ | ⟨old, hold, h⟩
  · exact Or.inl ⟨hsame, fun f hf => by simpa using hnone f hf⟩
  · exact Or.inr ⟨old, beq_iff_eq.mp hold, h⟩

theorem evictInference_cases (hs : s.evictInference = some s') :
    (s' = s ∧ ∀ f ∈ s.frames, f.inference ≠ .queued) ∨
      ∃ old, old.inference = .queued ∧ Exchanged s s' old { old with inference := .gone } := by
  rcases evicted_cases hs fun f hf =>
    LeasedFrame.lease_inference_gone (by rw [beq_iff_eq.mp hf]; rfl)
    with ⟨hsame, hnone⟩ | ⟨old, hold, h⟩
  · exact Or.inl ⟨hsame, fun f hf => by simpa using hnone f hf⟩
  · exact Or.inr ⟨old, beq_iff_eq.mp hold, h⟩

/-- A step of the camera takes no lease away, and builds one at most. -/
theorem cameraStep_cases {action : CameraAction} (hs : s.cameraStep action = some s') :
    s'.bufferCount = s.bufferCount ∧ s'.encoder = s.encoder ∧ s'.inference = s.inference ∧
      s.camera.step action = some s'.camera ∧
      (s'.frames = s.frames ∧ s'.camera.leases = s.camera.leases ∨
        ∃ request, s'.frames = { request } :: s.frames ∧
          s'.camera.leases = { request } :: s.camera.leases) := by
  have hplain : ∀ {action' : CameraAction},
      (s.camera.step action').map (fun camera => { s with camera }) = some s' →
      (∀ camera, s.camera.step action' = some camera → camera.leases = s.camera.leases) →
      s'.bufferCount = s.bufferCount ∧ s'.encoder = s.encoder ∧ s'.inference = s.inference ∧
        s.camera.step action' = some s'.camera ∧ s'.frames = s.frames ∧
        s'.camera.leases = s.camera.leases := by
    intro action' hs hleases
    obtain ⟨camera, hcamera, rfl⟩ := Option.map_eq_some_iff.mp hs
    exact ⟨rfl, rfl, rfl, hcamera, rfl, hleases camera hcamera⟩
  cases action with
  | delivered lease throws => cases hs
  | copy lease => cases hs
  | drop lease => cases hs
  | callback callback =>
    obtain ⟨camera, hcamera, rfl⟩ := Option.map_eq_some_iff.mp hs
    refine ⟨rfl, rfl, rfl, hcamera, ?_⟩
    obtain ⟨-, hcamera⟩ := Option.ite_none_right_eq_some.mp hcamera
    cases hcamera
    obtain ⟨request, stage⟩ := callback
    cases stage with
    | building => exact Or.inr ⟨request, rfl, rfl⟩
    | entered outcome =>
      refine Or.inl ⟨rfl, ?_⟩
      simp only [advance]
      split
      · rfl
      · cases outcome <;> rfl
    | _ => exact Or.inl ⟨rfl, rfl⟩
  | _ =>
    obtain ⟨hcount, hencoder, hinference, hcamera, hframes, hleases⟩ := hplain hs
      fun camera hcamera => by
        cases stepped_of_step hcamera <;> rfl
    exact ⟨hcount, hencoder, hinference, hcamera, Or.inl ⟨hframes, hleases⟩⟩

end FramePipeline

end EggVision
