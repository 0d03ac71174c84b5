import EggVision.Camera.Consumers
import EggVision.Rtsp.Epochs

/-!
# Stages that are started again

Each owner of a `LatestFrameQueue` has a consumer loop that ends when the queue is closed, and a
`stop` that closes it. A stage that is started again must open the queue before its loop looks at
it. `RtspServer::start` and `H264Encoder::start` reopen it; `InferenceWorker::start` does not.

The two consumers of frames are those of `FramePipeline`. To their calls are added the ones that
find nothing to do, the two `initialize`, and whether a `start` has returned true since the last
`stop` or failure. A call waits for the one before it: the encoder has a mutex for that, and the
worker a single owner.

## Main definitions

* `Stages.step` — the consumers of frames, with the results of their calls.
* `Stages.Consumes`, `RtspServer.Consumes` — after a successful `start`, the queue is open and the
  loop has not ended.
* `Stages.Startable` — a call that does not start the worker a second time, or find it without a
  thread.

## Main results

* `Stages.encoderInv_of_reachable` — the encoder consumes after every successful `start`.
* `Stages.inferenceInv_of_reachable` — where a running worker may lack its loop.
* `RtspServer.consumes_of_reachable` — the RTSP server consumes after every successful `start`.
* `consumes_iff` — when restarted stages consume frames again.
-/

namespace EggVision

open Transition CameraCapture

def InputPhase.alive : InputPhase → Bool
  | .checking | .popping | .making => true
  | .absent | .exited => false

def InferencePhase.alive : InferencePhase → Bool
  | .checking | .popping | .working => true
  | .absent | .exited => false

def FeederPhase.alive : FeederPhase → Bool
  | .absent | .exited => false
  | .starting | .checking | .popping | .popped _ | .offering _ | .recording _ _ => true

/-! ### The consumers of frames and their calls -/

/-- `encoderInitialized` is `initialized_` with the pipeline it stands for; inference is enabled. A
stage is up from the moment when its `start` returns true, until `stop` is called or it fails. The
last two fields say that `stop` has ended an epoch of the worker before, and that `std::thread`
threw in its last `start`. -/
structure Stages where
  pipeline : FramePipeline
  encoderInitialized : Bool := false
  encoderUp : Bool := false
  inferenceInitialized : Bool := false
  inferenceUp : Bool := false
  inferenceStopped : Bool := false
  inferenceThreadless : Bool := false
deriving DecidableEq, Repr

/-- A step of the pipeline, or a call. -/
inductive StageAction
  | frame (action : FrameAction)
  | initializeEncoder (ok : Bool)
  | startEncoder
  | initializeInference (ok : Bool)
  | startInference
deriving DecidableEq, Repr

namespace Stages

def initial (bufferCount : UInt32) (count : ℕ) : Stages where
  pipeline := .initial bufferCount count

/-- The steps with which `start` returns true, and those with which a stage ceases to be up:
`stop` is called, or the bus reports an error. `stop` of the encoder also releases the pipeline. -/
def mark (s : Stages) (pipeline : FramePipeline) : FrameAction → Stages
  | .encoderOwner ok =>
    { s with
      pipeline
      encoderUp := if s.pipeline.encoder.owner = .spawningRest then ok else s.encoderUp }
  | .inferenceOwner ok =>
    { s with
      pipeline
      inferenceUp := if s.pipeline.inference.owner = .spawning then ok else s.inferenceUp
      inferenceThreadless :=
        if s.pipeline.inference.owner = .spawning then !ok else s.inferenceThreadless }
  | .stopEncoder => { s with pipeline, encoderInitialized := false, encoderUp := false }
  | .stopInference =>
    { s with
      pipeline
      inferenceUp := false
      inferenceStopped := true
      inferenceThreadless := false }
  | .bus error =>
    { s with
      pipeline
      encoderUp := s.encoderUp && !(error && decide (s.pipeline.encoder.bus = .watching) &&
        s.pipeline.encoder.running) }
  | _ => { s with pipeline }

def step (s : Stages) : StageAction → Option Stages
  | .frame .startEncoder => none
  | .frame .startInference => none
  | .frame .stopInference =>
    if s.pipeline.inference.owner = .idle ∧ s.pipeline.inference.running = false then some s
    else (s.pipeline.step .stopInference).map fun pipeline => s.mark pipeline .stopInference
  | .frame action => (s.pipeline.step action).map fun pipeline => s.mark pipeline action
  | .initializeEncoder ok =>
    if s.pipeline.encoder.owner = .idle then
      some { s with encoderInitialized := s.encoderInitialized || ok }
    else none
  | .startEncoder =>
    if s.pipeline.encoder.owner = .idle then
      if !s.encoderInitialized then some s
      else if s.pipeline.encoder.running then some { s with encoderUp := true }
      else (s.pipeline.step .startEncoder).map fun pipeline => { s with pipeline }
    else none
  | .initializeInference ok =>
    if s.pipeline.inference.owner = .idle then
      some { s with inferenceInitialized := s.inferenceInitialized || ok }
    else none
  | .startInference =>
    if s.pipeline.inference.owner = .idle then
      if !s.inferenceInitialized then some s
      else if s.pipeline.inference.running then some { s with inferenceUp := true }
      else (s.pipeline.step .startInference).map fun pipeline => { s with pipeline }
    else none

/-- The encoder's queue is open, `inputLoop` has not ended, and a frame that is pushed is queued. -/
def EncoderConsumes (s : Stages) : Prop :=
  s.encoderUp = true →
    s.pipeline.encoder.closed = false ∧ s.pipeline.encoder.input.alive = true ∧
      ∀ f pipeline, f.encoder = .pushing → s.pipeline.submit f = some pipeline →
        { f with encoder := .queued } ∈ pipeline.frames

/-- The worker's queue is open, `workerLoop` has not ended, and a frame that is pushed is queued. -/
def InferenceConsumes (s : Stages) : Prop :=
  s.inferenceUp = true →
    s.pipeline.inference.closed = false ∧ s.pipeline.inference.worker.alive = true ∧
      ∀ f pipeline, f.inference = .pushing → s.pipeline.offer f = some pipeline →
        { f with inference := .queued } ∈ pipeline.frames

def Consumes (s : Stages) : Prop := s.EncoderConsumes ∧ s.InferenceConsumes

/-- A `start` of the worker creates its thread in its first epoch only, and none is called after one
that could not create it. -/
def Startable (s : Stages) (a : StageAction) : Prop :=
  (a = .frame (.inferenceOwner true) → s.pipeline.inference.owner = .spawning →
    s.inferenceStopped = false) ∧
  (a = .startInference → s.inferenceInitialized = true → s.inferenceThreadless = false)

instance (s : Stages) (a : StageAction) : Decidable (s.Startable a) :=
  inferInstanceAs (Decidable (_ ∧ _))

end Stages

namespace FramePipeline

variable {s s' : FramePipeline} {f f' : LeasedFrame}

/-! ### What the steps of a frame leave alone -/

theorem settle_consumers {action : CameraAction} (hs : s.settle action f f' = some s') :
    s'.encoder = s.encoder ∧ s'.inference = s.inference := by
  obtain ⟨_, -, rfl⟩ := Option.map_eq_some_iff.mp hs
  exact ⟨rfl, rfl⟩

theorem evict_consumers {queued : LeasedFrame → Bool} {letGo : LeasedFrame → LeasedFrame}
    (hs : s.evict queued letGo = some s') :
    s'.encoder = s.encoder ∧ s'.inference = s.inference := by
  unfold evict at hs
  split at hs
  · cases hs
    exact ⟨rfl, rfl⟩
  · exact settle_consumers hs

/-- `submit` of the encoder counts the frames that it refuses. -/
theorem submit_consumers (hs : s.submit f = some s') :
    (∃ dropped, s'.encoder = { s.encoder with dropped }) ∧ s'.inference = s.inference := by
  obtain ⟨-, hs⟩ := Option.ite_none_right_eq_some.mp hs
  split at hs
  · cases hs
    exact ⟨⟨_, rfl⟩, rfl⟩
  · split at hs
    · cases hs
      exact ⟨⟨_, rfl⟩, rfl⟩
    · cases hs
      exact ⟨⟨_, rfl⟩, rfl⟩
  · split at hs
    · cases hs
      exact ⟨⟨_, rfl⟩, rfl⟩
    · obtain ⟨mid, hmid, rfl⟩ := Option.map_eq_some_iff.mp hs
      obtain ⟨evicted, hevict, hhold⟩ := Option.bind_eq_some_iff.mp hmid
      obtain ⟨hencoder, hinference⟩ := settle_consumers hhold
      obtain ⟨hencoder', hinference'⟩ := evict_consumers hevict
      refine ⟨⟨s.encoder.dropped + (s.frames.any fun f => f.encoder == .queued).toNat, ?_⟩,
        hinference.trans hinference'⟩
      simp only [hencoder, hencoder']
  all_goals cases hs

/-- So does that of the worker. -/
theorem offer_consumers (hs : s.offer f = some s') :
    s'.encoder = s.encoder ∧ ∃ dropped, s'.inference = { s.inference with dropped } := by
  obtain ⟨-, hs⟩ := Option.ite_none_right_eq_some.mp hs
  split at hs
  · cases hs
    exact ⟨rfl, _, rfl⟩
  · split at hs
    · cases hs
      exact ⟨rfl, _, rfl⟩
    · obtain ⟨mid, hmid, rfl⟩ := Option.map_eq_some_iff.mp hs
      obtain ⟨evicted, hevict, hhold⟩ := Option.bind_eq_some_iff.mp hmid
      obtain ⟨hencoder, hinference⟩ := settle_consumers hhold
      obtain ⟨hencoder', hinference'⟩ := evict_consumers hevict
      refine ⟨hencoder.trans hencoder',
        s.inference.dropped + (s.frames.any fun f => f.inference == .queued).toNat, ?_⟩
      simp only [hinference, hinference']
  all_goals cases hs

/-- An open queue takes the frame. -/
theorem submit_queued (hopen : s.encoder.closed = false) (hpart : f.encoder = .pushing)
    (hs : s.submit f = some s') : { f with encoder := .queued } ∈ s'.frames := by
  obtain ⟨-, hs⟩ := Option.ite_none_right_eq_some.mp hs
  simp only [hpart, hopen, Bool.false_eq_true, if_false] at hs
  obtain ⟨mid, hmid, rfl⟩ := Option.map_eq_some_iff.mp hs
  obtain ⟨_, -, hhold⟩ := Option.bind_eq_some_iff.mp hmid
  obtain ⟨_, -, rfl⟩ := Option.map_eq_some_iff.mp hhold
  have howned : { f with encoder := .queued }.lease.owned = true := by
    have hlease : { f with encoder := .queued }.lease = _ :=
      LeasedFrame.lease_encoder_queued (by rw [hpart]; rfl)
    simp [hlease, Lease.owned]
  simp [exchange, howned]

theorem offer_queued (hopen : s.inference.closed = false) (hpart : f.inference = .pushing)
    (hs : s.offer f = some s') : { f with inference := .queued } ∈ s'.frames := by
  obtain ⟨-, hs⟩ := Option.ite_none_right_eq_some.mp hs
  simp only [hpart, hopen, Bool.false_eq_true, if_false] at hs
  obtain ⟨mid, hmid, rfl⟩ := Option.map_eq_some_iff.mp hs
  obtain ⟨_, -, hhold⟩ := Option.bind_eq_some_iff.mp hmid
  obtain ⟨_, -, rfl⟩ := Option.map_eq_some_iff.mp hhold
  have howned : { f with inference := .queued }.lease.owned = true := by
    have hlease : { f with inference := .queued }.lease = _ :=
      LeasedFrame.lease_inference_queued (by rw [hpart]; rfl)
    simp [hlease, Lease.owned]
  simp [exchange, howned]

/-! ### What the threads do -/

/-- `inputLoop` ends when it finds `running_` reset or the queue closed. -/
theorem inputStep_consumers {made pushed : Bool} (hs : s.inputStep made pushed = some s') :
    (∃ input errors, s'.encoder = { s.encoder with input, errors } ∧ input ≠ .absent ∧
      s.encoder.input ≠ .absent ∧
      (s.encoder.running = true → s.encoder.closed = false → input.alive = true)) ∧
      s'.inference = s.inference := by
  unfold inputStep at hs
  cases hinput : s.encoder.input with
  | absent => simp [hinput] at hs
  | exited => simp [hinput] at hs
  | checking =>
    simp only [hinput, Option.some.injEq] at hs
    subst hs
    refine ⟨⟨if s.encoder.running then .popping else .exited, s.encoder.errors, rfl, ?_, by simp,
      fun hrunning _ => ?_⟩, rfl⟩
    · split <;> simp
    · rw [if_pos hrunning]
      rfl
  | popping =>
    simp only [hinput] at hs
    split at hs
    · cases hs
      exact ⟨⟨.making, s.encoder.errors, rfl, by simp, by simp, fun _ _ => rfl⟩, rfl⟩
    · split at hs
      · rename_i hclosed
        cases hs
        exact ⟨⟨.exited, s.encoder.errors, rfl, by simp, by simp,
          fun _ hopen => by simp [hclosed] at hopen⟩, rfl⟩
      · cases hs
  | making =>
    simp only [hinput] at hs
    split at hs
    · cases hs
    · split at hs
      · cases hs
        exact ⟨⟨.checking, s.encoder.errors + (!pushed).toNat, rfl, by simp, by simp,
          fun _ _ => rfl⟩, rfl⟩
      · obtain ⟨mid, hmid, rfl⟩ := Option.map_eq_some_iff.mp hs
        obtain ⟨hencoder, hinference⟩ := settle_consumers hmid
        exact ⟨⟨.checking, s.encoder.errors + 1, by simp only [hencoder], by simp, by simp,
          fun _ _ => rfl⟩, hinference⟩

/-- What `busLoop` does: nothing while it waits, and `running_ = false` and `close` for an
error. -/
theorem busStep_consumers {error : Bool} (hs : s.busStep error = some s') :
    (∃ running closed errors bus, s'.encoder = { s.encoder with running, closed, errors, bus } ∧
      ((s.encoder.bus = .watching ∧ s.encoder.running = true ∧ error = true ∧ running = false ∧
          closed = s.encoder.closed) ∨
        (s.encoder.bus = .watching ∧ s.encoder.running = true ∧ error = false ∧ running = true ∧
          closed = s.encoder.closed ∧ bus = .watching) ∨
        (s.encoder.bus = .watching ∧ s.encoder.running = false ∧ running = false ∧
          closed = s.encoder.closed) ∨
        (s.encoder.bus = .closing ∧ running = s.encoder.running))) ∧
      s'.inference = s.inference := by
  unfold busStep at hs
  cases hbus : s.encoder.bus with
  | absent => simp [hbus] at hs
  | exited => simp [hbus] at hs
  | watching =>
    simp only [hbus] at hs
    split at hs
    · rename_i hrunning
      split at hs
      · rename_i herror
        cases hs
        exact ⟨⟨false, s.encoder.closed, s.encoder.errors + 1, .closing, rfl,
          .inl ⟨rfl, hrunning, herror, rfl, rfl⟩⟩, rfl⟩
      · rename_i herror
        cases hs
        exact ⟨⟨s.encoder.running, s.encoder.closed, s.encoder.errors, s.encoder.bus, rfl,
          .inr (.inl ⟨rfl, hrunning, by simpa using herror, hrunning, rfl, hbus⟩)⟩, rfl⟩
    · rename_i hrunning
      cases hs
      have hstopped : s.encoder.running = false := by simpa using hrunning
      exact ⟨⟨s.encoder.running, s.encoder.closed, s.encoder.errors, .exited, rfl,
        .inr (.inr (.inl ⟨rfl, hstopped, hstopped, rfl⟩))⟩, rfl⟩
  | closing =>
    simp only [hbus] at hs
    obtain ⟨mid, hmid, rfl⟩ := Option.map_eq_some_iff.mp hs
    obtain ⟨hencoder, hinference⟩ := evict_consumers hmid
    exact ⟨⟨s.encoder.running, true, s.encoder.errors, .watching, by simp only [hencoder],
      .inr (.inr (.inr ⟨rfl, rfl⟩))⟩, hinference⟩

/-- `workerLoop` ends when it finds `running_` reset or the queue closed. -/
theorem workerStep_consumers (hs : s.workerStep = some s') :
    s'.encoder = s.encoder ∧
      ∃ worker, s'.inference = { s.inference with worker } ∧ worker ≠ .absent ∧
        s.inference.worker ≠ .absent ∧
        (s.inference.running = true → s.inference.closed = false → worker.alive = true) := by
  unfold workerStep at hs
  cases hworker : s.inference.worker with
  | absent => simp [hworker] at hs
  | exited => simp [hworker] at hs
  | checking =>
    simp only [hworker, Option.some.injEq] at hs
    subst hs
    refine ⟨rfl, if s.inference.running then .popping else .exited, rfl, ?_, by simp,
      fun hrunning _ => ?_⟩
    · split <;> simp
    · rw [if_pos hrunning]
      rfl
  | popping =>
    simp only [hworker] at hs
    split at hs
    · cases hs
      exact ⟨rfl, .working, rfl, by simp, by simp, fun _ _ => rfl⟩
    · split at hs
      · rename_i hclosed
        cases hs
        exact ⟨rfl, .exited, rfl, by simp, by simp,
          fun _ hopen => by simp [hclosed] at hopen⟩
      · cases hs
  | working =>
    simp only [hworker] at hs
    split at hs
    · cases hs
    · obtain ⟨mid, hmid, rfl⟩ := Option.map_eq_some_iff.mp hs
      obtain ⟨hencoder, hinference⟩ := settle_consumers hmid
      exact ⟨hencoder, .checking, by simp only [hinference], by simp, by simp, fun _ _ => rfl⟩

/-- The steps of `start` and `stop` of the encoder leave the worker alone. -/
theorem encoderOwner_inference {ok : Bool} (hs : s.encoderOwnerStep ok = some s') :
    s'.inference = s.inference := by
  unfold encoderOwnerStep at hs
  split at hs
  · cases hs
  · obtain ⟨mid, hmid, rfl⟩ := Option.map_eq_some_iff.mp hs
    exact (evict_consumers hmid).2
  · cases hs
    rfl
  · obtain ⟨-, ⟨⟩⟩ := Option.ite_none_right_eq_some.mp hs
    rfl
  · obtain ⟨-, ⟨⟩⟩ := Option.ite_none_right_eq_some.mp hs
    rfl
  · obtain ⟨mid, hmid, rfl⟩ := Option.map_eq_some_iff.mp hs
    exact (evict_consumers hmid).2
  · obtain ⟨-, ⟨⟩⟩ := Option.ite_none_right_eq_some.mp hs
    rfl

/-- Those of the worker leave the encoder alone. -/
theorem inferenceOwner_encoder {ok : Bool} (hs : s.inferenceOwnerStep ok = some s') :
    s'.encoder = s.encoder := by
  unfold inferenceOwnerStep at hs
  split at hs
  · cases hs
  · obtain ⟨-, ⟨⟩⟩ := Option.ite_none_right_eq_some.mp hs
    rfl
  · obtain ⟨mid, hmid, rfl⟩ := Option.map_eq_some_iff.mp hs
    exact (evict_consumers hmid).1
  · obtain ⟨-, ⟨⟩⟩ := Option.ite_none_right_eq_some.mp hs
    rfl

/-- The creation of the worker's thread. -/
theorem inferenceOwner_spawning {ok : Bool} (hs : s.inferenceOwnerStep ok = some s')
    (howner : s.inference.owner = .spawning) :
    s'.inference = { s.inference with
      worker := if ok then .checking else .absent
      owner := .idle } := by
  simp only [inferenceOwnerStep, howner] at hs
  obtain ⟨-, ⟨⟩⟩ := Option.ite_none_right_eq_some.mp hs
  rfl

/-- The encoder's fields are those of its own steps; the other steps count at most a refused frame,
and do not say whether it is up. -/
theorem step_encoder {action : FrameAction} (hs : s.step action = some s') :
    ((∃ dropped, s'.encoder = { s.encoder with dropped }) ∧
        ∀ (t : Stages) pipeline, (t.mark pipeline action).encoderUp = t.encoderUp) ∨
      (∃ made pushed, action = .input made pushed) ∨ (∃ error, action = .bus error) ∨
      action = .startEncoder ∨ action = .stopEncoder ∨ ∃ ok, action = .encoderOwner ok := by
  have hsame : s'.encoder = s.encoder → ∃ dropped, s'.encoder = { s.encoder with dropped } :=
    fun heq => ⟨_, heq⟩
  cases action with
  | camera action => exact .inl ⟨hsame (cameraStep_cases hs).2.1, fun _ _ => rfl⟩
  | submit f => exact .inl ⟨(submit_consumers hs).1, fun _ _ => rfl⟩
  | offer f => exact .inl ⟨hsame (offer_consumers hs).1, fun _ _ => rfl⟩
  | delivered f throws =>
    obtain ⟨-, hs⟩ := Option.ite_none_right_eq_some.mp hs
    exact .inl ⟨hsame (settle_consumers hs).1, fun _ _ => rfl⟩
  | input made pushed => exact .inr (.inl ⟨made, pushed, rfl⟩)
  | destroy f =>
    obtain ⟨-, hs⟩ := Option.ite_none_right_eq_some.mp hs
    exact .inl ⟨hsame (settle_consumers hs).1, fun _ _ => rfl⟩
  | bus error => exact .inr (.inr (.inl ⟨error, rfl⟩))
  | startEncoder => exact .inr (.inr (.inr (.inl rfl)))
  | stopEncoder => exact .inr (.inr (.inr (.inr (.inl rfl))))
  | encoderOwner ok => exact .inr (.inr (.inr (.inr (.inr ⟨ok, rfl⟩))))
  | worker => exact .inl ⟨hsame (workerStep_consumers hs).1, fun _ _ => rfl⟩
  | startInference =>
    obtain ⟨-, ⟨⟩⟩ := Option.ite_none_right_eq_some.mp hs
    exact .inl ⟨hsame rfl, fun _ _ => rfl⟩
  | stopInference =>
    obtain ⟨-, ⟨⟩⟩ := Option.ite_none_right_eq_some.mp hs
    exact .inl ⟨hsame rfl, fun _ _ => rfl⟩
  | inferenceOwner ok => exact .inl ⟨hsame (inferenceOwner_encoder hs), fun _ _ => rfl⟩

/-- The same for the worker. -/
theorem step_inference {action : FrameAction} (hs : s.step action = some s') :
    ((∃ dropped, s'.inference = { s.inference with dropped }) ∧
        ∀ (t : Stages) pipeline, t.mark pipeline action = { t.mark pipeline action with
          inferenceUp := t.inferenceUp
          inferenceStopped := t.inferenceStopped
          inferenceThreadless := t.inferenceThreadless }) ∨
      action = .worker ∨ action = .startInference ∨ action = .stopInference ∨
      ∃ ok, action = .inferenceOwner ok := by
  have hsame : s'.inference = s.inference →
      ∃ dropped, s'.inference = { s.inference with dropped } := fun heq => ⟨_, heq⟩
  cases action with
  | camera action => exact .inl ⟨hsame (cameraStep_cases hs).2.2.1, fun _ _ => rfl⟩
  | submit f => exact .inl ⟨hsame (submit_consumers hs).2, fun _ _ => rfl⟩
  | offer f => exact .inl ⟨(offer_consumers hs).2, fun _ _ => rfl⟩
  | delivered f throws =>
    obtain ⟨-, hs⟩ := Option.ite_none_right_eq_some.mp hs
    exact .inl ⟨hsame (settle_consumers hs).2, fun _ _ => rfl⟩
  | input made pushed => exact .inl ⟨hsame (inputStep_consumers hs).2, fun _ _ => rfl⟩
  | destroy f =>
    obtain ⟨-, hs⟩ := Option.ite_none_right_eq_some.mp hs
    exact .inl ⟨hsame (settle_consumers hs).2, fun _ _ => rfl⟩
  | bus error => exact .inl ⟨hsame (busStep_consumers hs).2, fun _ _ => rfl⟩
  | startEncoder =>
    obtain ⟨-, ⟨⟩⟩ := Option.ite_none_right_eq_some.mp hs
    exact .inl ⟨hsame rfl, fun _ _ => rfl⟩
  | stopEncoder =>
    obtain ⟨-, ⟨⟩⟩ := Option.ite_none_right_eq_some.mp hs
    exact .inl ⟨hsame rfl, fun _ _ => rfl⟩
  | encoderOwner ok => exact .inl ⟨hsame (encoderOwner_inference hs), fun _ _ => rfl⟩
  | worker => exact .inr (.inl rfl)
  | startInference => exact .inr (.inr (.inl rfl))
  | stopInference => exact .inr (.inr (.inr (.inl rfl)))
  | inferenceOwner ok => exact .inr (.inr (.inr (.inr ⟨ok, rfl⟩)))

end FramePipeline

/-! ### The encoder -/

/-- `start` of the encoder has not created a thread yet. -/
def EncoderOwner.starting : EncoderOwner → Bool
  | .reopening | .playing | .spawningInput => true
  | .idle | .spawningRest | .closing | .joining => false

/-- `start` has failed, or `stop` has been called. -/
def EncoderOwner.ending : EncoderOwner → Bool
  | .closing | .joining => true
  | .idle | .reopening | .playing | .spawningInput | .spawningRest => false

/-- What holds of an encoder that is `up`, or is not. A `start` that finds the thread of the last
one not joined does not come past the creation of its own. -/
structure EncoderInv (up : Bool) (e : H264Encoder) : Prop where
  linked : e.input = .absent → e.bus = .absent
  settled : up = true → e.owner = .idle ∧ e.running = true
  idle : e.owner = .idle → e.running = true →
    up = true ∧ e.closed = false ∧ e.input.alive = true ∧ e.bus = .watching
  starting : e.owner.starting = true → e.input = .absent →
    e.running = true ∧ (e.owner ≠ .reopening → e.closed = false)
  spawning : e.owner = .spawningRest →
    e.running = true ∧ e.closed = false ∧ e.input.alive = true ∧ e.bus = .absent
  ending : e.owner.ending = true → e.running = false

namespace EncoderInv

variable {up : Bool} {e : H264Encoder} {s s' : FramePipeline}

theorem initial : EncoderInv false {} where
  linked := fun _ => rfl
  settled := by rintro ⟨⟩
  idle := by rintro - ⟨⟩
  starting := by rintro ⟨⟩
  spawning := by rintro ⟨⟩
  ending := by rintro ⟨⟩

/-- Up is the encoder exactly between a `start` that has returned true and the end. -/
theorem consumes (h : EncoderInv up e) (hup : up = true) :
    e.closed = false ∧ e.input.alive = true := by
  obtain ⟨howner, hrunning⟩ := h.settled hup
  obtain ⟨-, hopen, halive, -⟩ := h.idle howner hrunning
  exact ⟨hopen, halive⟩

theorem eq_false (h : EncoderInv up e) (howner : e.owner ≠ .idle) : up = false :=
  Bool.eq_false_iff.mpr fun hup => howner (h.settled hup).1

theorem counted (h : EncoderInv up e) (dropped : ℕ) : EncoderInv up { e with dropped } :=
  { h with }

/-- `inputLoop` goes on while the encoder is up. -/
theorem inputStep (h : EncoderInv up s.encoder) {made pushed : Bool}
    (hs : s.inputStep made pushed = some s') : EncoderInv up s'.encoder := by
  obtain ⟨⟨input, errors, heq, hinput, -, halive⟩, -⟩ := FramePipeline.inputStep_consumers hs
  rw [heq]
  exact {
    linked := fun habsent => absurd habsent hinput
    settled := h.settled
    idle := fun howner hrunning => by
      obtain ⟨hup, hopen, -, hbus⟩ := h.idle howner hrunning
      exact ⟨hup, hopen, halive hrunning hopen, hbus⟩
    starting := fun _ habsent => absurd habsent hinput
    spawning := fun howner => by
      obtain ⟨hrunning, hopen, -, hbus⟩ := h.spawning howner
      exact ⟨hrunning, hopen, halive hrunning hopen, hbus⟩
    ending := h.ending }

/-- `busLoop` closes the queue of an encoder that is not up any more. -/
theorem busStep (h : EncoderInv up s.encoder) {error : Bool} (hs : s.busStep error = some s') :
    EncoderInv (up && !(error && decide (s.encoder.bus = .watching) && s.encoder.running))
      s'.encoder := by
  obtain ⟨⟨running, closed, errors, bus, heq, hcase⟩, -⟩ := FramePipeline.busStep_consumers hs
  have hbus : s.encoder.bus ≠ .absent := by
    rcases hcase with ⟨hbus, -⟩ | ⟨hbus, -⟩ | ⟨hbus, -⟩ | ⟨hbus, -⟩ <;> simp [hbus]
  have hinput : s.encoder.input ≠ .absent := fun habsent => hbus (h.linked habsent)
  have hspawning : s.encoder.owner ≠ .spawningRest := fun howner =>
    hbus (h.spawning howner).2.2.2
  rw [heq]
  rcases hcase with ⟨hwatching, hran, rfl, rfl, rfl⟩ | ⟨hwatching, hran, rfl, rfl, rfl, rfl⟩ |
    ⟨hwatching, hran, rfl, rfl⟩ | ⟨hclosing, rfl⟩
  · rw [hwatching, hran]
    exact {
      linked := fun habsent => absurd habsent hinput
      settled := by cases up <;> rintro ⟨⟩
      idle := by rintro - ⟨⟩
      starting := fun _ habsent => absurd habsent hinput
      spawning := fun howner => absurd howner hspawning
      ending := fun _ => rfl }
  · have hsame : (up && !(false && decide (s.encoder.bus = .watching) && s.encoder.running)) =
        up := by simp
    rw [hsame]
    exact {
      linked := fun habsent => absurd habsent hinput
      settled := fun hup => ⟨(h.settled hup).1, rfl⟩
      idle := fun howner _ => by
        obtain ⟨hup, hopen, halive, -⟩ := h.idle howner hran
        exact ⟨hup, hopen, halive, rfl⟩
      starting := fun _ habsent => absurd habsent hinput
      spawning := fun howner => absurd howner hspawning
      ending := fun hending => by rw [← hran]; exact h.ending hending }
  · have hdown : up = false := Bool.eq_false_iff.mpr fun hup => by
      rw [(h.settled hup).2] at hran
      cases hran
    rw [hdown]
    exact {
      linked := fun habsent => absurd habsent hinput
      settled := by rintro ⟨⟩
      idle := by rintro - ⟨⟩
      starting := fun _ habsent => absurd habsent hinput
      spawning := fun howner => absurd howner hspawning
      ending := fun _ => rfl }
  · have hdown : up = false := Bool.eq_false_iff.mpr fun hup => by
      obtain ⟨howner, hrunning⟩ := h.settled hup
      rw [(h.idle howner hrunning).2.2.2] at hclosing
      cases hclosing
    rw [hdown]
    exact {
      linked := fun habsent => absurd habsent hinput
      settled := by rintro ⟨⟩
      idle := fun howner hrunning => by
        rw [(h.idle howner hrunning).2.2.2] at hclosing
        cases hclosing
      starting := fun _ habsent => absurd habsent hinput
      spawning := fun howner => absurd howner hspawning
      ending := h.ending }

/-- `start` sets `running_`. -/
theorem start (h : EncoderInv up e) (hrunning : e.running = false) :
    EncoderInv up { e with running := true, owner := .reopening } where
  linked := h.linked
  settled := fun hup => by
    rw [(h.settled hup).2] at hrunning
    cases hrunning
  idle := by rintro ⟨⟩
  starting := fun _ _ => ⟨rfl, fun hne => absurd rfl hne⟩
  spawning := by rintro ⟨⟩
  ending := by rintro ⟨⟩

/-- `stop`, and a `start` that fails once it has a thread. -/
theorem ended (h : EncoderInv up e) (errors : ℕ) :
    EncoderInv false { e with running := false, errors, owner := .closing } where
  linked := h.linked
  settled := by rintro ⟨⟩
  idle := by rintro ⟨⟩
  starting := by rintro ⟨⟩
  spawning := by rintro ⟨⟩
  ending := fun _ => rfl

/-- `start` has reopened the queue. -/
theorem reopened (h : EncoderInv false e) (howner : e.owner = .reopening) :
    EncoderInv false { e with closed := false, owner := .playing } where
  linked := h.linked
  settled := by rintro ⟨⟩
  idle := by rintro ⟨⟩
  starting := fun _ habsent => ⟨(h.starting (by rw [howner]; rfl) habsent).1, fun _ => rfl⟩
  spawning := by rintro ⟨⟩
  ending := by rintro ⟨⟩

/-- The pipeline plays. -/
theorem played (h : EncoderInv false e) (howner : e.owner = .playing) :
    EncoderInv false { e with owner := .spawningInput } where
  linked := h.linked
  settled := by rintro ⟨⟩
  idle := by rintro ⟨⟩
  starting := fun _ habsent => by
    obtain ⟨hrunning, hopen⟩ := h.starting (by rw [howner]; rfl) habsent
    exact ⟨hrunning, fun _ => hopen (by simp [howner])⟩
  spawning := by rintro ⟨⟩
  ending := by rintro ⟨⟩

/-- The pipeline does not play, and `start` returns false. -/
theorem unplayed (h : EncoderInv false e) (errors : ℕ) :
    EncoderInv false { e with running := false, errors, owner := .idle } where
  linked := h.linked
  settled := by rintro ⟨⟩
  idle := by rintro - ⟨⟩
  starting := by rintro ⟨⟩
  spawning := by rintro ⟨⟩
  ending := by rintro ⟨⟩

/-- `inputLoop` has a thread, and the queue is open. -/
theorem spawned (h : EncoderInv false e) (howner : e.owner = .spawningInput)
    (habsent : e.input = .absent) :
    EncoderInv false { e with input := .checking, owner := .spawningRest } where
  linked := by rintro ⟨⟩
  settled := by rintro ⟨⟩
  idle := by rintro ⟨⟩
  starting := by rintro ⟨⟩
  spawning := fun _ => by
    obtain ⟨hrunning, hopen⟩ := h.starting (by rw [howner]; rfl) habsent
    exact ⟨hrunning, hopen (by simp [howner]), rfl, h.linked habsent⟩
  ending := by rintro ⟨⟩

/-- `start` returns true. -/
theorem returned (h : EncoderInv up e) (howner : e.owner = .spawningRest) :
    EncoderInv true { e with bus := .watching, owner := .idle } := by
  obtain ⟨hrunning, hopen, halive, -⟩ := h.spawning howner
  refine ⟨fun habsent => ?_, fun _ => ⟨rfl, hrunning⟩, fun _ _ => ⟨rfl, hopen, halive, rfl⟩, ?_, ?_,
    ?_⟩
  · rw [show e.input = .absent from habsent] at halive
    cases halive
  · rintro ⟨⟩
  · rintro ⟨⟩
  · rintro ⟨⟩

/-- `stop` has closed the queue. -/
theorem closed (h : EncoderInv false e) (howner : e.owner = .closing) :
    EncoderInv false { e with closed := true, owner := .joining } where
  linked := h.linked
  settled := by rintro ⟨⟩
  idle := by rintro ⟨⟩
  starting := by rintro ⟨⟩
  spawning := by rintro ⟨⟩
  ending := fun _ => h.ending (by rw [howner]; rfl)

/-- `stop` has joined the threads. -/
theorem joined (h : EncoderInv false e) (howner : e.owner = .joining) :
    EncoderInv false { e with input := .absent, bus := .absent, owner := .idle } where
  linked := fun _ => rfl
  settled := by rintro ⟨⟩
  idle := fun _ hrunning => by
    have hended := h.ending (by rw [howner]; rfl)
    rw [show e.running = true from hrunning] at hended
    cases hended
  starting := by rintro ⟨⟩
  spawning := by rintro ⟨⟩
  ending := by rintro ⟨⟩

/-- The steps of `start` and `stop`. -/
theorem ownerStep (h : EncoderInv up s.encoder) {ok : Bool}
    (hs : s.encoderOwnerStep ok = some s') :
    EncoderInv (if s.encoder.owner = .spawningRest then ok else up) s'.encoder := by
  have hdown : s.encoder.owner ≠ .idle → EncoderInv false s.encoder := fun howner => by
    rw [← h.eq_false howner]
    exact h
  unfold FramePipeline.encoderOwnerStep at hs
  cases howner : s.encoder.owner with
  | idle => simp [howner] at hs
  | reopening =>
    simp only [howner] at hs
    obtain ⟨mid, hmid, rfl⟩ := Option.map_eq_some_iff.mp hs
    rw [(FramePipeline.evict_consumers hmid).1, h.eq_false (by simp [howner])]
    exact (hdown (by simp [howner])).reopened howner
  | playing =>
    simp only [howner, Option.some.injEq] at hs
    subst hs
    rw [h.eq_false (by simp [howner])]
    cases ok with
    | true => exact (hdown (by simp [howner])).played howner
    | false => exact (hdown (by simp [howner])).unplayed _
  | spawningInput =>
    simp only [howner] at hs
    obtain ⟨habsent, hs⟩ := Option.ite_none_right_eq_some.mp hs
    cases hs
    rw [h.eq_false (by simp [howner])]
    cases ok with
    | true => exact (hdown (by simp [howner])).spawned howner habsent
    | false => exact h.ended _
  | spawningRest =>
    simp only [howner] at hs
    obtain ⟨-, hs⟩ := Option.ite_none_right_eq_some.mp hs
    cases hs
    cases ok with
    | true => exact h.returned howner
    | false => exact h.ended _
  | closing =>
    simp only [howner] at hs
    obtain ⟨mid, hmid, rfl⟩ := Option.map_eq_some_iff.mp hs
    rw [(FramePipeline.evict_consumers hmid).1, h.eq_false (by simp [howner])]
    exact (hdown (by simp [howner])).closed howner
  | joining =>
    simp only [howner] at hs
    obtain ⟨-, hs⟩ := Option.ite_none_right_eq_some.mp hs
    cases hs
    rw [h.eq_false (by simp [howner])]
    exact (hdown (by simp [howner])).joined howner

end EncoderInv

/-! ### The worker -/

/-- `stop` has been called. -/
def InferenceOwner.ending : InferenceOwner → Bool
  | .closing | .joining => true
  | .idle | .spawning => false

/-- What holds of a worker that is `up`, or is not. -/
structure InferenceInv (up stopped threadless : Bool) (w : InferenceWorker) : Prop where
  settled : up = true → w.owner = .idle ∧ w.running = true
  idle : w.owner = .idle → w.running = true → up = true ∨ w.worker = .absent
  spawning : w.owner = .spawning → w.running = true
  ending : w.owner.ending = true → w.running = false ∧ stopped = true
  closed : w.owner.ending = false → w.closed = stopped
  joining : w.owner = .joining → w.closed = true
  lacking : threadless = true → w.owner = .idle ∧ w.running = true ∧ w.worker = .absent
  thread : w.owner = .idle → w.running = true → w.worker = .absent → threadless = true

namespace InferenceInv

variable {up stopped threadless : Bool} {w : InferenceWorker} {s s' : FramePipeline}

theorem initial : InferenceInv false false false {} where
  settled := by rintro ⟨⟩
  idle := by rintro - ⟨⟩
  spawning := by rintro ⟨⟩
  ending := by rintro ⟨⟩
  closed := fun _ => rfl
  joining := by rintro ⟨⟩
  lacking := by rintro ⟨⟩
  thread := by rintro - ⟨⟩

/-- While a call is in progress the worker is not up, and does not lack its thread for good. -/
theorem eq_false (h : InferenceInv up stopped threadless w) (howner : w.owner ≠ .idle) :
    up = false ∧ threadless = false :=
  ⟨Bool.eq_false_iff.mpr fun hup => howner (h.settled hup).1,
    Bool.eq_false_iff.mpr fun hless => howner (h.lacking hless).1⟩

theorem counted (h : InferenceInv up stopped threadless w) (dropped : ℕ) :
    InferenceInv up stopped threadless { w with dropped } :=
  { h with }

theorem workerStep (h : InferenceInv up stopped threadless s.inference)
    (hs : s.workerStep = some s') : InferenceInv up stopped threadless s'.inference := by
  obtain ⟨-, worker, heq, hworker, hpresent, -⟩ := FramePipeline.workerStep_consumers hs
  rw [heq]
  exact { h with
    idle := fun howner hrunning => .inl ((h.idle howner hrunning).resolve_right hpresent)
    lacking := fun hless => absurd (h.lacking hless).2.2 hpresent
    thread := fun _ _ habsent => absurd habsent hworker }

/-- `start` sets `running_`. -/
theorem start (h : InferenceInv up stopped threadless w) (howner : w.owner = .idle)
    (hrunning : w.running = false) :
    InferenceInv up stopped threadless { w with running := true, owner := .spawning } where
  settled := fun hup => by
    rw [(h.settled hup).2] at hrunning
    cases hrunning
  idle := by rintro ⟨⟩
  spawning := fun _ => rfl
  ending := by rintro ⟨⟩
  closed := fun _ => h.closed (by rw [howner]; rfl)
  joining := by rintro ⟨⟩
  lacking := fun hless => by
    rw [(h.lacking hless).2.1] at hrunning
    cases hrunning
  thread := by rintro ⟨⟩

/-- `start` finds `running_` set. -/
theorem found (h : InferenceInv up stopped threadless w) (howner : w.owner = .idle)
    (hrunning : w.running = true) : InferenceInv true stopped threadless w :=
  { h with
    settled := fun _ => ⟨howner, hrunning⟩
    idle := fun _ _ => .inl rfl }

/-- `stop` resets it. -/
theorem ended : InferenceInv false true false { w with running := false, owner := .closing } where
  settled := by rintro ⟨⟩
  idle := by rintro ⟨⟩
  spawning := by rintro ⟨⟩
  ending := fun _ => ⟨rfl, rfl⟩
  closed := by rintro ⟨⟩
  joining := by rintro ⟨⟩
  lacking := by rintro ⟨⟩
  thread := by rintro ⟨⟩

/-- The steps of `start` and `stop`. -/
theorem ownerStep (h : InferenceInv up stopped threadless s.inference) {ok : Bool}
    (hs : s.inferenceOwnerStep ok = some s') :
    InferenceInv (if s.inference.owner = .spawning then ok else up) stopped
      (if s.inference.owner = .spawning then !ok else threadless) s'.inference := by
  unfold FramePipeline.inferenceOwnerStep at hs
  cases howner : s.inference.owner with
  | idle => simp [howner] at hs
  | spawning =>
    simp only [howner] at hs
    obtain ⟨-, hs⟩ := Option.ite_none_right_eq_some.mp hs
    cases hs
    rw [if_pos rfl, if_pos rfl]
    have hrunning := h.spawning howner
    exact {
      settled := fun _ => ⟨rfl, hrunning⟩
      idle := fun _ _ => by cases ok <;> simp
      spawning := by rintro ⟨⟩
      ending := by rintro ⟨⟩
      closed := fun _ => h.closed (by rw [howner]; rfl)
      joining := by rintro ⟨⟩
      lacking := fun hless => ⟨rfl, hrunning, by cases ok <;> simp at hless ⊢⟩
      thread := fun _ _ => by cases ok <;> simp }
  | closing =>
    simp only [howner] at hs
    obtain ⟨mid, hmid, rfl⟩ := Option.map_eq_some_iff.mp hs
    obtain ⟨hdown, hthread⟩ := h.eq_false (by simp [howner])
    rw [(FramePipeline.evict_consumers hmid).2, hdown, hthread]
    exact {
      settled := by rintro ⟨⟩
      idle := by rintro ⟨⟩
      spawning := by rintro ⟨⟩
      ending := fun _ => h.ending (by rw [howner]; rfl)
      closed := by rintro ⟨⟩
      joining := fun _ => rfl
      lacking := by rintro ⟨⟩
      thread := by rintro ⟨⟩ }
  | joining =>
    simp only [howner] at hs
    obtain ⟨-, hs⟩ := Option.ite_none_right_eq_some.mp hs
    cases hs
    obtain ⟨hended, hstopped⟩ := h.ending (by rw [howner]; rfl)
    obtain ⟨hdown, hthread⟩ := h.eq_false (by simp [howner])
    rw [hdown, hthread]
    exact {
      settled := by rintro ⟨⟩
      idle := fun _ _ => .inr rfl
      spawning := by rintro ⟨⟩
      ending := by rintro ⟨⟩
      closed := fun _ => (h.joining howner).trans hstopped.symm
      joining := by rintro ⟨⟩
      lacking := by rintro ⟨⟩
      thread := fun _ hrunning => by
        rw [show s.inference.running = true from hrunning] at hended
        cases hended }

end InferenceInv

/-! ### Every run of the consumers of frames -/

namespace Stages

variable {s s' : Stages}

/-- A step of the pipeline, or a `stop` that has nothing to do. -/
theorem step_frame {action : FrameAction} (hs : s.step (.frame action) = some s') :
    (s' = s ∧ action = .stopInference) ∨ ∃ pipeline, s.pipeline.step action = some pipeline ∧
      s' = s.mark pipeline action ∧ action ≠ .startEncoder ∧ action ≠ .startInference := by
  have hmap : ∀ {action' : FrameAction}, action' ≠ .startEncoder → action' ≠ .startInference →
      (s.pipeline.step action').map (fun pipeline => s.mark pipeline action') = some s' →
      (s' = s ∧ action' = .stopInference) ∨ ∃ pipeline, s.pipeline.step action' = some pipeline ∧
        s' = s.mark pipeline action' ∧ action' ≠ .startEncoder ∧ action' ≠ .startInference := by
    intro action' hencoder hinference hs
    obtain ⟨pipeline, hpipeline, rfl⟩ := Option.map_eq_some_iff.mp hs
    exact .inr ⟨pipeline, hpipeline, rfl, hencoder, hinference⟩
  cases action with
  | startEncoder => cases hs
  | startInference => cases hs
  | stopInference =>
    simp only [step] at hs
    split at hs
    · cases hs
      exact .inl ⟨rfl, rfl⟩
    · exact hmap (by rintro ⟨⟩) (by rintro ⟨⟩) hs
  | _ => exact hmap (by rintro ⟨⟩) (by rintro ⟨⟩) hs

/-- `start` of the encoder returns false, finds `running_` set, or sets it. -/
theorem startEncoder_cases (hs : s.step .startEncoder = some s') :
    s.pipeline.encoder.owner = .idle ∧
      (s' = s ∨ (s.pipeline.encoder.running = true ∧ s' = { s with encoderUp := true }) ∨
        s.pipeline.encoder.running = false ∧ s' = { s with
          pipeline := { s.pipeline with
            encoder := { s.pipeline.encoder with running := true, owner := .reopening } } }) := by
  obtain ⟨howner, hs⟩ := Option.ite_none_right_eq_some.mp hs
  refine ⟨howner, ?_⟩
  split at hs
  · cases hs
    exact .inl rfl
  · split at hs
    next hrunning =>
      cases hs
      exact .inr (.inl ⟨hrunning, rfl⟩)
    next =>
      obtain ⟨pipeline, hpipeline, rfl⟩ := Option.map_eq_some_iff.mp hs
      obtain ⟨⟨-, hstopped⟩, ⟨⟩⟩ := Option.ite_none_right_eq_some.mp hpipeline
      exact .inr (.inr ⟨hstopped, rfl⟩)

/-- So does `start` of the worker. -/
theorem startInference_cases (hs : s.step .startInference = some s') :
    s.pipeline.inference.owner = .idle ∧
      (s' = s ∨ (s.inferenceInitialized = true ∧ s.pipeline.inference.running = true ∧
          s' = { s with inferenceUp := true }) ∨
        s.pipeline.inference.running = false ∧ s' = { s with
          pipeline := { s.pipeline with
            inference := { s.pipeline.inference with
              running := true
              owner := .spawning } } }) := by
  obtain ⟨howner, hs⟩ := Option.ite_none_right_eq_some.mp hs
  refine ⟨howner, ?_⟩
  split at hs
  · cases hs
    exact .inl rfl
  next hinitialized =>
    split at hs
    next hrunning =>
      cases hs
      exact .inr (.inl ⟨by simpa using hinitialized, hrunning, rfl⟩)
    next =>
      obtain ⟨pipeline, hpipeline, rfl⟩ := Option.map_eq_some_iff.mp hs
      obtain ⟨⟨-, hstopped⟩, ⟨⟩⟩ := Option.ite_none_right_eq_some.mp hpipeline
      exact .inr (.inr ⟨hstopped, rfl⟩)

/-- The worker's invariant, of the worker of the stages. -/
def WorkerInv (s : Stages) : Prop :=
  InferenceInv s.inferenceUp s.inferenceStopped s.inferenceThreadless s.pipeline.inference

/-- Where the queue is open, frames are accepted. -/
theorem encoderConsumes_iff : s.EncoderConsumes ↔ (s.encoderUp = true →
    s.pipeline.encoder.closed = false ∧ s.pipeline.encoder.input.alive = true) := by
  refine ⟨fun h hup => ⟨(h hup).1, (h hup).2.1⟩, fun h hup => ?_⟩
  obtain ⟨hopen, halive⟩ := h hup
  exact ⟨hopen, halive, fun f pipeline => FramePipeline.submit_queued hopen⟩

theorem inferenceConsumes_iff : s.InferenceConsumes ↔ (s.inferenceUp = true →
    s.pipeline.inference.closed = false ∧ s.pipeline.inference.worker.alive = true) := by
  refine ⟨fun h hup => ⟨(h hup).1, (h hup).2.1⟩, fun h hup => ?_⟩
  obtain ⟨hopen, halive⟩ := h hup
  exact ⟨hopen, halive, fun f pipeline => FramePipeline.offer_queued hopen⟩

theorem step_encoderInv (h : EncoderInv s.encoderUp s.pipeline.encoder) {a : StageAction}
    (hs : s.step a = some s') : EncoderInv s'.encoderUp s'.pipeline.encoder := by
  cases a with
  | frame action =>
    obtain ⟨rfl, -⟩ | ⟨pipeline, hpipeline, rfl, hstart, -⟩ := step_frame hs
    · exact h
    rcases FramePipeline.step_encoder hpipeline with ⟨⟨dropped, heq⟩, hmark⟩ |
      ⟨made, pushed, rfl⟩ | ⟨error, rfl⟩ | rfl | rfl | ⟨ok, rfl⟩
    · have hsame : (s.mark pipeline action).pipeline.encoder = pipeline.encoder := by
        cases action <;> rfl
      rw [hmark, hsame, heq]
      exact h.counted dropped
    · exact h.inputStep hpipeline
    · exact h.busStep hpipeline
    · exact absurd rfl hstart
    · obtain ⟨-, ⟨⟩⟩ := Option.ite_none_right_eq_some.mp hpipeline
      exact h.ended _
    · exact h.ownerStep hpipeline
  | initializeEncoder ok =>
    obtain ⟨-, ⟨⟩⟩ := Option.ite_none_right_eq_some.mp hs
    exact h
  | startEncoder =>
    obtain ⟨howner, rfl | ⟨hrunning, rfl⟩ | ⟨hstopped, rfl⟩⟩ := startEncoder_cases hs
    · exact h
    · rw [← (h.idle howner hrunning).1]
      exact h
    · exact h.start hstopped
  | initializeInference ok =>
    obtain ⟨-, ⟨⟩⟩ := Option.ite_none_right_eq_some.mp hs
    exact h
  | startInference =>
    obtain ⟨-, rfl | ⟨-, -, rfl⟩ | ⟨-, rfl⟩⟩ := startInference_cases hs <;> exact h

theorem step_inferenceInv (h : s.WorkerInv) {a : StageAction} (hs : s.step a = some s') :
    s'.WorkerInv := by
  cases a with
  | frame action =>
    obtain ⟨rfl, -⟩ | ⟨pipeline, hpipeline, rfl, -, hstart⟩ := step_frame hs
    · exact h
    rcases FramePipeline.step_inference hpipeline with ⟨⟨dropped, heq⟩, hmark⟩ | rfl | rfl | rfl |
      ⟨ok, rfl⟩
    · have hsame : (s.mark pipeline action).pipeline.inference = pipeline.inference := by
        cases action <;> rfl
      unfold WorkerInv
      rw [hmark, hsame, heq]
      exact h.counted dropped
    · exact h.workerStep hpipeline
    · exact absurd rfl hstart
    · obtain ⟨-, ⟨⟩⟩ := Option.ite_none_right_eq_some.mp hpipeline
      exact .ended
    · exact h.ownerStep hpipeline
  | initializeEncoder ok =>
    obtain ⟨-, ⟨⟩⟩ := Option.ite_none_right_eq_some.mp hs
    exact h
  | startEncoder =>
    obtain ⟨-, rfl | ⟨-, rfl⟩ | ⟨-, rfl⟩⟩ := startEncoder_cases hs <;> exact h
  | initializeInference ok =>
    obtain ⟨-, ⟨⟩⟩ := Option.ite_none_right_eq_some.mp hs
    exact h
  | startInference =>
    obtain ⟨howner, rfl | ⟨-, hrunning, rfl⟩ | ⟨hstopped, rfl⟩⟩ := startInference_cases hs
    · exact h
    · exact h.found howner hrunning
    · exact h.start howner hstopped

/-- The encoder consumes after every successful `start`. -/
theorem encoderInv_of_reachable {bufferCount : UInt32} {count : ℕ}
    (h : Reachable step (initial bufferCount count) s) :
    EncoderInv s.encoderUp s.pipeline.encoder :=
  h.invariant (fun s => EncoderInv s.encoderUp s.pipeline.encoder) .initial
    fun _ _ _ hinv hs => step_encoderInv hinv hs

/-- A running worker without a call in progress is up, or lacks a thread. -/
theorem inferenceInv_of_reachable {bufferCount : UInt32} {count : ℕ}
    (h : Reachable step (initial bufferCount count) s) : s.WorkerInv := by
  refine h.invariant WorkerInv ?_ fun _ _ _ hinv hs => step_inferenceInv hinv hs
  exact InferenceInv.initial

/-- A step that does not start the worker a second time, or find it without a thread, leaves it
consuming. -/
theorem inferenceConsumes_step (h : s.WorkerInv) (hconsumes : s.InferenceConsumes)
    {a : StageAction} (hgood : s.Startable a) (hs : s.step a = some s') :
    s'.InferenceConsumes := by
  rw [inferenceConsumes_iff] at hconsumes ⊢
  cases a with
  | frame action =>
    obtain ⟨rfl, -⟩ | ⟨pipeline, hpipeline, rfl, -, hstart⟩ := step_frame hs
    · exact hconsumes
    rcases FramePipeline.step_inference hpipeline with ⟨⟨dropped, heq⟩, hmark⟩ | rfl | rfl | rfl |
      ⟨ok, rfl⟩
    · have hsame : (s.mark pipeline action).pipeline.inference = pipeline.inference := by
        cases action <;> rfl
      intro hup
      rw [hmark] at hup
      rw [hsame, heq]
      exact hconsumes hup
    · intro hup
      obtain ⟨-, worker, heq, -, -, halive⟩ := FramePipeline.workerStep_consumers hpipeline
      have hinference : (s.mark pipeline .worker).pipeline.inference =
          { s.pipeline.inference with worker } := heq
      have hopen := (hconsumes hup).1
      rw [hinference]
      exact ⟨hopen, halive (h.settled hup).2 hopen⟩
    · exact absurd rfl hstart
    · rintro ⟨⟩
    · intro hup
      have hup' : (if s.pipeline.inference.owner = .spawning then ok else s.inferenceUp) = true :=
        hup
      split at hup'
      next howner =>
        subst hup'
        have hinference : (s.mark pipeline (.inferenceOwner true)).pipeline.inference = _ :=
          FramePipeline.inferenceOwner_spawning hpipeline howner
        have hopen := h.closed (by rw [howner]; rfl)
        rw [hgood.1 rfl howner] at hopen
        rw [hinference]
        exact ⟨hopen, rfl⟩
      next =>
        have hidle := (h.settled hup').1
        simp [FramePipeline.step, FramePipeline.inferenceOwnerStep, hidle] at hpipeline
  | initializeEncoder ok =>
    obtain ⟨-, ⟨⟩⟩ := Option.ite_none_right_eq_some.mp hs
    exact hconsumes
  | startEncoder =>
    obtain ⟨-, rfl | ⟨-, rfl⟩ | ⟨-, rfl⟩⟩ := startEncoder_cases hs <;> exact hconsumes
  | initializeInference ok =>
    obtain ⟨-, ⟨⟩⟩ := Option.ite_none_right_eq_some.mp hs
    exact hconsumes
  | startInference =>
    obtain ⟨howner, rfl | ⟨hinitialized, hrunning, rfl⟩ | ⟨hstopped, rfl⟩⟩ :=
      startInference_cases hs
    · exact hconsumes
    · -- the thread that `start` finds is that of a `start` which has returned true
      have hthread := hgood.2 rfl hinitialized
      refine fun _ => hconsumes ((h.idle howner hrunning).resolve_right fun habsent => ?_)
      rw [h.thread howner hrunning habsent] at hthread
      cases hthread
    · intro hup
      have hrunning := (h.settled hup).2
      rw [hstopped] at hrunning
      cases hrunning

/-- Any other step leaves it up without consuming. -/
theorem not_inferenceConsumes_step (h : s.WorkerInv) {a : StageAction} (hbad : ¬ s.Startable a)
    (hs : s.step a = some s') : ¬ s'.InferenceConsumes := by
  rcases not_and_or.mp hbad with hbad | hbad
  · obtain ⟨rfl, himp⟩ := Classical.not_imp.mp hbad
    obtain ⟨howner, hstopped⟩ := Classical.not_imp.mp himp
    have hclosed := h.closed (by rw [howner]; rfl)
    rw [eq_true_of_ne_false hstopped] at hclosed
    obtain ⟨-, ⟨⟩⟩ | ⟨pipeline, hpipeline, rfl, -, -⟩ := step_frame hs
    have hinference := FramePipeline.inferenceOwner_spawning hpipeline howner
    intro hconsumes
    have hup : (s.mark pipeline (.inferenceOwner true)).inferenceUp = true := by
      simp only [mark, howner, if_true]
    have hopen : pipeline.inference.closed = false := (hconsumes hup).1
    rw [hinference, hclosed] at hopen
    cases hopen
  · obtain ⟨rfl, himp⟩ := Classical.not_imp.mp hbad
    obtain ⟨hinitialized, hthreadless⟩ := Classical.not_imp.mp himp
    obtain ⟨-, hrunning, hworker⟩ := h.lacking (eq_true_of_ne_false hthreadless)
    obtain ⟨-, hs⟩ := Option.ite_none_right_eq_some.mp hs
    rw [if_neg (by simp [hinitialized]), if_pos hrunning] at hs
    cases hs
    intro hconsumes
    have halive := (hconsumes rfl).2.1
    rw [hworker] at halive
    cases halive

end Stages

/-! ### The RTSP server -/

/-- `start` has created the feeder, and `stopLocked` has not begun. -/
def Lifecycle.fed : Lifecycle → Bool
  | .started | .starting .loop => true
  | .stopped | .starting _ | .stopping _ => false

theorem Lifecycle.runs_of_fed {phase : Lifecycle} (h : phase.fed = true) : phase.runs = true := by
  unfold fed at h
  split at h <;> first | rfl | cases h

namespace RtspServer

variable {t t' : RtspServer} {a : RtspAction} {fps : ℕ}

/-- After a `start` that returned true the queue is open, `feederLoop` has not ended, and a unit
that is pushed is queued; and `start` does not take a stopped server for a running one. -/
def Consumes (t : RtspServer) : Prop :=
  (t.lifecycle = .started →
    t.latest.closed = false ∧ t.feeder.phase.alive = true ∧
      ∀ submitted, (t.latest.push submitted).1.value = some submitted) ∧
    (t.lifecycle = .stopped → t.shared.running = false)

/-- In an open epoch the feeder goes on. -/
theorem feederStep_alive {env : FeederEnv} (hrunning : t.shared.running = true)
    (hopen : t.latest.closed = false) (hs : t.feederStep env = some t') :
    t'.feeder.phase.alive = true := by
  unfold feederStep at hs
  cases hphase : t.feeder.phase with
  | absent => simp [hphase] at hs
  | exited => simp [hphase] at hs
  | starting =>
    simp only [hphase, Option.some.injEq] at hs
    subst hs
    rfl
  | checking =>
    simp only [hphase, Option.some.injEq] at hs
    subst hs
    simp only [Feeder.check, hrunning, if_true]
    rfl
  | popping =>
    simp only [hphase, LatestFrameQueue.waitPop, hopen] at hs
    cases hvalue : t.latest.value with
    | none => simp [hvalue] at hs
    | some submitted =>
      simp only [hvalue, Option.some.injEq] at hs
      subst hs
      rfl
  | popped submitted =>
    simp only [hphase] at hs
    split at hs
    · cases hs
      rfl
    · cases hs
      unfold Feeder.screen
      simp only
      split <;> rfl
  | offering item =>
    simp only [hphase, Option.some.injEq] at hs
    subst hs
    unfold Feeder.offer
    simp only
    split <;> rfl
  | recording mediaGeneration flow =>
    simp only [hphase, Option.some.injEq] at hs
    subst hs
    rfl

/-- How the server comes to have a feeder. -/
theorem step_fed (hs : t.step a = some t') (hfed : t'.lifecycle.fed = true) :
    t.lifecycle.fed = true ∨ (t.lifecycle = .starting .feeder ∧ t'.feeder.phase = .starting) := by
  by_cases hcall : ∃ call ok, a = .call call ok
  · obtain ⟨call, ok, rfl⟩ := hcall
    obtain ⟨-, rfl | rfl | ⟨-, rfl⟩ | ⟨-, rfl⟩⟩ := callStep_cases hs
    · exact .inl hfed
    · exact .inl hfed
    · cases hfed
    · cases hfed
  by_cases howner : ∃ env, a = .owner env
  · obtain ⟨env, rfl⟩ := howner
    rcases step_owner hs with ⟨stage, hphase, rfl⟩ | ⟨stage, hphase, hs⟩
    · obtain ⟨ok, id, now, counted⟩ := env
      cases stage with
      | loop => exact .inl (by rw [hphase]; rfl)
      | feeder =>
        cases ok with
        | true => exact .inr ⟨hphase, rfl⟩
        | false => cases hfed
      | publish => cases hfed
      | publishWatchdog => cases hfed
      | factory =>
        simp only [startStep] at hfed
        split at hfed
        · cases hfed
        · split at hfed <;> cases hfed
      | _ => cases ok <;> cases hfed
    · rcases stopStep_lifecycle hphase hs with hend | ⟨next, hnext⟩
      · rw [hend] at hfed
        cases hfed
      · rw [hnext] at hfed
        cases hfed
  · rw [(step_epoch hs (by simpa using hcall) (by simpa using howner)).1] at hfed
    exact .inl hfed

/-- The feeder that `start` has created goes on. -/
theorem alive_of_fed (h : Reachable RtspServer.step (initial fps) t) :
    t.lifecycle.fed = true → t.feeder.phase.alive = true := by
  suffices h' : EpochInv t ∧ (t.lifecycle.fed = true → t.feeder.phase.alive = true) from h'.2
  refine h.invariant (fun t => EpochInv t ∧
    (t.lifecycle.fed = true → t.feeder.phase.alive = true)) ⟨.initial fps, by rintro ⟨⟩⟩ ?_
  rintro t a t' ⟨hepoch, halive⟩ hs
  refine ⟨hepoch.step hs, fun hfed => ?_⟩
  rcases step_fed hs hfed with hbefore | ⟨-, hstarting⟩
  · have hruns := Lifecycle.runs_of_fed hbefore
    by_cases hfeeder : ∃ env, a = .feeder env
    · obtain ⟨env, rfl⟩ := hfeeder
      exact feederStep_alive (hepoch.running.trans hruns) (hepoch.queue (.inl hruns)) hs
    · rcases step_feeder hs (by simpa using hfeeder) with heq | ⟨-, -, heq⟩ | ⟨hphase, -, -⟩
      · rw [heq]
        exact halive hbefore
      · rw [heq]
        rfl
      · rw [hphase] at hbefore
        cases hbefore
  · rw [hstarting]
    rfl

/-- The server consumes after every successful `start`. -/
theorem consumes_of_reachable (h : Reachable RtspServer.step (initial fps) t) : t.Consumes := by
  have hepoch := EpochInv.reachable h
  refine ⟨fun hstarted => ?_, fun hstopped => by rw [hepoch.running, hstopped]; rfl⟩
  have hopen : t.latest.closed = false := hepoch.queue (.inl (by rw [hstarted]; rfl))
  refine ⟨hopen, alive_of_fed h (by rw [hstarted]; rfl), fun submitted => ?_⟩
  simp [LatestFrameQueue.push, hopen]

end RtspServer

/-! ### Restarted stages -/

open Stages

/-- **A restarted stage consumes frames again**, in every state of a run, exactly if no `start` of
the worker creates a thread after a `stop`, and none comes after one that could not create it. The
other two stages always do. -/
theorem consumes_iff {bufferCount : UInt32} {count fps : ℕ} {history : List (Stages × StageAction)}
    {s : Stages} {server : RtspServer} (h : Run Stages.step (initial bufferCount count) history s)
    (hserver : Reachable RtspServer.step (RtspServer.initial fps) server) :
    ((∀ x ∈ history, x.1.Consumes) ∧ s.Consumes ∧ server.Consumes) ↔
      ∀ x ∈ history, x.1.Startable x.2 := by
  have hencoder : ∀ {s}, Reachable Stages.step (initial bufferCount count) s → s.EncoderConsumes :=
    fun hs => encoderConsumes_iff.mpr (encoderInv_of_reachable hs).consumes
  have hworker := h.forall_iff InferenceConsumes Startable (by rintro ⟨⟩)
    (fun _ _ _ hr hconsumes hgood hs =>
      inferenceConsumes_step (inferenceInv_of_reachable hr) hconsumes hgood hs)
    (fun _ _ _ hr _ hbad hs => not_inferenceConsumes_step (inferenceInv_of_reachable hr) hbad hs)
  rw [← hworker]
  constructor
  · rintro ⟨hall, hlast, -⟩
    exact ⟨fun x hx => (hall x hx).2, hlast.2⟩
  · rintro ⟨hall, hlast⟩
    exact ⟨fun x hx => ⟨hencoder (h.reachable_of_mem x hx), hall x hx⟩,
      ⟨hencoder h.reachable, hlast⟩, RtspServer.consumes_of_reachable hserver⟩

/-- The worker is started, and the encoder is started, stopped and started again. -/
def encoderRestart : List StageAction :=
  [.initializeInference true, .startInference, .frame (.inferenceOwner true),
    .initializeEncoder true, .startEncoder, .frame (.encoderOwner true),
    .frame (.encoderOwner true), .frame (.encoderOwner true), .frame (.encoderOwner true),
    .frame .stopEncoder, .frame (.encoderOwner true), .frame (.input true true),
    .frame (.bus false), .frame (.encoderOwner true),
    .initializeEncoder true, .startEncoder, .frame (.encoderOwner true),
    .frame (.encoderOwner true), .frame (.encoderOwner true), .frame (.encoderOwner true)]

theorem consumes_iff_encoderRestart : ∃ s : Stages,
    ((∀ x ∈ trace Stages.step (initial 4 4) encoderRestart, x.1.Consumes) ∧ s.Consumes ∧
      (RtspServer.initial 30).Consumes) ∧ s.encoderUp = true ∧ s.inferenceUp = true := by
  obtain ⟨s, hs, hup⟩ := (Option.any_eq_true
    (fun s : Stages => s.encoderUp && s.inferenceUp) _).mp
    (show (exec Stages.step (initial 4 4) encoderRestart).any _ = true by decide)
  rw [Bool.and_eq_true] at hup
  exact ⟨s, (consumes_iff (.ofExec encoderRestart hs) .refl).mpr (by decide), hup⟩

/-- The worker is started, stopped and started again. -/
def inferenceRestart : List StageAction :=
  [.initializeInference true, .startInference, .frame (.inferenceOwner true),
    .frame .stopInference, .frame (.inferenceOwner true), .frame .worker,
    .frame (.inferenceOwner true), .startInference, .frame (.inferenceOwner true)]

/-- The queue of the worker that is started again is closed: `start` does not reopen it. -/
theorem inferenceRestart_not_consumes :
    ∃ s, Reachable Stages.step (initial 4 4) s ∧ ¬ s.Consumes := by
  obtain ⟨s, hr, hup, hclosed⟩ := exists_reachable Stages.step (initial 4 4) inferenceRestart
    (fun s => s.inferenceUp = true ∧ s.pipeline.inference.closed = true) (by decide)
  refine ⟨s, hr, fun hconsumes => ?_⟩
  rw [(hconsumes.2 hup).1] at hclosed
  cases hclosed

end EggVision
