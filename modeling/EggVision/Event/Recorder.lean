import EggVision.Ring.Buffer
import Mathlib.Data.Rat.Defs

/-!
# The event recorder

`EventRecorder` turns a detection into a clip: pre-roll from the ring, post-roll from the units
that follow, then a job for the writer thread. Every operation runs in one region of the recorder's
mutex and is a function on `EventRecorder`.

Operations allocate, and the threads that call them catch what they throw. Each operation therefore
takes `throws`, which says at which of its allocating steps an exception is thrown, and returns the
state it leaves behind together with its result or the step at which it was left.

What the file system, the camera and the muxer do is an argument of the operation that asks them.
`event_pre_seconds`, `event_post_seconds` and `event_cooldown_seconds` appear as the nanoseconds
`secondsToNs` makes of them.

## Main definitions

* `EventGate`, `EventJob`, `EventRecorder`
* `EventRecorder.start`, `trigger`, `observeEncoded`, `stop`, `finishLocked`
* `EventRecorder.takeJob`, `writeEvent` — the two halves of the worker's loop

## Main results

* `finishLocked_cases`, `trigger_cases`, `observeEncoded_cases`, `stop_cases` — what each call
  can do
-/

namespace EggVision

/-- `cv::Rect2f`. -/
structure Box where
  x : ℚ := 0
  y : ℚ := 0
  width : ℚ := 0
  height : ℚ := 0
deriving DecidableEq, Repr

/-- `Detection`. -/
structure Detection where
  classId : ℤ := 0
  confidence : ℚ := 0
  box : Box := {}
deriving DecidableEq, Repr

/-- `MainSnapshot`. -/
structure MainSnapshot where
  width : ℕ := 0
  height : ℕ := 0
  sequence : ℕ := 0
  sensorTimestampNs : ℕ := 0
  i420 : List UInt8 := []
deriving DecidableEq, Repr

/-- What the recorder reads from the camera frame it is triggered with. -/
structure FrameLease where
  sequence : ℕ
  sensorTimestampNs : ℕ
deriving DecidableEq, Repr

/-- The fields of `AppConfig` the recorder reads while it runs. -/
structure EventConfig where
  eventRecordingEnabled : Bool := true
  eventPreNs : ℕ
  eventPostNs : ℕ
  eventCooldownNs : ℕ
deriving DecidableEq, Repr

/-! ### The gate -/

structure EventGate where
  cooldownNs : ℕ
  cooldownUntilNs : ℕ := 0
  collecting : Bool := false
deriving DecidableEq, Repr

namespace EventGate

def tryBegin (gate : EventGate) (triggerSensorTimestampNs : ℕ) : EventGate × Bool :=
  if gate.collecting || decide (triggerSensorTimestampNs < gate.cooldownUntilNs) then (gate, false)
  else ({ gate with collecting := true }, true)

def complete (gate : EventGate) (actualEndSensorTimestampNs : ℕ) : EventGate :=
  { gate with
    collecting := false
    cooldownUntilNs := saturatingAdd actualEndSensorTimestampNs gate.cooldownNs }

end EventGate

/-! ### Jobs -/

/-- `EventJob`; `ActiveEvent` adds nothing to it. -/
structure EventJob where
  id : String
  triggerSequence : ℕ := 0
  triggerSensorTimestampNs : ℕ := 0
  requestedStartSensorTimestampNs : ℕ := 0
  requestedEndSensorTimestampNs : ℕ := 0
  actualStartSensorTimestampNs : ℕ := 0
  actualEndSensorTimestampNs : ℕ := 0
  generation : ℕ := 0
  preRollComplete : Bool := false
  postRollComplete : Bool := false
  snapshot : MainSnapshot := {}
  detections : List Detection := []
  units : List EncodedAccessUnit := []
  errors : List String := []
deriving DecidableEq, Repr

namespace EventJob

/-- What `finishLocked` writes into the event before it asks the gate. -/
def close (event : EventJob) (postComplete : Bool) (error : String) : EventJob :=
  let event := { event with
    postRollComplete := postComplete
    errors := if error.isEmpty then event.errors else event.errors ++ [error] }
  match event.units.head?, event.units.getLast? with
  | some front, some back =>
    { event with
      actualStartSensorTimestampNs := front.sensorTimestampNs
      actualEndSensorTimestampNs := back.sensorTimestampNs }
  | _, _ => { event with actualEndSensorTimestampNs := event.triggerSensorTimestampNs }

@[simp] theorem close_units (event : EventJob) (postComplete : Bool) (error : String) :
    (event.close postComplete error).units = event.units := by
  unfold close
  dsimp only
  split <;> rfl

end EventJob

/-- The counters of `Metrics` the recorder writes. -/
structure EventMetrics where
  eventsTriggered : ℕ := 0
  eventsSuppressed : ℕ := 0
  eventsCompleted : ℕ := 0
  eventsFailed : ℕ := 0
  eventsPartialPreroll : ℕ := 0
  eventsPartialPostroll : ℕ := 0
  eventSnapshotErrors : ℕ := 0
  eventMuxErrors : ℕ := 0
  eventSnapshotBytes : ℕ := 0
  eventVideoBytes : ℕ := 0
  eventDiskSpaceRejections : ℕ := 0
deriving DecidableEq, Repr

/-- One more failed event. -/
def EventMetrics.fail (metrics : EventMetrics) : EventMetrics :=
  { metrics with eventsFailed := metrics.eventsFailed + 1 }

/-- The steps of `trigger`, `observeEncoded` and `stop` that allocate, in the order of the source.
Log lines are not among them: they are written by `noexcept` functions and stream inserters. -/
inductive AllocStep
  | storageLog
  | formatEventId
  | copyDetections
  | stageMainSnapshot
  | recordSnapshotError
  | selectPreRoll
  | copyUnits
  | recordNoPreRoll
  | appendUnit
  | recordError
  | queueJob
deriving DecidableEq, Repr

/-- One call of `trigger`, with what it learns from outside: the result of `storageAvailable`, the
formatted event id and the result of `stageMainSnapshot`. -/
structure TriggerCall where
  frame : Option FrameLease
  detections : List Detection
  storageAvailable : Bool := true
  eventId : String := ""
  staged : Except String MainSnapshot := .error "main profile is not CPU mapped"

namespace TriggerCall

/-- The steps between `tryBegin` and `active = std::move(event)` that may throw. They only touch
the local event. -/
def localSteps (call : TriggerCall) : List AllocStep :=
  [.formatEventId, .copyDetections, .stageMainSnapshot] ++
    (match call.staged with
      | .ok _ => []
      | .error _ => [.recordSnapshotError]) ++
    [.selectPreRoll, .copyUnits]

end TriggerCall

/-- The loop of `trigger` that copies the selection up to the first unit that reaches the requested
end, and whether there was one. -/
def copyUnits (requestedEnd : ℕ) : List EncodedAccessUnit → List EncodedAccessUnit × Bool
  | [] => ([], false)
  | unit :: rest =>
    if unit.sensorTimestampNs ≥ requestedEnd then ([unit], true)
    else
      let (units, postRollComplete) := copyUnits requestedEnd rest
      (unit :: units, postRollComplete)

/-- The local event of `trigger` at the moment it is moved into `active`. -/
def TriggerCall.event (call : TriggerCall) (config : EventConfig) (frame : FrameLease)
    (selection : EncodedRingSelection) : EventJob :=
  let trigger := frame.sensorTimestampNs
  let requestedEnd := saturatingAdd trigger config.eventPostNs
  let (units, postRollComplete) := copyUnits requestedEnd selection.units
  { id := call.eventId
    triggerSequence := frame.sequence
    triggerSensorTimestampNs := trigger
    requestedStartSensorTimestampNs :=
      if trigger > config.eventPreNs then trigger - config.eventPreNs else 0
    requestedEndSensorTimestampNs := requestedEnd
    generation := selection.generation
    preRollComplete := selection.preRollComplete
    postRollComplete
    snapshot := match call.staged with
      | .ok snapshot => snapshot
      | .error _ => {}
    detections := call.detections
    units
    errors := match call.staged with
      | .ok _ => []
      | .error error => [error] }

/-! ### The recorder -/

/-- `kWorkerQueueCapacity`. -/
def kWorkerQueueCapacity : ℕ := 2

structure EventRecorder where
  config : EventConfig
  gate : EventGate
  active : Option EventJob := none
  jobs : List EventJob := []
  initialized : Bool := false
  running : Bool := false
  accepting : Bool := false
  latestSensorTimestampNs : ℕ := 0
  metrics : EventMetrics := {}
deriving DecidableEq, Repr

namespace EventRecorder

/-- The constructor of `Impl`. -/
def new (config : EventConfig) : EventRecorder :=
  { config, gate := { cooldownNs := config.eventCooldownNs } }

/-- The `initialize` call; `usable` says that the events directory passed its checks. -/
def initializeWith (usable : Bool) (r : EventRecorder) : EventRecorder × Bool :=
  if !r.config.eventRecordingEnabled || usable then ({ r with initialized := true }, true)
  else (r, false)

/-- `finishLocked` up to the queue check: the event has its end and the gate is open again. -/
def closeActive (event : EventJob) (postComplete : Bool) (error : String) (r : EventRecorder) :
    EventRecorder :=
  let event := event.close postComplete error
  { r with
    gate := r.gate.complete event.actualEndSensorTimestampNs
    metrics :=
      if postComplete then r.metrics
      else { r.metrics with eventsPartialPostroll := r.metrics.eventsPartialPostroll + 1 }
    active := some event }

def finishLocked (throws : AllocStep → Bool) (postComplete : Bool) (error : String)
    (r : EventRecorder) : EventRecorder × Except AllocStep Unit :=
  match r.active with
  | none => (r, .ok ())
  | some event =>
    if !error.isEmpty && throws .recordError then
      ({ r with active := some { event with postRollComplete := postComplete } },
        .error .recordError)
    else
      let r := r.closeActive event postComplete error
      if r.jobs.length ≥ kWorkerQueueCapacity then
        ({ r with metrics := r.metrics.fail, active := none }, .ok ())
      else if throws .queueJob then (r, .error .queueJob)
      else ({ r with jobs := r.jobs ++ [event.close postComplete error], active := none }, .ok ())

/-- `start`; `spawned` says that the worker thread could be created, which is asked only when it is
needed. -/
def start (spawned : Bool) (r : EventRecorder) : EventRecorder × Bool :=
  if !r.initialized then (r, false)
  else if !r.config.eventRecordingEnabled || r.running then
    ({ r with accepting := r.config.eventRecordingEnabled }, true)
  else if spawned then ({ r with running := true, accepting := true }, true)
  else (r, false)

/-- Both callers first advance the latest timestamp seen. -/
def see (sensorTimestampNs : ℕ) (r : EventRecorder) : EventRecorder :=
  { r with latestSensorTimestampNs := max r.latestSensorTimestampNs sensorTimestampNs }

/-- `trigger` without recording: one more suppressed event. -/
def suppress (r : EventRecorder) : EventRecorder :=
  { r with metrics := { r.metrics with eventsSuppressed := r.metrics.eventsSuppressed + 1 } }

/-- `trigger` up to the assignment to `active`, once the event is built. -/
def openEvent (event : EventJob) (r : EventRecorder) : EventRecorder :=
  let metrics :=
    if event.preRollComplete then r.metrics
    else { r.metrics with eventsPartialPreroll := r.metrics.eventsPartialPreroll + 1 }
  { r with
    metrics := { metrics with eventsTriggered := metrics.eventsTriggered + 1 }
    active := some event }

/-- `trigger` from the assignment to `active` on. -/
def startCollecting (throws : AllocStep → Bool) (hasIndependentStart : Bool) (event : EventJob)
    (r : EventRecorder) : EventRecorder × Except AllocStep Unit :=
  let r := r.openEvent event
  if !hasIndependentStart || event.units.isEmpty then
    if throws .recordNoPreRoll then (r, .error .recordNoPreRoll)
    else
      let errors := event.errors ++ ["no independently decodable H.264 pre-roll was available"]
      { r with active := some { event with errors } }.finishLocked throws false ""
  else if event.postRollComplete then r.finishLocked throws true ""
  else (r, .ok ())

/-- The first check of `trigger`. -/
def records (call : TriggerCall) (r : EventRecorder) : Bool :=
  r.config.eventRecordingEnabled && call.frame.isSome && !call.detections.isEmpty

def trigger (throws : AllocStep → Bool) (call : TriggerCall) (history : EncodedRingBuffer)
    (r : EventRecorder) : EventRecorder × Except AllocStep Bool :=
  match call.frame with
  | none => (r, .ok false)
  | some frame =>
    if !r.records call then (r, .ok false)
    else if !call.storageAvailable then
      let metrics :=
        { r.metrics with eventDiskSpaceRejections := r.metrics.eventDiskSpaceRejections + 1 }
      if throws .storageLog then ({ r with metrics }, .error .storageLog)
      else ({ r with metrics }.suppress, .ok false)
    else
      let r := r.see frame.sensorTimestampNs
      if !r.accepting then (r.suppress, .ok false)
      else
        match r.gate.tryBegin frame.sensorTimestampNs with
        | (_, false) => (r.suppress, .ok false)
        | (gate, true) =>
          let r := { r with gate }
          match call.localSteps.find? throws with
          | some failed => (r, .error failed)
          | none =>
            let selection := history.selectPreRoll frame.sensorTimestampNs r.config.eventPreNs
            let event := call.event r.config frame selection
            let (r, result) := r.startCollecting throws selection.hasIndependentStart event
            (r, result.map fun _ => true)

def observeEncoded (throws : AllocStep → Bool) (unit : Option EncodedAccessUnit)
    (r : EventRecorder) : EventRecorder × Except AllocStep Unit :=
  match unit with
  | none => (r, .ok ())
  | some unit =>
    if !r.config.eventRecordingEnabled then (r, .ok ())
    else
      let r := r.see unit.sensorTimestampNs
      match r.active with
      | none => (r, .ok ())
      | some event =>
        if unit.generation ≠ event.generation then
          r.finishLocked throws false "encoder generation changed during post-roll"
        else if event.units.getLast?.any fun back =>
            decide (unit.sensorTimestampNs ≤ back.sensorTimestampNs) then (r, .ok ())
        else if throws .appendUnit then (r, .error .appendUnit)
        else
          let r := { r with active := some { event with units := event.units ++ [unit] } }
          if unit.sensorTimestampNs ≥ event.requestedEndSensorTimestampNs then
            r.finishLocked throws true ""
          else (r, .ok ())

/-- The first half of `stop`: no more events, and the collected one ends here. -/
def interrupt (throws : AllocStep → Bool) (r : EventRecorder) :
    EventRecorder × Except AllocStep Unit :=
  let r := { r with accepting := false }
  if r.active.isSome then r.finishLocked throws false "shutdown interrupted event post-roll"
  else (r, .ok ())

/-- The lock region of `stop`. The result says whether the worker has to be joined. -/
def stop (throws : AllocStep → Bool) (r : EventRecorder) :
    EventRecorder × Except AllocStep Bool :=
  match r.interrupt throws with
  | (r, .error failed) => (r, .error failed)
  | (r, .ok ()) => if r.running then ({ r with running := false }, .ok true) else (r, .ok false)

/-! ### The worker -/

/-- The lock region of `workerLoop`, when a job is there. -/
def takeJob (r : EventRecorder) : Option (EventJob × EventRecorder) :=
  match r.jobs with
  | [] => none
  | job :: rest => some (job, { r with jobs := rest })

inductive ArtifactStatus
  | unavailable
  | failed
  | complete
deriving DecidableEq, Repr

/-- `ArtifactResult` without the file name. -/
structure ArtifactResult where
  status : ArtifactStatus := .unavailable
  bytes : ℕ := 0
  error : String := ""
deriving DecidableEq, Repr

/-- What the world answers to one `writeEvent`: each artifact that gets past its own checks is
written with a number of bytes or fails with a text. -/
structure WriteOutcome where
  directoryCreated : Bool
  encoded : Except String ℕ
  muxed : Except String ℕ
  metadataWritten : Bool
  published : Bool

/-- The result of the part of an artifact writer that runs outside the program. -/
def ArtifactResult.ofOutcome : Except String ℕ → ArtifactResult
  | .ok bytes => { status := .complete, bytes }
  | .error error => { status := .failed, error }

def writeSnapshot (snapshot : MainSnapshot) (encoded : Except String ℕ) : ArtifactResult :=
  if snapshot.i420.isEmpty || snapshot.width == 0 || snapshot.height == 0 then
    { status := .failed, error := "snapshot pixels are unavailable" }
  else if snapshot.i420.length ≠ snapshot.width * snapshot.height * 3 / 2 then
    { status := .failed, error := "snapshot I420 size does not match its dimensions" }
  else .ofOutcome encoded

def muxVideo (job : EventJob) (muxed : Except String ℕ) : ArtifactResult :=
  match job.units with
  | [] =>
    { status := .unavailable
      error := "no independently decodable H.264 pre-roll was available" }
  | front :: _ =>
    if !front.independentlyDecodable then
      { status := .failed, error := "event video does not begin with IDR/SPS/PPS" }
    else if job.units.any fun unit =>
        unit.sizeBytes == 0 || unit.generation != job.generation then
      { status := .failed
        error := "event video contains an invalid or mixed-generation access unit" }
    else .ofOutcome muxed

def countSnapshot (snapshot : ArtifactResult) (metrics : EventMetrics) : EventMetrics :=
  if snapshot.status = .complete then
    { metrics with eventSnapshotBytes := metrics.eventSnapshotBytes + snapshot.bytes }
  else { metrics with eventSnapshotErrors := metrics.eventSnapshotErrors + 1 }

/-- A clip without units is neither an error nor a video. -/
def countVideo (video : ArtifactResult) (metrics : EventMetrics) : EventMetrics :=
  match video.status with
  | .failed => { metrics with eventMuxErrors := metrics.eventMuxErrors + 1 }
  | .complete => { metrics with eventVideoBytes := metrics.eventVideoBytes + video.bytes }
  | .unavailable => metrics

/-- `writeEvent`, by what it does to the counters. -/
def writeEvent (outcome : WriteOutcome) (job : EventJob) (metrics : EventMetrics) :
    EventMetrics :=
  if !outcome.directoryCreated then metrics.fail
  else
    let snapshot := writeSnapshot job.snapshot outcome.encoded
    let video := muxVideo job outcome.muxed
    let metrics := countVideo video (countSnapshot snapshot metrics)
    let snapshotOk := decide (snapshot.status = .complete)
    let videoOk := decide (video.status = .complete)
    let fatalMuxFailure := decide (video.status = .failed)
    if !outcome.metadataWritten then metrics.fail
    else if fatalMuxFailure || (!snapshotOk && !videoOk) then metrics.fail
    else if !outcome.published then metrics.fail
    else { metrics with eventsCompleted := metrics.eventsCompleted + 1 }

/-! ### The event counters along a call -/

/-- The four counters that say where the events are. -/
def countsOf (metrics : EventMetrics) : ℕ × ℕ × ℕ × ℕ :=
  (metrics.eventsTriggered, metrics.eventsSuppressed, metrics.eventsCompleted,
    metrics.eventsFailed)

@[simp] theorem closeActive_counts (event : EventJob) (postComplete : Bool) (error : String)
    (r : EventRecorder) :
    countsOf (r.closeActive event postComplete error).metrics =
      countsOf r.metrics := by
  unfold closeActive
  dsimp only
  split <;> rfl

@[simp] theorem closeActive_jobs (event : EventJob) (postComplete : Bool) (error : String)
    (r : EventRecorder) : (r.closeActive event postComplete error).jobs = r.jobs := rfl

@[simp] theorem openEvent_counts (event : EventJob) (r : EventRecorder) :
    countsOf (r.openEvent event).metrics =
      (r.metrics.eventsTriggered + 1, r.metrics.eventsSuppressed, r.metrics.eventsCompleted,
        r.metrics.eventsFailed) := by
  unfold openEvent
  dsimp only
  split <;> rfl

@[simp] theorem fail_counts (metrics : EventMetrics) :
    countsOf metrics.fail = (metrics.eventsTriggered, metrics.eventsSuppressed,
      metrics.eventsCompleted, metrics.eventsFailed + 1) := rfl

@[simp] theorem countSnapshot_counts (snapshot : ArtifactResult) (metrics : EventMetrics) :
    countsOf (countSnapshot snapshot metrics) = countsOf metrics := by
  unfold countSnapshot
  split <;> rfl

@[simp] theorem countVideo_counts (video : ArtifactResult) (metrics : EventMetrics) :
    countsOf (countVideo video metrics) = countsOf metrics := by
  unfold countVideo
  split <;> rfl

/-- Every return path of `writeEvent` counts its job once. -/
theorem writeEvent_counts (outcome : WriteOutcome) (job : EventJob) (metrics : EventMetrics) :
    countsOf (writeEvent outcome job metrics) = (metrics.eventsTriggered,
        metrics.eventsSuppressed, metrics.eventsCompleted + 1, metrics.eventsFailed) ∨
      countsOf (writeEvent outcome job metrics) = (metrics.eventsTriggered,
        metrics.eventsSuppressed, metrics.eventsCompleted, metrics.eventsFailed + 1) := by
  unfold writeEvent
  split
  · exact Or.inr rfl
  · dsimp only
    set written := countVideo (muxVideo job outcome.muxed)
      (countSnapshot (writeSnapshot job.snapshot outcome.encoded) metrics) with hwritten
    have hcounts : countsOf written = countsOf metrics := by simp [hwritten]
    have hfail : countsOf written.fail = (metrics.eventsTriggered, metrics.eventsSuppressed,
        metrics.eventsCompleted, metrics.eventsFailed + 1) := by
      simp only [countsOf, Prod.mk.injEq] at hcounts
      rw [fail_counts, hcounts.1, hcounts.2.1, hcounts.2.2.1, hcounts.2.2.2]
    split
    · exact Or.inr hfail
    · split
      · exact Or.inr hfail
      · split
        · exact Or.inr hfail
        · refine Or.inl ?_
          simp only [countsOf, Prod.mk.injEq] at hcounts ⊢
          exact ⟨hcounts.1, hcounts.2.1, congrArg (· + 1) hcounts.2.2.1, hcounts.2.2.2⟩

/-! ### What each call does -/

/-- `start` changes nothing, turns `accepting` on or off beside a running worker, or starts one. -/
theorem start_cases (spawned : Bool) (r : EventRecorder) :
    (∃ accepting, (accepting = true → r.running = true ∨ r.accepting = true) ∧
      (r.start spawned).1 = { r with accepting }) ∨
    (r.running = false ∧ (r.start spawned).1 = { r with running := true, accepting := true }) := by
  unfold start
  split
  · exact Or.inl ⟨r.accepting, Or.inr, rfl⟩
  · split
    next h =>
      refine Or.inl ⟨r.config.eventRecordingEnabled, fun henabled => Or.inl ?_, rfl⟩
      simpa [henabled] using h
    next h =>
      split
      · exact Or.inr ⟨by simp_all, rfl⟩
      · exact Or.inl ⟨r.accepting, Or.inr, rfl⟩

/-- `finishLocked` with an event: the error text throws, or the event is closed and then dropped
for want of room, left behind by an exception, or queued. -/
theorem finishLocked_cases {r : EventRecorder} {event : EventJob} (h : r.active = some event)
    (throws : AllocStep → Bool) (postComplete : Bool) (error : String) :
    let closed := r.closeActive event postComplete error
    ((!error.isEmpty && throws .recordError) = true ∧
      r.finishLocked throws postComplete error =
        ({ r with active := some { event with postRollComplete := postComplete } },
          .error .recordError)) ∨
    ((!error.isEmpty && throws .recordError) = false ∧
      ((kWorkerQueueCapacity ≤ r.jobs.length ∧
          r.finishLocked throws postComplete error =
            ({ closed with metrics := closed.metrics.fail, active := none }, .ok ())) ∨
        (r.jobs.length < kWorkerQueueCapacity ∧ throws .queueJob = true ∧
          r.finishLocked throws postComplete error = (closed, .error .queueJob)) ∨
        (r.jobs.length < kWorkerQueueCapacity ∧ throws .queueJob = false ∧
          r.finishLocked throws postComplete error =
            ({ closed with
                jobs := r.jobs ++ [event.close postComplete error]
                active := none }, .ok ())))) := by
  unfold finishLocked
  simp only [h]
  cases hrecord : !error.isEmpty && throws .recordError with
  | true => exact Or.inl ⟨rfl, rfl⟩
  | false =>
    refine Or.inr ⟨rfl, ?_⟩
    by_cases hfull : kWorkerQueueCapacity ≤ r.jobs.length
    · exact Or.inl ⟨hfull, by simp [closeActive, hfull]⟩
    · refine Or.inr ?_
      cases hthrow : throws .queueJob with
      | true => exact Or.inl ⟨Nat.lt_of_not_le hfull, rfl, by simp [closeActive, hfull]⟩
      | false => exact Or.inr ⟨Nat.lt_of_not_le hfull, rfl, by simp [closeActive, hfull]⟩

/-- The event is `event` when `startCollecting` is done with its own part, up to the error text. -/
theorem startCollecting_cases (throws : AllocStep → Bool) (hasIndependentStart : Bool)
    (event : EventJob) (r : EventRecorder) :
    let opened := r.openEvent event
    let noPreRoll := { event with
      errors := event.errors ++ ["no independently decodable H.264 pre-roll was available"] }
    ((!hasIndependentStart || event.units.isEmpty) = true ∧ throws .recordNoPreRoll = true ∧
      r.startCollecting throws hasIndependentStart event =
        (opened, .error .recordNoPreRoll)) ∨
    ((!hasIndependentStart || event.units.isEmpty) = true ∧ throws .recordNoPreRoll = false ∧
      r.startCollecting throws hasIndependentStart event =
        { opened with active := some noPreRoll }.finishLocked throws false "") ∨
    ((!hasIndependentStart || event.units.isEmpty) = false ∧ event.postRollComplete = true ∧
      r.startCollecting throws hasIndependentStart event = opened.finishLocked throws true "") ∨
    ((!hasIndependentStart || event.units.isEmpty) = false ∧ event.postRollComplete = false ∧
      r.startCollecting throws hasIndependentStart event = (opened, .ok ())) := by
  unfold startCollecting
  cases hstart : !hasIndependentStart || event.units.isEmpty with
  | true => cases throws .recordNoPreRoll <;> simp
  | false => cases hpost : event.postRollComplete <;> simp

/-- The call gets past `tryBegin`. -/
def admits (call : TriggerCall) (frame : FrameLease) (r : EventRecorder) : Bool :=
  r.records call && call.storageAvailable && r.accepting && !r.gate.collecting &&
    decide (r.gate.cooldownUntilNs ≤ frame.sensorTimestampNs)

/-- The recorder behind a `tryBegin` that returned true. -/
def begun (frame : FrameLease) (r : EventRecorder) : EventRecorder :=
  { r.see frame.sensorTimestampNs with gate := { r.gate with collecting := true } }

/-- The event a call collects. -/
def eventOf (call : TriggerCall) (frame : FrameLease) (history : EncodedRingBuffer)
    (r : EventRecorder) : EventJob :=
  call.event r.config frame (history.selectPreRoll frame.sensorTimestampNs r.config.eventPreNs)

/-- A trigger is ignored, refused, left by an exception with the gate closed behind it, or it
starts an event. -/
theorem trigger_cases (throws : AllocStep → Bool) (call : TriggerCall)
    (history : EncodedRingBuffer) (r : EventRecorder) :
    (r.records call = false ∧ r.trigger throws call history = (r, .ok false)) ∨
    (r.records call = true ∧ (∀ frame ∈ call.frame, r.admits call frame = false) ∧
      ∃ latest rejections,
        let refused := { r with
          latestSensorTimestampNs := latest
          metrics := { r.metrics with eventDiskSpaceRejections := rejections } }
        (r.trigger throws call history = (refused, .error .storageLog) ∧
            throws .storageLog = true) ∨
          r.trigger throws call history = (refused.suppress, .ok false)) ∨
    ∃ frame, call.frame = some frame ∧ r.admits call frame = true ∧
      ((∃ failed, call.localSteps.find? throws = some failed ∧
          r.trigger throws call history = (r.begun frame, .error failed)) ∨
        (call.localSteps.find? throws = none ∧
          let started := (r.begun frame).startCollecting throws
            (history.selectPreRoll frame.sensorTimestampNs r.config.eventPreNs).hasIndependentStart
            (r.eventOf call frame history)
          r.trigger throws call history = (started.1, started.2.map fun _ => true))) := by
  unfold trigger
  cases hframe : call.frame with
  | none => exact Or.inl ⟨by simp [records, hframe], rfl⟩
  | some frame =>
    cases hrecords : r.records call with
    | false => exact Or.inl ⟨rfl, by simp⟩
    | true =>
      refine Or.inr ?_
      cases hstorage : call.storageAvailable with
      | false =>
        refine Or.inl ⟨rfl, by simp [admits, hstorage], r.latestSensorTimestampNs,
          r.metrics.eventDiskSpaceRejections + 1, ?_⟩
        cases throws .storageLog <;> simp
      | true =>
        cases haccepting : r.accepting with
        | false =>
          refine Or.inl ⟨rfl, by simp [admits, haccepting],
            max r.latestSensorTimestampNs frame.sensorTimestampNs,
            r.metrics.eventDiskSpaceRejections, Or.inr ?_⟩
          simp [see, haccepting, suppress]
        | true =>
          by_cases hgate : r.gate.collecting = false ∧
              r.gate.cooldownUntilNs ≤ frame.sensorTimestampNs
          · have hbegin : r.gate.tryBegin frame.sensorTimestampNs =
                ({ r.gate with collecting := true }, true) := by
              simp [EventGate.tryBegin, hgate.1, hgate.2]
            refine Or.inr ⟨frame, rfl, by simp [admits, *], ?_⟩
            cases hlocal : call.localSteps.find? throws with
            | some failed => exact Or.inl ⟨failed, rfl, by simp [see, *, begun]⟩
            | none => exact Or.inr ⟨rfl, by simp [see, *, begun, eventOf]⟩
          · have hbegin : r.gate.tryBegin frame.sensorTimestampNs = (r.gate, false) := by
              unfold EventGate.tryBegin
              rw [if_pos]
              by_contra hc
              exact hgate (by simpa using hc)
            refine Or.inl ⟨rfl, ?_, max r.latestSensorTimestampNs frame.sensorTimestampNs,
              r.metrics.eventDiskSpaceRejections, Or.inr ?_⟩
            · rintro other ⟨rfl⟩
              by_contra hc
              simp only [admits, Bool.not_eq_false, Bool.and_eq_true, decide_eq_true_eq] at hc
              exact hgate ⟨by simpa using hc.1.2, hc.2⟩
            · simp [see, haccepting, hbegin, suppress]

/-- What `observeEncoded` does with a unit while an event collects. -/
theorem observeEncoded_cases {r : EventRecorder} {event : EventJob}
    (henabled : r.config.eventRecordingEnabled = true) (h : r.active = some event)
    (throws : AllocStep → Bool) (unit : EncodedAccessUnit) :
    let seen := r.see unit.sensorTimestampNs
    let extended :=
      { seen with active := some { event with units := event.units ++ [unit] } }
    (unit.generation ≠ event.generation ∧ r.observeEncoded throws (some unit) =
      seen.finishLocked throws false "encoder generation changed during post-roll") ∨
    (unit.generation = event.generation ∧
      (∃ back, event.units.getLast? = some back ∧
        unit.sensorTimestampNs ≤ back.sensorTimestampNs) ∧
      r.observeEncoded throws (some unit) = (seen, .ok ())) ∨
    (unit.generation = event.generation ∧
      (∀ back, event.units.getLast? = some back →
        back.sensorTimestampNs < unit.sensorTimestampNs) ∧
      ((throws .appendUnit = true ∧
          r.observeEncoded throws (some unit) = (seen, .error .appendUnit)) ∨
        (throws .appendUnit = false ∧
            event.requestedEndSensorTimestampNs ≤ unit.sensorTimestampNs ∧
          r.observeEncoded throws (some unit) = extended.finishLocked throws true "") ∨
        (throws .appendUnit = false ∧
            unit.sensorTimestampNs < event.requestedEndSensorTimestampNs ∧
          r.observeEncoded throws (some unit) = (extended, .ok ())))) := by
  have hseen : (r.see unit.sensorTimestampNs).active = some event := h
  unfold observeEncoded
  simp only [henabled, Bool.not_true, Bool.false_eq_true, if_false, hseen]
  by_cases hgen : unit.generation = event.generation
  · refine Or.inr ?_
    simp only [hgen, ne_eq, not_true, if_false]
    by_cases hold : ∃ back, event.units.getLast? = some back ∧
        unit.sensorTimestampNs ≤ back.sensorTimestampNs
    · refine Or.inl ⟨trivial, hold, ?_⟩
      rw [if_pos]
      obtain ⟨back, hback, hle⟩ := hold
      simp [hback, hle]
    · refine Or.inr ⟨trivial, ?_, ?_⟩
      · intro back hback
        by_contra hc
        exact hold ⟨back, hback, Nat.le_of_not_lt hc⟩
      · rw [if_neg (by simpa [Option.any_eq_true] using hold)]
        cases hthrow : throws .appendUnit with
        | true => simp
        | false =>
          by_cases hend : event.requestedEndSensorTimestampNs ≤ unit.sensorTimestampNs
          · simp [hend]
          · simp [hend, Nat.lt_of_not_le hend]
  · exact Or.inl ⟨hgen, by simp [hgen]⟩

/-- With nothing to collect, or with recording off, `observeEncoded` only looks at the time. -/
theorem observeEncoded_idle {r : EventRecorder}
    (h : r.config.eventRecordingEnabled = false ∨ r.active = none)
    (throws : AllocStep → Bool) (unit : Option EncodedAccessUnit) :
    ∃ latest, r.observeEncoded throws unit =
      ({ r with latestSensorTimestampNs := latest }, .ok ()) := by
  cases unit with
  | none => exact ⟨_, rfl⟩
  | some unit =>
    unfold observeEncoded
    cases henabled : r.config.eventRecordingEnabled with
    | false => exact ⟨_, rfl⟩
    | true =>
      have hactive : r.active = none := h.resolve_left (by simp [henabled])
      exact ⟨_, by simp only [see, hactive]; rfl⟩

/-- Behind its first half `stop` only touches `running`. -/
theorem stop_cases (throws : AllocStep → Bool) (r : EventRecorder) :
    ∃ running, (r.stop throws).1 = { (r.interrupt throws).1 with running } ∧
      ((r.interrupt throws).2 = .ok () →
        running = false ∧ (r.stop throws).2 = .ok (r.interrupt throws).1.running) ∧
      ∀ failed, (r.interrupt throws).2 = .error failed → (r.stop throws).2 = .error failed := by
  unfold stop
  rcases r.interrupt throws with ⟨closed, failed | _⟩
  · exact ⟨closed.running, rfl, by rintro ⟨⟩, fun _ h => by cases h; rfl⟩
  · dsimp only
    cases hrun : closed.running with
    | true => exact ⟨false, rfl, fun _ => ⟨rfl, rfl⟩, by rintro _ ⟨⟩⟩
    | false =>
      refine ⟨false, ?_, fun _ => ⟨rfl, rfl⟩, by rintro _ ⟨⟩⟩
      rw [if_neg (by simp), ← hrun]

/-! ### What a call without an exception does to the events -/

/-- The event is gone, dropped for want of room or closed into the queue. -/
theorem finishLocked_ok {r r' : EventRecorder} {event : EventJob} {throws : AllocStep → Bool}
    {postComplete : Bool} {error : String} (hactive : r.active = some event)
    (heq : r.finishLocked throws postComplete error = (r', .ok ())) :
    r'.active = none ∧
      (r'.jobs = r.jobs ∨ r'.jobs = r.jobs ++ [event.close postComplete error]) := by
  rcases finishLocked_cases hactive throws postComplete error with
    ⟨-, hf⟩ | ⟨-, ⟨-, hf⟩ | ⟨-, -, hf⟩ | ⟨-, -, hf⟩⟩
  · rw [hf] at heq
    cases heq
  · rw [hf] at heq
    cases heq
    exact ⟨rfl, Or.inl rfl⟩
  · rw [hf] at heq
    cases heq
  · rw [hf] at heq
    cases heq
    exact ⟨rfl, Or.inr rfl⟩

/-- A trigger leaves the events alone, starts to collect its event, or closes it at once. -/
theorem trigger_ok {r r' : EventRecorder} {throws : AllocStep → Bool} {call : TriggerCall}
    {history : EncodedRingBuffer} {result : Bool}
    (heq : r.trigger throws call history = (r', .ok result)) :
    (r'.active = r.active ∧ r'.jobs = r.jobs) ∨
    ∃ frame, call.frame = some frame ∧ r.admits call frame = true ∧
      let event := r.eventOf call frame history
      (r'.active = some event ∧ event.units ≠ [] ∧ event.postRollComplete = false ∧
          r'.jobs = r.jobs) ∨
        (r'.active = none ∧ (r'.jobs = r.jobs ∨ ∃ errors postComplete,
          r'.jobs = r.jobs ++ [{ event with errors }.close postComplete ""])) := by
  rcases trigger_cases throws call history r with
    ⟨-, hc⟩ | ⟨-, -, latest, rejections, ⟨hc, -⟩ | hc⟩ |
      ⟨frame, hframe, hadmits, ⟨failed, -, hc⟩ | ⟨-, hc⟩⟩
  · rw [hc] at heq
    cases heq
    exact Or.inl ⟨rfl, rfl⟩
  · rw [hc] at heq
    cases heq
  · rw [hc] at heq
    cases heq
    exact Or.inl ⟨rfl, rfl⟩
  · rw [hc] at heq
    cases heq
  · refine Or.inr ⟨frame, hframe, hadmits, ?_⟩
    dsimp only at hc ⊢
    set event := r.eventOf call frame history
    rcases startCollecting_cases throws
        (history.selectPreRoll frame.sensorTimestampNs r.config.eventPreNs).hasIndependentStart
        event (r.begun frame) with
      ⟨-, -, hs⟩ | ⟨-, -, hs⟩ | ⟨-, -, hs⟩ | ⟨hstart, hpost, hs⟩
    · rw [hc, hs] at heq
      cases heq
    · rw [hc, hs] at heq
      rcases hf : finishLocked throws false "" _ with ⟨closed, failed | _⟩
      · rw [hf] at heq
        cases heq
      · rw [hf] at heq
        cases heq
        obtain ⟨hnone, hjobs⟩ := finishLocked_ok (by rfl) hf
        exact Or.inr ⟨hnone, hjobs.imp id fun hjob => ⟨_, false, hjob⟩⟩
    · rw [hc, hs] at heq
      rcases hf : finishLocked throws true "" _ with ⟨closed, failed | _⟩
      · rw [hf] at heq
        cases heq
      · rw [hf] at heq
        cases heq
        obtain ⟨hnone, hjobs⟩ := finishLocked_ok (by rfl) hf
        exact Or.inr ⟨hnone, hjobs.imp id fun hjob => ⟨event.errors, true, hjob⟩⟩
    · rw [hc, hs] at heq
      cases heq
      exact Or.inl ⟨rfl, by simpa using (Bool.or_eq_false_iff.mp hstart).2, hpost, rfl⟩

/-- An observed unit ends the event, is dropped, or extends the clip and may then complete it. -/
theorem observeEncoded_ok {r r' : EventRecorder} {event : EventJob} {unit : EncodedAccessUnit}
    {throws : AllocStep → Bool} (henabled : r.config.eventRecordingEnabled = true)
    (hactive : r.active = some event)
    (heq : r.observeEncoded throws (some unit) = (r', .ok ())) :
    let extended := { event with units := event.units ++ [unit] }
    (unit.generation ≠ event.generation ∧ r'.active = none ∧ (r'.jobs = r.jobs ∨
      r'.jobs = r.jobs ++
        [event.close false "encoder generation changed during post-roll"])) ∨
    (unit.generation = event.generation ∧
      (∃ back, event.units.getLast? = some back ∧
        unit.sensorTimestampNs ≤ back.sensorTimestampNs) ∧
      r'.active = some event ∧ r'.jobs = r.jobs) ∨
    (unit.generation = event.generation ∧
      (∀ back, event.units.getLast? = some back →
        back.sensorTimestampNs < unit.sensorTimestampNs) ∧
      ((unit.sensorTimestampNs < event.requestedEndSensorTimestampNs ∧
          r'.active = some extended ∧ r'.jobs = r.jobs) ∨
        (event.requestedEndSensorTimestampNs ≤ unit.sensorTimestampNs ∧ r'.active = none ∧
          (r'.jobs = r.jobs ∨ r'.jobs = r.jobs ++ [extended.close true ""])))) := by
  rcases observeEncoded_cases henabled hactive throws unit with
    ⟨hgen, hc⟩ | ⟨hgen, hold, hc⟩ |
      ⟨hgen, hnew, ⟨-, hc⟩ | ⟨-, hend, hc⟩ | ⟨-, hend, hc⟩⟩
  · obtain ⟨hnone, hjobs⟩ := finishLocked_ok (by exact hactive) (hc ▸ heq)
    exact Or.inl ⟨hgen, hnone, hjobs⟩
  · rw [hc] at heq
    cases heq
    exact Or.inr (Or.inl ⟨hgen, hold, hactive, rfl⟩)
  · rw [hc] at heq
    cases heq
  · obtain ⟨hnone, hjobs⟩ := finishLocked_ok (by rfl) (hc ▸ heq)
    exact Or.inr (Or.inr ⟨hgen, hnew, Or.inr ⟨hend, hnone, hjobs⟩⟩)
  · rw [hc] at heq
    cases heq
    exact Or.inr (Or.inr ⟨hgen, hnew, Or.inl ⟨hend, rfl, rfl⟩⟩)

theorem stop_ok {r r' : EventRecorder} {throws : AllocStep → Bool} {joins : Bool}
    (heq : r.stop throws = (r', .ok joins)) :
    r'.active = none ∧ (r'.jobs = r.jobs ∨ ∃ event, r.active = some event ∧
      r'.jobs = r.jobs ++ [event.close false "shutdown interrupted event post-roll"]) := by
  obtain ⟨running, hstop, -, herror⟩ := stop_cases throws r
  rw [heq] at hstop herror
  subst hstop
  dsimp only
  rcases hfirst : r.interrupt throws with ⟨closed, failed | _⟩
  · cases herror failed (by rw [hfirst])
  · unfold interrupt at hfirst
    dsimp only at hfirst
    split at hfirst
    next hsome =>
      obtain ⟨event, hactive⟩ := Option.isSome_iff_exists.mp hsome
      obtain ⟨hnone, hjobs⟩ := finishLocked_ok (by exact hactive) hfirst
      exact ⟨hnone, hjobs.imp id fun hjob => ⟨event, hactive, hjob⟩⟩
    next hnone =>
      cases hfirst
      exact ⟨by simpa using hnone, Or.inl rfl⟩

end EventRecorder

end EggVision
