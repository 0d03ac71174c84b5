import EggVision.Event.Names
import EggVision.Event.Recorder
import EggVision.Lib.FileTree
import EggVision.Lib.Transition

/-!
# The directories of events

`writeEvent` builds an event in a hidden directory, one file after the other, and gives the
directory its name when it is done. Between any two calls, and in the middle of one, the process
may be killed; the next process finds what was left. Each call that changes the disk is one step,
and the world says how it ends: a write may fail and leave something behind, a `rename` happens as
a whole or not at all.

Paths are below `events_dir`, which is there, and in which nobody else writes. What a file holds is
named by the call that wrote it. A power failure, after which the disk may have lost what the calls
wrote, is not modelled.

## Main definitions

* `EventFile`, `Content`, `EventDocument` — the files of an event
* `Stage`, `Writing` — how far `writeEvent` has come
* `EventStore`, `StoreAction`, `EventStore.step`
-/

namespace EggVision

open FileTree

/-! ### Files -/

/-- The files that `writeEvent` writes. -/
inductive EventFile
  | snapshotPartial
  | snapshot
  | clipPartial
  | clip
  | metadataPartial
  | metadata
deriving DecidableEq, Repr

/-- The field of `AppConfig` that names the files. -/
structure StoreConfig where
  eventContainer : String := "mp4"
deriving DecidableEq, Repr

def StoreConfig.extension (config : StoreConfig) : String :=
  if config.eventContainer = "mp4" then ".mp4" else ".mkv"

def EventFile.name (config : StoreConfig) : EventFile → String
  | .snapshotPartial => "snapshot.partial.jpg"
  | .snapshot => "snapshot.jpg"
  | .clipPartial => "clip.partial" ++ config.extension
  | .clip => "clip" ++ config.extension
  | .metadataPartial => "metadata.partial.json"
  | .metadata => "metadata.json"

theorem EventFile.name_injective (config : StoreConfig) :
    Function.Injective (EventFile.name config) := by
  have hextension : config.extension = ".mp4" ∨ config.extension = ".mkv" := by
    unfold StoreConfig.extension
    split
    · exact Or.inl rfl
    · exact Or.inr rfl
  intro file file' h
  rcases hextension with hext | hext <;>
    cases file <;> cases file' <;> simp only [name, hext] at h <;>
      first | rfl | exact absurd h (by decide)

/-- An `EventJob` with its `wall_time`, after which it is named. -/
structure QueuedEvent where
  job : EventJob
  wallTime : WallTime
  id_eq : job.id = formatEventId wallTime job.triggerSequence

namespace QueuedEvent

/-- `job.errors.push_back`, unless there is nothing to say. -/
def note (event : QueuedEvent) (error : String) : QueuedEvent :=
  { event with
    job := { event.job with
      errors := if error.isEmpty then event.job.errors else event.job.errors ++ [error] } }

def dateDir (event : QueuedEvent) : List String := [formatDate event.wallTime]

def partialDir (event : QueuedEvent) : List String := event.dateDir ++ [partialName event.job.id]

def finalDir (event : QueuedEvent) : List String := event.dateDir ++ [event.job.id]

@[simp] theorem note_partialDir (event : QueuedEvent) (error : String) :
    (event.note error).partialDir = event.partialDir := rfl

@[simp] theorem note_finalDir (event : QueuedEvent) (error : String) :
    (event.note error).finalDir = event.finalDir := rfl

end QueuedEvent

/-- What `writeMetadata` is given. -/
structure EventDocument where
  event : QueuedEvent
  snapshot : EventRecorder.ArtifactResult
  video : EventRecorder.ArtifactResult

/-- What a file holds, by the call that wrote it. -/
inductive Content
  | foreign
  | torn
  | probe
  | jpeg (of : MainSnapshot)
  | muxed (of : List EncodedAccessUnit)
  | document (of : EventDocument)

abbrev EventDisk := Tree String Content

/-! ### One event -/

/-- The next call of `writeEvent` that changes the disk, with the results there are so far. -/
inductive Stage
  | snapshot
  | snapshotName
  | clip (snapshot : EventRecorder.ArtifactResult)
  | clipName (snapshot : EventRecorder.ArtifactResult)
  | metadata (snapshot video : EventRecorder.ArtifactResult)
  | metadataName (snapshot video : EventRecorder.ArtifactResult)
  | publish (snapshot video : EventRecorder.ArtifactResult)

/-- The file that a stage writes. -/
def Stage.file? : Stage → Option EventFile
  | .snapshot => some .snapshotPartial
  | .clip _ => some .clipPartial
  | .metadata _ _ => some .metadataPartial
  | .snapshotName | .clipName _ | .metadataName _ _ | .publish _ _ => none

structure Writing where
  event : QueuedEvent
  stage : Stage

/-- The worker: its counters, and the event it is at. -/
structure EventWriter where
  metrics : EventMetrics := {}
  writing : Option Writing := none

/-- How a call ends: with a number of bytes or a text, and, for a write that failed, whether there
is something where the file would be. -/
structure Answer where
  result : Except String ℕ
  debris : Bool := false

namespace EventWriter

open EventRecorder

/-- `muxVideo`, for a job that its checks refuse. -/
def refusedClip (job : EventJob) : Option ArtifactResult :=
  let video := muxVideo job (.ok 0)
  if video.status = .complete then none else some video

/-- `writeSnapshot`, for a snapshot that its checks refuse. -/
def refusedSnapshot (snapshot : MainSnapshot) : Option ArtifactResult :=
  let result := writeSnapshot snapshot (.ok 0)
  if result.status = .complete then none else some result

/-- From the result of `muxVideo` to `writeMetadata`. -/
def finishClip (event : QueuedEvent) (metrics : EventMetrics) (snapshot video : ArtifactResult) :
    EventWriter where
  metrics := countVideo video metrics
  writing :=
    let event := if video.status = .failed then event.note video.error else event
    some ⟨event, .metadata snapshot video⟩

/-- From the result of `writeSnapshot` to the pipeline of `muxVideo`, or past it. -/
def finishSnapshot (event : QueuedEvent) (metrics : EventMetrics) (snapshot : ArtifactResult) :
    EventWriter :=
  let metrics := countSnapshot snapshot metrics
  let event := if snapshot.status = .complete then event else event.note snapshot.error
  match refusedClip event.job with
  | some video => finishClip event metrics snapshot video
  | none => { metrics, writing := some ⟨event, .clip snapshot⟩ }

/-- From the new directory to `imwrite`, or past it. -/
def begin (event : QueuedEvent) (metrics : EventMetrics) : EventWriter :=
  match refusedSnapshot event.job.snapshot with
  | some snapshot => finishSnapshot event metrics snapshot
  | none => { metrics, writing := some ⟨event, .snapshot⟩ }

end EventWriter

/-- A write that failed has left something, or nothing. -/
def leaveDebris (config : StoreConfig) (disk : EventDisk) (dir : List String) (file : EventFile)
    (debris : Bool) : EventDisk :=
  if debris then (disk.write dir (file.name config) .torn).getD disk else disk

namespace Writing

open EventRecorder EventWriter

/-- The next call, with its answer. A call the disk does not allow cannot be answered with
success. -/
def answer (config : StoreConfig) (a : Answer) (metrics : EventMetrics) (disk : EventDisk)
    (w : Writing) : Option (EventDisk × EventWriter) :=
  let dir := w.event.partialDir
  let write := fun (file : EventFile) content => disk.write dir (file.name config) content
  let rename := fun (file file' : EventFile) =>
    disk.rename dir (file.name config) dir (file'.name config)
  let left := fun (file : EventFile) => leaveDebris config disk dir file a.debris
  match w.stage, a.result with
  | .snapshot, .ok _ =>
    (write .snapshotPartial (.jpeg w.event.job.snapshot)).map
      (·, { metrics, writing := some { w with stage := .snapshotName } })
  | .snapshot, .error error =>
    some (left .snapshotPartial, finishSnapshot w.event metrics { status := .failed, error })
  | .snapshotName, .ok bytes =>
    (rename .snapshotPartial .snapshot).map
      (·, finishSnapshot w.event metrics { status := .complete, bytes })
  | .snapshotName, .error error =>
    some (disk, finishSnapshot w.event metrics { status := .failed, error })
  | .clip snapshot, .ok _ =>
    (write .clipPartial (.muxed w.event.job.units)).map
      (·, { metrics, writing := some { w with stage := .clipName snapshot } })
  | .clip snapshot, .error error =>
    some (left .clipPartial, finishClip w.event metrics snapshot { status := .failed, error })
  | .clipName snapshot, .ok bytes =>
    (rename .clipPartial .clip).map
      (·, finishClip w.event metrics snapshot { status := .complete, bytes })
  | .clipName snapshot, .error error =>
    some (disk, finishClip w.event metrics snapshot { status := .failed, error })
  | .metadata snapshot video, .ok _ =>
    let snapshotOk := decide (snapshot.status = .complete)
    let videoOk := decide (video.status = .complete)
    let fatalMuxFailure := decide (video.status = .failed)
    (write .metadataPartial (.document ⟨w.event, snapshot, video⟩)).map
      (·, if fatalMuxFailure || (!snapshotOk && !videoOk) then { metrics := metrics.fail }
        else { metrics, writing := some { w with stage := .metadataName snapshot video } })
  | .metadata _ _, .error _ => some (left .metadataPartial, { metrics := metrics.fail })
  | .metadataName snapshot video, .ok _ =>
    (rename .metadataPartial .metadata).map
      (·, { metrics, writing := some { w with stage := .publish snapshot video } })
  | .publish _ _, .ok _ =>
    (disk.rename w.event.dateDir (partialName w.event.job.id) w.event.dateDir w.event.job.id).map
      (·, { metrics := { metrics with eventsCompleted := metrics.eventsCompleted + 1 } })
  | .metadataName _ _, .error _ | .publish _ _, .error _ =>
    some (disk, { metrics := metrics.fail })

end Writing

/-- `writeEvent` up to the hidden directory. A file of the day's name, a call that fails and an
event that is there already all end it. -/
def openEventDir (dateCreated dirCreated : Bool) (event : QueuedEvent) (disk : EventDisk) :
    EventDisk × Bool :=
  let dated :=
    if !dateCreated then none
    else if Node.isDirectory (disk.node event.dateDir) then some disk
    else disk.mkdir [] (formatDate event.wallTime)
  match dated with
  | none => (disk, false)
  | some disk =>
    if (disk.node event.partialDir).isSome || (disk.node event.finalDir).isSome || !dirCreated then
      (disk, false)
    else
      match disk.mkdir event.dateDir (partialName event.job.id) with
      | none => (disk, false)
      | some disk => (disk, true)

/-! ### One process after the other -/

/-- How the calls of `initialize` end: the probe is opened, is written, goes away, and there is
space. -/
structure StartAnswer where
  opened : Bool := true
  good : Bool := true
  removed : Bool := true
  available : Bool := true

def probeName (pid : ℕ) : String := ".eggvision-write-probe-" ++ toString pid

/-- `initialize`, by what it does to the disk; directories that an earlier process has left are
only reported. -/
def initializeStore (pid : ℕ) (a : StartAnswer) (disk : EventDisk) : EventDisk × Bool :=
  if !a.opened then (disk, false)
  else
    match disk.write [] (probeName pid) .probe with
    | none => (disk, false)
    | some disk =>
      if !a.good then (disk, false)
      else
        let disk := if a.removed then (disk.remove [] (probeName pid)).getD disk else disk
        (disk, a.available)

/-- The disk, and the worker of the process that runs. -/
structure EventStore where
  disk : EventDisk
  writer : Option EventWriter := none

inductive StoreAction
  | start (pid : ℕ) (a : StartAnswer)
  | take (event : QueuedEvent) (dateCreated dirCreated : Bool)
  | answer (a : Answer)
  | crash (debris : Bool)

namespace EventStore

/-- What a process leaves that is killed in the middle of a write. -/
def tear (config : StoreConfig) (debris : Bool) (disk : EventDisk) (writer : EventWriter) :
    EventDisk :=
  match writer.writing with
  | none => disk
  | some w =>
    match w.stage.file? with
    | none => disk
    | some file => leaveDebris config disk w.event.partialDir file debris

def step (config : StoreConfig) (s : EventStore) : StoreAction → Option EventStore
  | .start pid a =>
    match s.writer with
    | some _ => none
    | none =>
      let (disk, ok) := initializeStore pid a s.disk
      some { disk, writer := if ok then some {} else none }
  | .take event dateCreated dirCreated =>
    match s.writer with
    | some ⟨metrics, none⟩ =>
      match openEventDir dateCreated dirCreated event s.disk with
      | (disk, false) => some { disk, writer := some { metrics := metrics.fail } }
      | (disk, true) => some { disk, writer := some (EventWriter.begin event metrics) }
    | some ⟨_, some _⟩ | none => none
  | .answer a =>
    match s.writer with
    | some ⟨metrics, some w⟩ =>
      (w.answer config a metrics s.disk).map fun (disk, writer) => { disk, writer := some writer }
    | some ⟨_, none⟩ | none => none
  | .crash debris =>
    match s.writer with
    | none => none
    | some writer => some { disk := tear config debris s.disk writer }

end EventStore

end EggVision
