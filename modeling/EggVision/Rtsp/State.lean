import EggVision.AccessUnit
import Mathlib.Data.Int.Notation

/-!
# The fields behind `source_mutex_`

Media callbacks, the feeder, the watchdog and the two lifecycle calls meet in the fields of
`RtspServer` that `source_mutex_` protects. Each critical section is one function on `RtspState`,
with the values it takes from outside as arguments: the time, the object a signal was sent for, the
source found in a pipeline, the result of a push.

Objects are known by their addresses, written as numbers. `running_` and `generation_` are atomics
that are only written inside critical sections.

## Main definitions

* `RtspState`, and its critical sections in the order of the source
* `RecoveryJob`, `WatchdogView`, `Dispatch` — what the sections hand out
-/

namespace EggVision

/-- `RtspServer::RecoveryState`. -/
inductive RecoveryState
  | idle
  | requested
  | running
  | completed
deriving DecidableEq, Repr

/-- `GstRTSPMediaStatus`, as far as the server assigns it. -/
inductive MediaStatus
  | unprepared
  | unpreparing
  | preparing
  | prepared
  | error
deriving DecidableEq, Repr

/-- `GstFlowReturn`: accepted, flushing, or one of the errors. -/
inductive FlowReturn
  | ok
  | flushing
  | error
deriving DecidableEq, Repr

/-- `RecoveryJob`. `id` stands for the object, which the worker and the server share; the
references it holds are the ones `recoverMedia` moved or took. -/
structure RecoveryJob where
  id : ℕ
  token : ℕ
  server : Bool := false
  pool : Bool := false
  factory : Option ℕ := none
  source : Option ℕ := none
deriving DecidableEq, Repr

/-- The fields of `RtspServer` that `source_mutex_` protects, and the two pointers the sections
read beside them. -/
structure RtspState where
  running : Bool := false
  server : Bool := false
  recoveryWorker : Bool := false
  generation : ℕ := 0
  appsrc : Option ℕ := none
  currentMedia : Option ℕ := none
  currentFactory : Option ℕ := none
  listenerSource : Option ℕ := none
  watchdogSource : Option ℕ := none
  acceptingClients : Bool := false
  mediaGeneration : ℕ := 0
  consecutivePushFailures : ℕ := 0
  recoveryState : RecoveryState := .idle
  recoveryGeneration : ℕ := 0
  recoveryToken : ℕ := 0
  nextRecoveryToken : ℕ := 0
  recoveryReason : String := ""
  recoveryStartedUs : ℤ := 0
  recoveryFailureReported : Bool := false
  recoveryMediaUnprepared : Bool := false
  recoveryJob : Option RecoveryJob := none
  observedStatus : MediaStatus := .unprepared
  statusSinceUs : ℤ := 0
deriving DecidableEq, Repr

namespace RtspState

/-! ### Start and stop -/

/-- The assignments that `start` and `stopLocked` make to the recovery fields. -/
def resetRecovery (s : RtspState) : RtspState :=
  { s with
    recoveryState := .idle
    recoveryGeneration := 0
    recoveryToken := 0
    recoveryReason := ""
    recoveryStartedUs := 0
    recoveryFailureReported := false
    recoveryMediaUnprepared := false
    recoveryJob := none }

/-- `start` publishes the new epoch. -/
def publishStart (now : ℤ) (s : RtspState) : RtspState :=
  { s.resetRecovery with
    running := true
    listenerSource := none
    watchdogSource := none
    acceptingClients := false
    appsrc := none
    currentMedia := none
    currentFactory := none
    mediaGeneration := s.mediaGeneration + 1
    consecutivePushFailures := 0
    nextRecoveryToken := 0
    observedStatus := .unprepared
    statusSinceUs := now }

/-- `installFactory`; false when there is a factory already or the server stops. -/
def publishFactory (factory : ℕ) (s : RtspState) : RtspState × Bool :=
  if !s.running || s.currentFactory.isSome then (s, false)
  else ({ s with currentFactory := some factory }, true)

def publishListener (listener : ℕ) (s : RtspState) : RtspState :=
  { s with listenerSource := some listener, acceptingClients := true }

def publishWatchdog (watchdog : ℕ) (s : RtspState) : RtspState :=
  { s with watchdogSource := some watchdog }

/-- The first section of `stopLocked`; false when the server does not run. -/
def publishStop (s : RtspState) : RtspState × Bool :=
  if !s.running then (s, false) else ({ s with running := false }, true)

/-- The second section of `stopLocked`. The result is the recovery job it has to wait for. -/
def takeSources (done : ℕ → Bool) (s : RtspState) : RtspState × Option RecoveryJob :=
  let waitFor :=
    if s.recoveryState = .running then
      s.recoveryJob.filter fun job => decide (job.token = s.recoveryToken) && !done job.id
    else none
  ({ s with watchdogSource := none, listenerSource := none, acceptingClients := false }, waitFor)

/-- `stopLocked` has waited for the job for longer than it likes. -/
def reportDelay (s : RtspState) : RtspState := { s with recoveryFailureReported := true }

/-- `requestRecoveryWorkerStop` takes the worker's state. -/
def takeRecoveryWorker (s : RtspState) : RtspState := { s with recoveryWorker := false }

/-- The last section of `stopLocked`. -/
def retireAll (now : ℤ) (s : RtspState) : RtspState :=
  { s.resetRecovery with
    appsrc := none
    currentMedia := none
    currentFactory := none
    generation := s.generation + 1
    mediaGeneration := s.mediaGeneration + 1
    consecutivePushFailures := 0
    observedStatus := .unprepared
    statusSinceUs := now }

/-! ### Media callbacks -/

/-- A media that is on its way out may be replaced. -/
def replacingRetiredMedia (s : RtspState) : Bool :=
  s.currentMedia.isSome &&
    (decide (s.observedStatus = .unpreparing) || decide (s.observedStatus = .error))

/-- The condition under which `onMediaConfigure` takes the media. -/
def acceptsMedia (factory : ℕ) (s : RtspState) : Bool :=
  s.running && decide (s.currentFactory = some factory) &&
    (s.currentMedia.isNone || s.replacingRetiredMedia)

/-- `onMediaConfigure`; `recovery_media_unprepared_` and `recovery_job_` keep their values. -/
def configure (factory media : ℕ) (now : ℤ) (s : RtspState) : RtspState × Bool :=
  if s.acceptsMedia factory then
    ({ s with
      currentMedia := some media
      appsrc := none
      generation := s.generation + 1
      mediaGeneration := s.mediaGeneration + 1
      consecutivePushFailures := 0
      recoveryState := .idle
      recoveryGeneration := 0
      recoveryToken := 0
      recoveryReason := ""
      recoveryStartedUs := 0
      recoveryFailureReported := false
      observedStatus := .preparing
      statusSinceUs := now }, true)
  else (s, false)

/-- The section at the end of `onMediaConfigure`, when the source could not be bound. -/
def failSetup (media : ℕ) (s : RtspState) : RtspState :=
  if s.currentMedia = some media then
    { s with
      recoveryState := .requested
      recoveryGeneration := s.mediaGeneration
      nextRecoveryToken := s.nextRecoveryToken + 1
      recoveryToken := s.nextRecoveryToken + 1
      recoveryReason := "media setup failure" }
  else s

/-- `bindMediaSource` refuses the media: it is not the current one, or it is being recovered. -/
def refusesBinding (media : ℕ) (s : RtspState) : Bool :=
  decide (s.currentMedia ≠ some media) ||
    ((decide (s.recoveryState = .requested) || decide (s.recoveryState = .running)) &&
      decide (s.recoveryGeneration = s.mediaGeneration))

/-- What `bindMediaSource` found out behind the lock. -/
structure Binding where
  accepted : Bool
  changed : Bool
deriving DecidableEq, Repr

/-- `bindMediaSource`, for the source found in the pipeline of the media. -/
def bind (media source : ℕ) (s : RtspState) : RtspState × Binding :=
  if s.refusesBinding media then (s, { accepted := false, changed := false })
  else if s.appsrc = some source then (s, { accepted := true, changed := false })
  else
    ({ s with appsrc := some source, generation := s.generation + 1 },
      { accepted := true, changed := true })

/-- `onMediaPrepared`, once the source is bound. -/
def markPrepared (media : ℕ) (now : ℤ) (s : RtspState) : RtspState :=
  if s.currentMedia = some media then
    { s with consecutivePushFailures := 0, observedStatus := .prepared, statusSinceUs := now }
  else s

/-- The media is being torn down for a recovery of its own generation. -/
def recoveredFromError (s : RtspState) : Bool :=
  decide (s.recoveryState = .running) && decide (s.recoveryGeneration = s.mediaGeneration)

/-- `onMediaUnprepared`; false when the media is not the current one. -/
def unprepare (media : ℕ) (now : ℤ) (s : RtspState) : RtspState × Bool :=
  if s.currentMedia = some media then
    let retired := { s with
      currentMedia := none
      appsrc := none
      generation := s.generation + 1
      mediaGeneration := s.mediaGeneration + 1
      consecutivePushFailures := 0
      observedStatus := .unprepared
      statusSinceUs := now }
    (if s.recoveredFromError then { retired with recoveryMediaUnprepared := true }
      else retired.resetRecovery, true)
  else (s, false)

/-- `onMediaTargetState`. -/
def targetState (media : ℕ) (toNull : Bool) (now : ℤ) (s : RtspState) : RtspState :=
  if s.currentMedia ≠ some media || !toNull then s
  else { s with observedStatus := .unpreparing, statusSinceUs := now }

/-- `onMediaHandleMessage` for an error message: a request of its own, or one more of the same. -/
def reportError (media : ℕ) (now : ℤ) (s : RtspState) : RtspState × Bool :=
  if s.currentMedia = some media then
    let firstRequest :=
      decide (s.recoveryState = .idle) || decide (s.recoveryGeneration ≠ s.mediaGeneration)
    let token := s.nextRecoveryToken + 1
    ({ s with
      recoveryState := .requested
      recoveryGeneration := s.mediaGeneration
      nextRecoveryToken := if firstRequest then token else s.nextRecoveryToken
      recoveryToken := if firstRequest then token else s.recoveryToken
      recoveryReason := "media bus reported an error"
      observedStatus := .error
      statusSinceUs := now }, firstRequest)
  else (s, false)

/-! ### Recovery -/

/-- The job of the current token is there and done. -/
def jobDone (done : ℕ → Bool) (s : RtspState) : Bool :=
  s.recoveryJob.any fun job => decide (job.token = s.recoveryToken) && done job.id

/-- `finishRecoveryIfReady` may go on to reopen the listener. -/
def recoveryReady (done : ℕ → Bool) (s : RtspState) : Bool :=
  s.running && decide (s.recoveryState = .running) && decide (s.recoveryGeneration ≠ 0) &&
    s.recoveryMediaUnprepared && s.jobDone done

/-- `finishRecoveryIfReady` has to report that the media takes too long. -/
def recoveryLate (now : ℤ) (s : RtspState) : Bool :=
  s.running && decide (s.recoveryState = .running) && decide (s.recoveryGeneration ≠ 0) &&
    decide (s.recoveryStartedUs ≠ 0) && !s.recoveryFailureReported &&
    decide (now - s.recoveryStartedUs ≥ 5000000)

/-- What the first section of `finishRecoveryIfReady` found. -/
structure RecoveryCheck where
  ready : Bool
  late : Bool
deriving DecidableEq, Repr

/-- The first section of `finishRecoveryIfReady`. -/
def checkRecovery (now : ℤ) (done : ℕ → Bool) (s : RtspState) : RtspState × RecoveryCheck :=
  let late := s.recoveryLate now
  let ready := s.recoveryReady done
  ({ s with
    recoveryFailureReported := s.recoveryFailureReported || late
    recoveryState := if ready then .completed else s.recoveryState }, { ready, late })

/-- The condition under which the second section of `finishRecoveryIfReady` resumes. -/
def mayResume (done : ℕ → Bool) (s : RtspState) : Bool :=
  s.running && decide (s.recoveryState = .completed) && decide (s.recoveryGeneration ≠ 0) &&
    s.recoveryMediaUnprepared && s.jobDone done && !s.acceptingClients

/-- The second section of `finishRecoveryIfReady`, with the listener that was created for it. -/
def resume (listener : Option ℕ) (done : ℕ → Bool) (s : RtspState) : RtspState × Bool :=
  match listener with
  | some source =>
    if s.mayResume done then
      ({ s.resetRecovery with listenerSource := some source, acceptingClients := true }, true)
    else (s, false)
  | none =>
    if s.running then ({ s with recoveryFailureReported := true }, false) else (s, false)

/-- What `onWatchdog` copies for its decision. -/
structure WatchdogView where
  mediaGeneration : ℕ := 0
  recoveryGeneration : ℕ := 0
  recoveryReason : String := ""
  status : MediaStatus := .unprepared
  statusSinceUs : ℤ
deriving DecidableEq, Repr

/-- The status section of `onWatchdog`. -/
def view (now : ℤ) (s : RtspState) : WatchdogView :=
  if s.currentMedia.isSome then
    { mediaGeneration := s.mediaGeneration
      recoveryGeneration := if s.recoveryState = .requested then s.recoveryGeneration else 0
      recoveryReason := s.recoveryReason
      status := s.observedStatus
      statusSinceUs := s.statusSinceUs }
  else { statusSinceUs := now }

/-- The `recoverMedia` call `onWatchdog` makes, if it makes one. -/
def WatchdogView.decision (now : ℤ) (view : WatchdogView) : Option (ℕ × String) :=
  if view.recoveryGeneration ≠ 0 then
    some (view.recoveryGeneration,
      if view.recoveryReason.isEmpty then "media recovery requested" else view.recoveryReason)
  else if view.mediaGeneration = 0 then none
  else
    let age := now - view.statusSinceUs
    match view.status with
    | .error => some (view.mediaGeneration, "media entered error state")
    | .unpreparing =>
      if age ≥ 3000000 then
        some (view.mediaGeneration, "media remained unpreparing for 3 seconds")
      else none
    | .preparing =>
      if age ≥ 10000000 then
        some (view.mediaGeneration, "media remained preparing for 10 seconds")
      else none
    | .unprepared | .prepared => none

/-- There is a request of the given generation. -/
def isRequested (generation : ℕ) (s : RtspState) : Bool :=
  decide (s.recoveryState = .requested) && decide (s.recoveryGeneration = generation)

/-- The request is dropped: the stale case of `recoverMedia`, and its `catch`. -/
def dropRequest (s : RtspState) : RtspState :=
  { s with
    recoveryState := .idle
    recoveryGeneration := 0
    recoveryToken := 0
    recoveryReason := "" }

/-- `recoverMedia` publishes `Running`. Everything it hands over is in the job. -/
def publishRunning (expected : ℕ) (reason : String) (now : ℤ) (id : ℕ) (s : RtspState) :
    RtspState × RecoveryJob :=
  let token := if s.recoveryToken = 0 then s.nextRecoveryToken + 1 else s.recoveryToken
  let job : RecoveryJob :=
    { id, token
      server := s.server
      pool := s.server
      factory := s.currentFactory
      source := s.appsrc }
  ({ s with
    appsrc := none
    generation := s.generation + 1
    consecutivePushFailures := 0
    recoveryState := .running
    recoveryGeneration := expected
    nextRecoveryToken :=
      if s.recoveryToken = 0 then s.nextRecoveryToken + 1 else s.nextRecoveryToken
    recoveryToken := token
    recoveryReason := reason
    recoveryStartedUs := now
    recoveryFailureReported := false
    recoveryMediaUnprepared := false
    recoveryJob := some job
    statusSinceUs := now
    listenerSource := none
    acceptingClients := false }, job)

/-- How the locked part of `recoverMedia` ends. -/
inductive Dispatch
  | ignored
  | dispatched (job : RecoveryJob) (listener : Option ℕ)
  | thrown (what : String)
deriving DecidableEq, Repr

/-- The locked part of `recoverMedia`; `accepts` says that the worker has room for a job. -/
def recoverMedia (expected : ℕ) (reason : String) (now : ℤ) (id : ℕ) (accepts : Bool)
    (s : RtspState) : RtspState × Dispatch :=
  if !s.running || s.currentMedia.isNone || decide (s.mediaGeneration ≠ expected) then
    (if s.isRequested expected then s.dropRequest else s, .ignored)
  else
    match s.recoveryState with
    | .running | .completed => (s, .ignored)
    | .requested | .idle =>
      if !s.recoveryWorker then (s, .thrown "recovery worker is unavailable")
      else if !accepts then (s, .thrown "recovery worker cannot accept a job")
      else
        let (s', job) := s.publishRunning expected reason now id
        (s', .dispatched job s.listenerSource)

/-- The locked part of the `catch` of `recoverMedia`. -/
def failDispatch (expected : ℕ) (s : RtspState) : RtspState :=
  if s.isRequested expected then s.dropRequest
  else if s.recoveryState = .running then { s with recoveryFailureReported := true }
  else s

/-! ### The feeder -/

/-- The feeder's record of a push that was made for `mediaGeneration`. -/
def recordPush (mediaGeneration : ℕ) (flow : FlowReturn) (s : RtspState) : RtspState :=
  if s.currentMedia.isSome && decide (s.mediaGeneration = mediaGeneration) then
    match flow with
    | .ok | .flushing => { s with consecutivePushFailures := 0 }
    | .error =>
      let failures := s.consecutivePushFailures + 1
      if failures ≥ 3 then
        let first :=
          decide (s.recoveryState = .idle) || decide (s.recoveryGeneration ≠ mediaGeneration)
        { s with
          consecutivePushFailures := failures
          nextRecoveryToken := if first then s.nextRecoveryToken + 1 else s.nextRecoveryToken
          recoveryToken := if first then s.nextRecoveryToken + 1 else s.recoveryToken
          recoveryState := .requested
          recoveryGeneration := mediaGeneration
          recoveryReason := "repeated appsrc push failure" }
      else { s with consecutivePushFailures := failures }
  else s

end RtspState

end EggVision
