import EggVision.Lib.Transition
import EggVision.Rtsp.Feeder

/-!
# The RTSP server and its threads

One owner calls `start` and `stop`. Media signals arrive on threads of GStreamer, each of them a
callback of several steps; the watchdog ticks on the loop thread, the feeder and the recovery
worker have a thread each, and the encoder calls `submit`. A step of any of them is one lock region,
or one call that the others can run beside.

Callbacks are entered while the epoch is open. `stopLocked` closes it and waits for the callbacks
that are inside.

## Main definitions

* `RtspServer`, `RtspAction`, `RtspServer.step`
* `RtspServer.entered` — the critical section that a step enters

## Main results

* `step_shared` — a step changes the shared fields by the section it enters
* `step_feeder` — who moves the feeder
-/

namespace EggVision

open Transition RtspState

/-- Why a unit did not get as far as a decision of the feeder. -/
inductive Loss
  | notRunning
  | unbound
  | queueClosed
  | replaced
  | cleared
  | unsourced
deriving DecidableEq, Repr

/-- The counters of `Metrics` that the server writes. -/
structure RtspMetrics where
  rtspPushed : ℕ := 0
  rtspDropped : ℕ := 0
  rtspErrors : ℕ := 0
  rtspRecoveries : ℕ := 0
  rtspRecoveryFailures : ℕ := 0
deriving DecidableEq, Repr

/-- An error, counted with the failure of a recovery. -/
def RtspMetrics.failRecovery (m : RtspMetrics) : RtspMetrics :=
  { m with rtspErrors := m.rtspErrors + 1, rtspRecoveryFailures := m.rtspRecoveryFailures + 1 }

def RtspMetrics.fail (m : RtspMetrics) : RtspMetrics := { m with rtspErrors := m.rtspErrors + 1 }

def RtspMetrics.drop (m : RtspMetrics) : RtspMetrics := { m with rtspDropped := m.rtspDropped + 1 }

/-! ### Where the threads are -/

/-- The steps of `start`. -/
inductive StartStage
  | publish
  | allocate
  | factory
  | recoveryWorker
  | listener
  | sessionCleanup
  | watchdog
  | publishWatchdog
  | feeder
  | loop
deriving DecidableEq, Repr

/-- The steps of `stopLocked`. -/
inductive StopStage
  | publish
  | closeQueue
  | joinFeeder
  | takeSources
  | destroySources (waitFor : Option RecoveryJob)
  | waitJob (waitFor : Option RecoveryJob)
  | stopWorker
  | joinWorker
  | disableCallbacks
  | waitCallbacks
  | retire
  | release
deriving DecidableEq, Repr

/-- The owner is between two calls, or inside one. -/
inductive Lifecycle
  | stopped
  | starting (stage : StartStage)
  | started
  | stopping (stage : StopStage)
deriving DecidableEq, Repr

/-- What is left to do once `bindMediaSource` returns. -/
inductive AfterBind
  | setup
  | prepared
  | nothing
deriving DecidableEq, Repr

/-- A callback that is inside, at its next step. -/
inductive CallbackTask
  | configure (factory media : ℕ)
  | configured (media : ℕ)
  | bind (media : ℕ) (after : AfterBind)
  | bound (media : ℕ) (after : AfterBind)
  | failSetup (media : ℕ)
  | prepared (media : ℕ)
  | unprepared (media : ℕ)
  | released
  | targetState (media : ℕ) (toNull : Bool)
  | handleMessage (media : ℕ) (isError : Bool)
deriving DecidableEq, Repr

/-- `bindMediaSource` returned true. -/
def AfterBind.accepted (media : ℕ) : AfterBind → Option CallbackTask
  | .prepared => some (.prepared media)
  | .setup | .nothing => none

/-- `bindMediaSource` returned false. -/
def AfterBind.refused (media : ℕ) : AfterBind → Option CallbackTask
  | .setup => some (.failSetup media)
  | .prepared | .nothing => none

/-- `GstState`. -/
inductive GstState
  | voidPending
  | null
  | ready
  | paused
  | playing
deriving DecidableEq, Repr

/-- The signals of a factory and of its media. -/
inductive MediaSignal
  | configure (factory media : ℕ)
  | prepared (media : ℕ)
  | unprepared (media : ℕ)
  | targetState (media : ℕ) (state : GstState)
  | newState (media : ℕ) (state : GstState)
  | handleMessage (media : ℕ) (isError : Bool)
deriving DecidableEq, Repr

/-- The first step of the handler; `onMediaNewState` has none for the other states. -/
def MediaSignal.task : MediaSignal → Option CallbackTask
  | .configure factory media => some (.configure factory media)
  | .prepared media => some (.bind media .prepared)
  | .unprepared media => some (.unprepared media)
  | .targetState media state => some (.targetState media (decide (state = .null)))
  | .newState media state =>
    match state with
    | .ready | .paused | .playing => some (.bind media .nothing)
    | .voidPending | .null => none
  | .handleMessage media isError => some (.handleMessage media isError)

/-- The watchdog's place in `onWatchdog`; `now` is the time it took on entry. -/
inductive WatchdogPhase
  | idle
  | finishing (now : ℤ)
  | resuming (now : ℤ)
  | viewing (now : ℤ)
  | recovering (expected : ℕ) (reason : String)
  | failing (expected : ℕ)
  | dispatched
deriving DecidableEq, Repr

/-- The thread of `recoveryWorkerLoop`. -/
inductive RecoveryThread
  | absent
  | waiting
  | processing (job : RecoveryJob)
  | exited
deriving DecidableEq, Repr

/-- `RecoveryWorkerState` with its thread, and the jobs whose `done` flag is set. -/
structure RecoveryWorker where
  thread : RecoveryThread := .absent
  pending : Option RecoveryJob := none
  stopping : Bool := false
  done : List ℕ := []
deriving DecidableEq, Repr

namespace RecoveryWorker

def isDone (w : RecoveryWorker) (id : ℕ) : Bool := decide (id ∈ w.done)

/-- There is room for a job. -/
def accepts (w : RecoveryWorker) : Bool := !w.stopping && w.pending.isNone

/-- One step of `recoveryWorkerLoop`. -/
def step (w : RecoveryWorker) : Option RecoveryWorker :=
  match w.thread with
  | .waiting =>
    match w.pending with
    | some job => some { w with thread := .processing job, pending := none }
    | none => if w.stopping then some { w with thread := .exited } else none
  | .processing job => some { w with thread := .waiting, done := w.done ++ [job.id] }
  | .absent | .exited => none

end RecoveryWorker

/-- The encoder's place in `submit`. -/
inductive SubmitPhase
  | idle
  | locking (submitted : Submitted)
  | pushing (submitted : Submitted)
deriving DecidableEq, Repr

/-- The server, with every thread that is inside it. `lost` and the feeder's log say what became of
each of the first `submissions` units. -/
structure RtspServer where
  fps : ℕ
  shared : RtspState := {}
  latest : LatestFrameQueue Submitted := {}
  metrics : RtspMetrics := {}
  lifecycle : Lifecycle := .stopped
  loop : Bool := false
  callbacksOpen : Bool := false
  callbacks : List CallbackTask := []
  watchdogAttached : Bool := false
  watchdog : WatchdogPhase := .idle
  worker : RecoveryWorker := {}
  nextJob : ℕ := 0
  feeder : Feeder := {}
  submitter : SubmitPhase := .idle
  submissions : ℕ := 0
  lost : List (ℕ × Loss) := []
deriving DecidableEq, Repr

/-! ### The steps of each thread -/

/-- What the owner's calls get from outside: success or failure, an address, the time, and whether
`startSessionCleanup` counts its failure. -/
structure OwnerEnv where
  ok : Bool := true
  id : ℕ := 0
  now : ℤ := 0
  counted : Bool := false
deriving DecidableEq, Repr

/-- What a callback gets from outside: the source of the pipeline, and the time. -/
structure CallbackEnv where
  source : Option ℕ := none
  now : ℤ := 0
deriving DecidableEq, Repr

/-- What the watchdog gets from outside: a listener, the time, and whether an allocation throws. -/
structure WatchdogEnv where
  listener : Option ℕ := none
  now : ℤ := 0
  throws : Bool := false
deriving DecidableEq, Repr

/-- What the feeder gets from GStreamer. -/
structure FeederEnv where
  allocated : Bool := true
  flow : FlowReturn := .ok
deriving DecidableEq, Repr

inductive OwnerCall
  | start
  | stop
deriving DecidableEq, Repr

inductive RtspAction
  | call (call : OwnerCall) (ok : Bool)
  | owner (env : OwnerEnv)
  | signal (signal : MediaSignal)
  | callback (index : ℕ) (env : CallbackEnv)
  | tick (now : ℤ)
  | watchdog (env : WatchdogEnv)
  | worker
  | feeder (env : FeederEnv)
  | submit (unit : Option EncodedAccessUnit)
  | submitNext
deriving DecidableEq, Repr

namespace RtspServer

/-- A constructed server. -/
def initial (fps : ℕ) : RtspServer := { fps }

/-- The queued unit, as lost. -/
def queued (loss : Loss) (t : RtspServer) : List (ℕ × Loss) :=
  t.latest.value.toList.map fun submitted => (submitted.index, loss)

/-- `latest_.clear()`. -/
def clearLatest (t : RtspServer) : RtspServer :=
  { t with latest := t.latest.clear, lost := t.lost ++ t.queued .cleared }

/-- `start` and `stop`, up to the point where they find out whether there is anything to do: only
their own steps write `running_`. The epoch that `start` allocates first may fail. -/
def callStep (call : OwnerCall) (ok : Bool) (t : RtspServer) : Option RtspServer :=
  match t.lifecycle with
  | .starting _ | .stopping _ => none
  | .stopped | .started =>
    match call with
    | .start =>
      if t.shared.running then some t
      else if !ok then some { t with metrics := t.metrics.fail }
      else
        some { t with
          latest := t.latest.reopen
          lost := t.lost ++ t.queued .cleared
          lifecycle := .starting .publish }
    | .stop => some (if t.shared.running then { t with lifecycle := .stopping .publish } else t)

/-- The steps of `start`. A failure goes to `stopLocked`. -/
def startStep (stage : StartStage) (env : OwnerEnv) (t : RtspServer) : RtspServer :=
  let failed := { t with lifecycle := .stopping .publish }
  match stage with
  | .publish =>
    { t with
      shared := t.shared.publishStart env.now
      callbacksOpen := true
      lifecycle := .starting .allocate }
  | .allocate =>
    let shared := { t.shared with server := env.ok }
    if env.ok then { t with shared, lifecycle := .starting .factory }
    else { failed with shared, metrics := t.metrics.fail }
  | .factory =>
    let (shared, installed) := t.shared.publishFactory env.id
    if !env.ok then failed
    else if installed then { t with shared, lifecycle := .starting .recoveryWorker }
    else failed
  | .recoveryWorker =>
    if env.ok then
      { t with
        shared := { t.shared with recoveryWorker := true }
        worker := { thread := .waiting, done := t.worker.done }
        lifecycle := .starting .listener }
    else { failed with metrics := t.metrics.failRecovery }
  | .listener =>
    if env.ok then
      { t with shared := t.shared.publishListener env.id, lifecycle := .starting .sessionCleanup }
    else failed
  | .sessionCleanup =>
    if env.ok then { t with lifecycle := .starting .watchdog }
    else { failed with metrics := if env.counted then t.metrics.fail else t.metrics }
  | .watchdog =>
    if env.ok then { t with watchdogAttached := true, lifecycle := .starting .publishWatchdog }
    else { failed with metrics := t.metrics.fail }
  | .publishWatchdog =>
    { t with shared := t.shared.publishWatchdog env.id, lifecycle := .starting .feeder }
  | .feeder =>
    if env.ok then
      { t with feeder := { t.feeder with phase := .starting }, lifecycle := .starting .loop }
    else { failed with metrics := t.metrics.fail }
  | .loop =>
    if env.ok then { t with loop := true, lifecycle := .started }
    else { failed with metrics := t.metrics.fail }

/-- The steps of `stopLocked`. While it waits for a job, `ok` says that the wait may go on. -/
def stopStep (stage : StopStage) (env : OwnerEnv) (t : RtspServer) : Option RtspServer :=
  match stage with
  | .publish =>
    let (shared, running) := t.shared.publishStop
    some { t with
      shared
      lifecycle := if running then .stopping .closeQueue else .stopped }
  | .closeQueue =>
    some { t with
      latest := t.latest.close
      lost := t.lost ++ t.queued .cleared
      lifecycle := .stopping .joinFeeder }
  | .joinFeeder =>
    if t.feeder.phase = .exited ∨ t.feeder.phase = .absent then
      some { t with
        feeder := { t.feeder with phase := .absent }
        lifecycle := .stopping .takeSources }
    else none
  | .takeSources =>
    let (shared, waitFor) := t.shared.takeSources t.worker.isDone
    some { t with shared, lifecycle := .stopping (.destroySources waitFor) }
  | .destroySources waitFor =>
    some { t with watchdogAttached := false, lifecycle := .stopping (.waitJob waitFor) }
  | .waitJob waitFor =>
    if waitFor.all fun job => t.worker.isDone job.id then
      some { t with lifecycle := .stopping .stopWorker }
    else if env.ok then none
    else
      some { t with
        shared := t.shared.reportDelay
        metrics := if t.shared.recoveryFailureReported then t.metrics
          else t.metrics.failRecovery }
  | .stopWorker =>
    some { t with
      shared := t.shared.takeRecoveryWorker
      worker := if t.shared.recoveryWorker then { t.worker with stopping := true } else t.worker
      lifecycle := .stopping .joinWorker }
  | .joinWorker =>
    if t.worker.thread = .exited ∨ t.worker.thread = .absent then
      some { t with
        worker := { t.worker with thread := .absent }
        lifecycle := .stopping .disableCallbacks }
    else none
  | .disableCallbacks =>
    some { t with callbacksOpen := false, lifecycle := .stopping .waitCallbacks }
  | .waitCallbacks =>
    if t.callbacks = [] ∧ t.watchdog = .idle then
      some { t with lifecycle := .stopping .retire }
    else none
  | .retire =>
    some { t with shared := t.shared.retireAll env.now, lifecycle := .stopping .release }
  | .release =>
    some { t with
      shared := { t.shared with server := false }
      loop := false
      lifecycle := .stopped }

def ownerStep (env : OwnerEnv) (t : RtspServer) : Option RtspServer :=
  match t.lifecycle with
  | .starting stage => some (t.startStep stage env)
  | .stopping stage => t.stopStep stage env
  | .stopped | .started => none

/-- One step of a callback, and the step that follows it in the same callback. -/
def callbackStep (env : CallbackEnv) (t : RtspServer) :
    CallbackTask → RtspServer × Option CallbackTask
  | .configure factory media =>
    let (shared, accepted) := t.shared.configure factory media env.now
    ({ t with shared }, if accepted then some (.configured media) else none)
  | .configured media => (t.clearLatest, some (.bind media .setup))
  | .bind media after =>
    match env.source with
    | none => ({ t with metrics := t.metrics.fail }, after.refused media)
    | some source =>
      let (shared, binding) := t.shared.bind media source
      ({ t with shared },
        if binding.changed then some (.bound media after)
        else if binding.accepted then after.accepted media
        else after.refused media)
  | .bound media after => (t.clearLatest, after.accepted media)
  | .failSetup media => ({ t with shared := t.shared.failSetup media }, none)
  | .prepared media => ({ t with shared := t.shared.markPrepared media env.now }, none)
  | .unprepared media =>
    let (shared, retired) := t.shared.unprepare media env.now
    ({ t with shared }, if retired then some .released else none)
  | .released => (t.clearLatest, none)
  | .targetState media toNull =>
    ({ t with shared := t.shared.targetState media toNull env.now }, none)
  | .handleMessage media isError =>
    if isError then
      let (shared, firstRequest) := t.shared.reportError media env.now
      ({ t with shared, metrics := if firstRequest then t.metrics.fail else t.metrics }, none)
    else (t, none)

/-- The watchdog's next step inside `onWatchdog`. -/
def watchdogStep (env : WatchdogEnv) (t : RtspServer) : Option RtspServer :=
  match t.watchdog with
  | .idle => none
  | .finishing now =>
    let (shared, found) := t.shared.checkRecovery env.now t.worker.isDone
    some { t with
      shared
      metrics := if found.late then t.metrics.failRecovery else t.metrics
      watchdog := if found.ready then .resuming now else .viewing now }
  | .resuming now =>
    let listener := if t.shared.server then env.listener else none
    let (shared, resumed) := t.shared.resume listener t.worker.isDone
    some { t with
      shared
      metrics :=
        if resumed then { t.metrics with rtspRecoveries := t.metrics.rtspRecoveries + 1 }
        else if t.shared.running && listener.isNone && !t.shared.recoveryFailureReported then
          t.metrics.failRecovery
        else t.metrics
      watchdog := .viewing now }
  | .viewing now =>
    some { t with
      watchdog :=
        match (t.shared.view now).decision now with
        | some (expected, reason) => .recovering expected reason
        | none => .idle }
  | .recovering expected reason =>
    if env.throws then some { t with watchdog := .failing expected }
    else
      match t.shared.recoverMedia expected reason env.now t.nextJob t.worker.accepts with
      | (shared, .ignored) => some { t with shared, watchdog := .idle }
      | (shared, .thrown _) => some { t with shared, watchdog := .failing expected }
      | (shared, .dispatched job _) =>
        some { t with
          shared
          worker := { t.worker with pending := some job }
          nextJob := t.nextJob + 1
          watchdog := .dispatched }
  | .failing expected =>
    let silent := !t.shared.isRequested expected &&
      decide (t.shared.recoveryState = .running) && t.shared.recoveryFailureReported
    some { t with
      shared := t.shared.failDispatch expected
      metrics := if silent then t.metrics else t.metrics.failRecovery
      watchdog := .idle }
  | .dispatched => some { t.clearLatest with watchdog := .idle }

/-- The feeder's next step. -/
def feederStep (env : FeederEnv) (t : RtspServer) : Option RtspServer :=
  match t.feeder.phase with
  | .absent | .exited => none
  | .starting => some { t with feeder := t.feeder.begin t.shared.generation }
  | .checking => some { t with feeder := t.feeder.check t.shared.running }
  | .popping =>
    match t.latest.waitPop with
    | none => none
    | some (submitted, latest) => some { t with latest, feeder := t.feeder.pop submitted }
  | .popped submitted =>
    match t.shared.appsrc with
    | none =>
      some { t with
        feeder := { t.feeder with phase := .checking }
        metrics := t.metrics.drop
        lost := t.lost ++ [(submitted.index, .unsourced)] }
    | some source =>
      let feeder := t.feeder.screen submitted source t.shared.generation t.shared.mediaGeneration
      some { t with
        feeder
        metrics := if feeder.phase = .checking then t.metrics.drop else t.metrics }
  | .offering item =>
    let feeder := t.feeder.offer t.fps env.allocated env.flow item
    some { t with
      feeder
      metrics :=
        if feeder.phase = .checking then t.metrics.fail
        else
          match env.flow with
          | .ok => { t.metrics with rtspPushed := t.metrics.rtspPushed + 1 }
          | .flushing => t.metrics
          | .error => t.metrics.fail }
  | .recording mediaGeneration flow =>
    some { t with
      shared := t.shared.recordPush mediaGeneration flow
      feeder := { t.feeder with phase := .checking } }

/-- `submit`, up to its first lock. -/
def submitStep (unit : Option EncodedAccessUnit) (t : RtspServer) : Option RtspServer :=
  match t.submitter, unit with
  | .idle, some unit =>
    let submitted : Submitted := { index := t.submissions, unit }
    if t.shared.running then
      some { t with submissions := t.submissions + 1, submitter := .locking submitted }
    else
      some { t with
        submissions := t.submissions + 1
        lost := t.lost ++ [(submitted.index, .notRunning)] }
  | .idle, none => some t
  | .locking _, _ | .pushing _, _ => none

/-- The lookup of the source in `submit`, and the `push`. -/
def submitNextStep (t : RtspServer) : Option RtspServer :=
  match t.submitter with
  | .idle => none
  | .locking submitted =>
    if t.shared.appsrc.isNone then
      some { t with
        submitter := .idle
        metrics := t.metrics.drop
        lost := t.lost ++ [(submitted.index, .unbound)] }
    else some { t with submitter := .pushing submitted }
  | .pushing submitted =>
    let (latest, replaced) := t.latest.push submitted
    some { t with
      latest
      submitter := .idle
      metrics := if replaced then t.metrics.drop else t.metrics
      lost := t.lost ++
        if t.latest.closed then [(submitted.index, .queueClosed)] else t.queued .replaced }

def step (t : RtspServer) : RtspAction → Option RtspServer
  | .call call ok => t.callStep call ok
  | .owner env => t.ownerStep env
  | .signal signal =>
    if t.callbacksOpen then some { t with callbacks := t.callbacks ++ signal.task.toList }
    else none
  | .callback index env =>
    match t.callbacks[index]? with
    | none => none
    | some task =>
      let (t', next) := t.callbackStep env task
      some { t' with callbacks := t.callbacks.eraseIdx index ++ next.toList }
  | .tick now =>
    if t.loop && t.watchdogAttached && t.callbacksOpen && decide (t.watchdog = .idle) then
      some (if t.shared.running then { t with watchdog := .finishing now }
        else { t with watchdogAttached := false })
    else none
  | .watchdog env => t.watchdogStep env
  | .worker => t.worker.step.map fun worker => { t with worker }
  | .feeder env => t.feederStep env
  | .submit unit => t.submitStep unit
  | .submitNext => t.submitNextStep

/-! ### The section that a step enters -/

/-- The section of a step of `start`. -/
def startSection (stage : StartStage) (env : OwnerEnv) : Option Section :=
  match stage with
  | .publish => some (.publishStart env.now)
  | .allocate => some (.publishServer env.ok)
  | .factory => if env.ok then some (.publishFactory env.id) else none
  | .recoveryWorker => if env.ok then some .publishRecoveryWorker else none
  | .listener => if env.ok then some (.publishListener env.id) else none
  | .publishWatchdog => some (.publishWatchdog env.id)
  | .sessionCleanup | .watchdog | .feeder | .loop => none

/-- The section of a step of `stopLocked`. -/
def stopSection (stage : StopStage) (env : OwnerEnv) (t : RtspServer) : Option Section :=
  match stage with
  | .publish => some .publishStop
  | .takeSources => some (.takeSources t.worker.isDone)
  | .waitJob waitFor =>
    if waitFor.all fun job => t.worker.isDone job.id then none else some .reportDelay
  | .stopWorker => some .takeRecoveryWorker
  | .retire => some (.retireAll env.now)
  | .release => some (.publishServer false)
  | .closeQueue | .joinFeeder | .destroySources _ | .joinWorker | .disableCallbacks
  | .waitCallbacks => none

/-- The section of a step of a callback. -/
def callbackSection (env : CallbackEnv) : CallbackTask → Option Section
  | .configure factory media => some (.configure factory media env.now)
  | .bind media _ => env.source.map fun source => .bind media source
  | .failSetup media => some (.failSetup media)
  | .prepared media => some (.markPrepared media env.now)
  | .unprepared media => some (.unprepare media env.now)
  | .targetState media toNull => some (.targetState media toNull env.now)
  | .handleMessage media isError => if isError then some (.reportError media env.now) else none
  | .configured _ | .bound _ _ | .released => none

/-- The section of a step of the watchdog. -/
def watchdogSection (env : WatchdogEnv) (t : RtspServer) : Option Section :=
  match t.watchdog with
  | .finishing _ => some (.checkRecovery env.now t.worker.isDone)
  | .resuming _ =>
    some (.resume (if t.shared.server then env.listener else none) t.worker.isDone)
  | .recovering expected reason =>
    if env.throws then none
    else some (.recoverMedia expected reason env.now t.nextJob t.worker.accepts)
  | .failing expected => some (.failDispatch expected)
  | .idle | .viewing _ | .dispatched => none

/-- The section that changes the shared fields in a step. Sections that only read them are not
named. -/
def entered (t : RtspServer) : RtspAction → Option Section
  | .owner env =>
    match t.lifecycle with
    | .starting stage => startSection stage env
    | .stopping stage => t.stopSection stage env
    | .stopped | .started => none
  | .callback index env => t.callbacks[index]?.bind (callbackSection env)
  | .watchdog env => t.watchdogSection env
  | .feeder _ =>
    match t.feeder.phase with
    | .recording mediaGeneration flow => some (.recordPush mediaGeneration flow)
    | .absent | .starting | .checking | .popping | .popped _ | .offering _ | .exited => none
  | .call _ _ | .signal _ | .tick _ | .worker | .submit _ | .submitNext => none

/-- The shared fields after a section, if there is one. -/
def enter (sec : Option Section) (s : RtspState) : RtspState :=
  match sec with
  | some sec => sec.apply s
  | none => s

variable {t t' : RtspServer}

/-! ### What each thread leaves alone -/

/-- The queue is left as it is, or its unit is dropped. -/
def Spares (t : RtspServer) (latest : LatestFrameQueue Submitted) (lost : List (ℕ × Loss)) :
    Prop :=
  (latest.value = t.latest.value ∧ lost = t.lost) ∨
    (latest.value = none ∧ lost = t.lost ++ t.queued .cleared)

theorem Spares.refl (t : RtspServer) : t.Spares t.latest t.lost := Or.inl ⟨rfl, rfl⟩

theorem Spares.clear (t : RtspServer) : t.Spares t.latest.clear (t.lost ++ t.queued .cleared) :=
  Or.inr ⟨rfl, rfl⟩

/-- A call of `start` or `stop` has nothing to do, fails, or begins. -/
theorem callStep_cases {call : OwnerCall} {ok : Bool} (h : t.callStep call ok = some t') :
    (t.lifecycle = .stopped ∨ t.lifecycle = .started) ∧
      (t' = t ∨ t' = { t with metrics := t.metrics.fail } ∨
        (t.shared.running = false ∧ t' = { t with
          latest := t.latest.reopen
          lost := t.lost ++ t.queued .cleared
          lifecycle := .starting .publish }) ∨
        (t.shared.running = true ∧ t' = { t with lifecycle := .stopping .publish })) := by
  have hphase : t.lifecycle = .stopped ∨ t.lifecycle = .started := by
    unfold callStep at h
    split at h
    · cases h
    · cases h
    next hphase => exact Or.inl hphase
    next hphase => exact Or.inr hphase
  refine ⟨hphase, ?_⟩
  cases call with
  | start =>
    have hstart : t.callStep .start ok =
        if t.shared.running then some t
        else if !ok then some { t with metrics := t.metrics.fail }
        else
          some { t with
            latest := t.latest.reopen
            lost := t.lost ++ t.queued .cleared
            lifecycle := .starting .publish } := by
      rcases hphase with hphase | hphase <;> simp only [callStep, hphase]
    rw [hstart] at h
    split at h
    · cases h
      exact Or.inl rfl
    next hrunning =>
      split at h
      · cases h
        exact Or.inr (Or.inl rfl)
      · cases h
        exact Or.inr (Or.inr (Or.inl ⟨by simpa using hrunning, rfl⟩))
  | stop =>
    have hstop : t.callStep .stop ok =
        some (if t.shared.running then { t with lifecycle := .stopping .publish } else t) := by
      rcases hphase with hphase | hphase <;> simp only [callStep, hphase]
    rw [hstop, Option.some.injEq] at h
    subst h
    split
    next hrunning => exact Or.inr (Or.inr (Or.inr ⟨hrunning, rfl⟩))
    · exact Or.inl rfl

/-- What `start` leaves alone. The feeder gets a thread, and nothing else of it changes. -/
theorem startStep_frame (stage : StartStage) (env : OwnerEnv) (t : RtspServer) :
    ∃ metrics lifecycle callbacksOpen worker watchdogAttached feeder loop,
      t.startStep stage env = { t with
        shared := enter (startSection stage env) t.shared
        metrics, lifecycle, callbacksOpen, worker, watchdogAttached, feeder, loop } ∧
      (feeder = t.feeder ∨
        stage = .feeder ∧ lifecycle = .starting .loop ∧
          feeder = { t.feeder with phase := .starting }) := by
  obtain ⟨ok, id, now, counted⟩ := env
  cases stage with
  | publish => exact ⟨_, _, _, _, _, _, _, rfl, Or.inl rfl⟩
  | allocate => cases ok <;> exact ⟨_, _, _, _, _, _, _, rfl, Or.inl rfl⟩
  | factory =>
    cases ok with
    | false => exact ⟨_, _, _, _, _, _, _, rfl, Or.inl rfl⟩
    | true =>
      have hrefused : (t.shared.publishFactory id).2 = false →
          (t.shared.publishFactory id).1 = t.shared := by
        unfold publishFactory
        split <;> simp
      cases hinstalled : (t.shared.publishFactory id).2 with
      | false =>
        refine ⟨t.metrics, .stopping .publish, t.callbacksOpen, t.worker, t.watchdogAttached,
          t.feeder, t.loop, ?_, Or.inl rfl⟩
        simp [startStep, startSection, enter, Section.apply, hinstalled, hrefused hinstalled]
      | true =>
        refine ⟨t.metrics, .starting .recoveryWorker, t.callbacksOpen, t.worker,
          t.watchdogAttached, t.feeder, t.loop, ?_, Or.inl rfl⟩
        simp [startStep, startSection, enter, Section.apply, hinstalled]
  | recoveryWorker => cases ok <;> exact ⟨_, _, _, _, _, _, _, rfl, Or.inl rfl⟩
  | listener => cases ok <;> exact ⟨_, _, _, _, _, _, _, rfl, Or.inl rfl⟩
  | sessionCleanup => cases ok <;> exact ⟨_, _, _, _, _, _, _, rfl, Or.inl rfl⟩
  | watchdog => cases ok <;> exact ⟨_, _, _, _, _, _, _, rfl, Or.inl rfl⟩
  | publishWatchdog => exact ⟨_, _, _, _, _, _, _, rfl, Or.inl rfl⟩
  | feeder =>
    cases ok with
    | false => exact ⟨_, _, _, _, _, _, _, rfl, Or.inl rfl⟩
    | true => exact ⟨_, _, _, _, _, _, _, rfl, Or.inr ⟨rfl, rfl, rfl⟩⟩
  | loop => cases ok <;> exact ⟨_, _, _, _, _, _, _, rfl, Or.inl rfl⟩

/-- What `stopLocked` leaves alone. The feeder's thread is joined, and nothing else of it
changes. -/
theorem stopStep_frame {stage : StopStage} {env : OwnerEnv} (h : t.stopStep stage env = some t') :
    ∃ latest lost metrics lifecycle callbacksOpen worker watchdogAttached feeder loop,
      t' = { t with
        shared := enter (t.stopSection stage env) t.shared
        latest, lost, metrics, lifecycle, callbacksOpen, worker, watchdogAttached, feeder, loop } ∧
      t.Spares latest lost ∧
      (feeder = t.feeder ∨
        stage = .joinFeeder ∧ (t.feeder.phase = .exited ∨ t.feeder.phase = .absent) ∧
          feeder = { t.feeder with phase := .absent }) := by
  have hsame := Spares.refl t
  cases stage with
  | joinFeeder =>
    simp only [stopStep] at h
    split at h
    next hdone =>
      cases h
      exact ⟨_, _, _, _, _, _, _, _, _, rfl, hsame, Or.inr ⟨rfl, hdone, rfl⟩⟩
    · cases h
  | closeQueue =>
    cases h
    exact ⟨_, _, _, _, _, _, _, _, _, rfl, Or.inr ⟨rfl, rfl⟩, Or.inl rfl⟩
  | waitJob waitFor =>
    simp only [stopStep] at h
    simp only [stopSection]
    split at h
    next hdone =>
      cases h
      rw [if_pos hdone]
      exact ⟨_, _, _, _, _, _, _, _, _, rfl, hsame, Or.inl rfl⟩
    next hbusy =>
      rw [if_neg hbusy]
      split at h
      · cases h
      · cases h
        exact ⟨_, _, _, _, _, _, _, _, _, rfl, hsame, Or.inl rfl⟩
  | joinWorker =>
    simp only [stopStep] at h
    split at h
    · cases h
      exact ⟨_, _, _, _, _, _, _, _, _, rfl, hsame, Or.inl rfl⟩
    · cases h
  | waitCallbacks =>
    simp only [stopStep] at h
    split at h
    · cases h
      exact ⟨_, _, _, _, _, _, _, _, _, rfl, hsame, Or.inl rfl⟩
    · cases h
  | _ =>
    cases h
    exact ⟨_, _, _, _, _, _, _, _, _, rfl, hsame, Or.inl rfl⟩

/-- What a callback leaves alone. -/
theorem callbackStep_frame (env : CallbackEnv) (t : RtspServer) (task : CallbackTask) :
    ∃ latest lost metrics,
      (t.callbackStep env task).1 = { t with
        shared := enter (callbackSection env task) t.shared
        latest, lost, metrics } ∧
      t.Spares latest lost ∧ latest.closed = t.latest.closed := by
  have hsame := Spares.refl t
  cases task with
  | bind media after =>
    obtain ⟨source, now⟩ := env
    cases source <;> exact ⟨_, _, _, rfl, hsame, rfl⟩
  | configured media => exact ⟨_, _, _, rfl, .clear t, rfl⟩
  | bound media after => exact ⟨_, _, _, rfl, .clear t, rfl⟩
  | released => exact ⟨_, _, _, rfl, .clear t, rfl⟩
  | handleMessage media isError => cases isError <;> exact ⟨_, _, _, rfl, hsame, rfl⟩
  | _ => exact ⟨_, _, _, rfl, hsame, rfl⟩

/-- What the watchdog leaves alone. -/
theorem watchdogStep_frame {env : WatchdogEnv} (h : t.watchdogStep env = some t') :
    ∃ latest lost metrics worker nextJob watchdog,
      t' = { t with
        shared := enter (t.watchdogSection env) t.shared
        latest, lost, metrics, worker, nextJob, watchdog } ∧
      t.watchdog ≠ .idle ∧ t.Spares latest lost ∧ latest.closed = t.latest.closed := by
  have hsame := Spares.refl t
  unfold watchdogStep at h
  unfold watchdogSection
  cases hphase : t.watchdog with
  | idle => simp [hphase] at h
  | dispatched =>
    simp only [hphase, Option.some.injEq] at h
    subst h
    exact ⟨_, _, _, _, _, _, rfl, by rintro ⟨⟩, .clear t, rfl⟩
  | recovering expected reason =>
    simp only [hphase] at h ⊢
    split at h
    next hthrows =>
      cases h
      rw [if_pos hthrows]
      exact ⟨_, _, _, _, _, _, rfl, by rintro ⟨⟩, hsame, rfl⟩
    next hthrows =>
      rw [if_neg hthrows]
      simp only [enter, Section.apply]
      split at h
      next hresult =>
        cases h
        rw [hresult]
        exact ⟨_, _, _, _, _, _, rfl, by rintro ⟨⟩, hsame, rfl⟩
      next hresult =>
        cases h
        rw [hresult]
        exact ⟨_, _, _, _, _, _, rfl, by rintro ⟨⟩, hsame, rfl⟩
      next hresult =>
        cases h
        rw [hresult]
        exact ⟨_, _, _, _, _, _, rfl, by rintro ⟨⟩, hsame, rfl⟩
  | _ =>
    simp only [hphase, Option.some.injEq] at h
    subst h
    exact ⟨_, _, _, _, _, _, rfl, by rintro ⟨⟩, hsame, rfl⟩

/-- What the feeder leaves alone. -/
theorem feederStep_frame {env : FeederEnv} (h : t.feederStep env = some t') :
    ∃ latest lost metrics feeder,
      t' = { t with
        shared := enter (t.entered (.feeder env)) t.shared
        latest, lost, metrics, feeder } ∧ latest.closed = t.latest.closed := by
  unfold feederStep at h
  simp only [entered]
  cases hphase : t.feeder.phase with
  | absent => simp [hphase] at h
  | exited => simp [hphase] at h
  | popping =>
    simp only [hphase, LatestFrameQueue.waitPop] at h
    split at h
    · cases h
    next hpop =>
      cases h
      refine ⟨_, _, _, _, rfl, ?_⟩
      split at hpop
      · cases hpop
        rfl
      · split at hpop
        · cases hpop
          rfl
        · cases hpop
  | popped submitted =>
    simp only [hphase] at h
    split at h <;> cases h <;> exact ⟨_, _, _, _, rfl, rfl⟩
  | _ =>
    simp only [hphase, Option.some.injEq] at h
    subst h
    exact ⟨_, _, _, _, rfl, rfl⟩

/-- What `submit` leaves alone. -/
theorem submitStep_frame {unit : Option EncodedAccessUnit} (h : t.submitStep unit = some t') :
    ∃ lost submissions submitter, t' = { t with lost, submissions, submitter } := by
  unfold submitStep at h
  split at h
  · simp only at h
    split at h <;> cases h <;> exact ⟨_, _, _, rfl⟩
  · cases h
    exact ⟨_, _, _, rfl⟩
  · cases h
  · cases h

theorem submitNextStep_frame (h : t.submitNextStep = some t') :
    ∃ latest lost metrics submitter, t' = { t with latest, lost, metrics, submitter } ∧
      latest.closed = t.latest.closed := by
  unfold submitNextStep at h
  split at h
  · cases h
  · split at h <;> cases h <;> exact ⟨_, _, _, _, rfl, rfl⟩
  · simp only [Option.some.injEq] at h
    subst h
    refine ⟨_, _, _, _, rfl, ?_⟩
    simp only [LatestFrameQueue.push]
    split <;> rfl

theorem step_owner {env : OwnerEnv} (h : t.ownerStep env = some t') :
    (∃ stage, t.lifecycle = .starting stage ∧ t' = t.startStep stage env) ∨
      ∃ stage, t.lifecycle = .stopping stage ∧ t.stopStep stage env = some t' := by
  unfold ownerStep at h
  split at h
  next stage hphase => exact Or.inl ⟨stage, hphase, (Option.some.inj h).symm⟩
  next stage hphase => exact Or.inr ⟨stage, hphase, h⟩
  · cases h
  · cases h

/-- What the owner leaves alone. -/
theorem ownerStep_frame {env : OwnerEnv} (h : t.ownerStep env = some t') :
    ∃ latest lost metrics lifecycle callbacksOpen worker watchdogAttached feeder loop,
      t' = { t with
        shared := enter (t.entered (.owner env)) t.shared
        latest, lost, metrics, lifecycle, callbacksOpen, worker, watchdogAttached, feeder, loop } ∧
      t.Spares latest lost ∧
      (feeder = t.feeder ∨
        t.lifecycle = .starting .feeder ∧ lifecycle = .starting .loop ∧
          feeder = { t.feeder with phase := .starting } ∨
        t.lifecycle = .stopping .joinFeeder ∧
          (t.feeder.phase = .exited ∨ t.feeder.phase = .absent) ∧
          feeder = { t.feeder with phase := .absent }) := by
  rcases step_owner h with ⟨stage, hphase, rfl⟩ | ⟨stage, hphase, hs⟩
  · obtain ⟨metrics, lifecycle, callbacksOpen, worker, watchdogAttached, feeder, loop, heq,
      hfeeder⟩ := startStep_frame stage env t
    refine ⟨t.latest, t.lost, metrics, lifecycle, callbacksOpen, worker, watchdogAttached, feeder,
      loop, ?_, .refl t, ?_⟩
    · simp only [heq, entered, hphase]
    · rcases hfeeder with hsame | ⟨rfl, hnext, hnew⟩
      · exact Or.inl hsame
      · exact Or.inr (Or.inl ⟨hphase, hnext, hnew⟩)
  · obtain ⟨latest, lost, metrics, lifecycle, callbacksOpen, worker, watchdogAttached, feeder, loop,
      heq, hspares, hfeeder⟩ := stopStep_frame hs
    refine ⟨latest, lost, metrics, lifecycle, callbacksOpen, worker, watchdogAttached, feeder, loop,
      ?_, hspares, ?_⟩
    · simp only [heq, entered, hphase]
    · rcases hfeeder with hsame | ⟨rfl, hdone, hgone⟩
      · exact Or.inl hsame
      · exact Or.inr (Or.inr ⟨hphase, hdone, hgone⟩)

theorem step_signal {signal : MediaSignal} (h : t.step (.signal signal) = some t') :
    t.callbacksOpen = true ∧ t' = { t with callbacks := t.callbacks ++ signal.task.toList } := by
  simp only [step] at h
  split at h
  next hopen =>
    cases h
    exact ⟨hopen, rfl⟩
  · cases h

/-- What a step of a callback leaves alone. -/
theorem step_callback {index : ℕ} {env : CallbackEnv}
    (h : t.step (.callback index env) = some t') :
    ∃ latest lost metrics callbacks,
      t' = { t with
        shared := enter (t.entered (.callback index env)) t.shared
        latest, lost, metrics, callbacks } ∧
      t.callbacks ≠ [] ∧ t.Spares latest lost ∧ latest.closed = t.latest.closed := by
  simp only [step] at h
  split at h
  · cases h
  next task htask =>
    cases h
    obtain ⟨latest, lost, metrics, heq, hspares, hclosed⟩ := callbackStep_frame env t task
    refine ⟨latest, lost, metrics,
      t.callbacks.eraseIdx index ++ (t.callbackStep env task).2.toList, ?_, ?_, hspares, hclosed⟩
    · simp only [heq, entered, htask, Option.bind_some]
    · rintro hnil
      simp [hnil] at htask

/-- The watchdog ticks only in an open epoch whose loop runs. -/
theorem step_tick {now : ℤ} (h : t.step (.tick now) = some t') :
    t.loop = true ∧ t.callbacksOpen = true ∧
      ∃ watchdog watchdogAttached, t' = { t with watchdog, watchdogAttached } := by
  simp only [step] at h
  split at h
  next hticks =>
    simp only [Bool.and_eq_true] at hticks
    obtain ⟨⟨⟨hloop, -⟩, hopen⟩, -⟩ := hticks
    refine ⟨hloop, hopen, ?_⟩
    split at h <;> cases h <;> exact ⟨_, _, rfl⟩
  · cases h

theorem step_worker (h : t.step .worker = some t') : ∃ worker, t' = { t with worker } := by
  simp only [step, Option.map_eq_some_iff] at h
  obtain ⟨worker, -, rfl⟩ := h
  exact ⟨worker, rfl⟩

/-! ### What a step does -/

/-- Every step changes the shared fields by the section it enters, and by nothing else. -/
theorem step_shared {a : RtspAction} (h : t.step a = some t') :
    t'.shared = enter (t.entered a) t.shared := by
  cases a with
  | call call ok => rcases callStep_cases h with ⟨-, rfl | rfl | ⟨-, rfl⟩ | ⟨-, rfl⟩⟩ <;> rfl
  | owner env =>
    obtain ⟨_, _, _, _, _, _, _, _, _, rfl, -⟩ := ownerStep_frame h
    rfl
  | signal signal =>
    obtain ⟨-, rfl⟩ := step_signal h
    rfl
  | callback index env =>
    obtain ⟨_, _, _, _, rfl, -⟩ := step_callback h
    rfl
  | tick now =>
    obtain ⟨-, -, _, _, rfl⟩ := step_tick h
    rfl
  | watchdog env =>
    obtain ⟨_, _, _, _, _, _, rfl, -⟩ := watchdogStep_frame h
    rfl
  | worker =>
    obtain ⟨_, rfl⟩ := step_worker h
    rfl
  | feeder env =>
    obtain ⟨_, _, _, _, rfl, -⟩ := feederStep_frame h
    rfl
  | submit unit =>
    obtain ⟨_, _, _, rfl⟩ := submitStep_frame h
    rfl
  | submitNext =>
    obtain ⟨_, _, _, _, rfl, -⟩ := submitNextStep_frame h
    rfl

/-- The feeder moves by its own steps; the owner creates its thread and joins it. -/
theorem step_feeder {a : RtspAction} (h : t.step a = some t') (hfeeder : ∀ env, a ≠ .feeder env) :
    t'.feeder = t.feeder ∨
      (t.lifecycle = .starting .feeder ∧ t'.lifecycle = .starting .loop ∧
        t'.feeder = { t.feeder with phase := .starting }) ∨
      (t.lifecycle = .stopping .joinFeeder ∧ t'.feeder = { t.feeder with phase := .absent } ∧
        (t.feeder.phase = .exited ∨ t.feeder.phase = .absent)) := by
  cases a with
  | owner env =>
    obtain ⟨_, _, _, _, _, _, _, _, _, rfl, -, hsame | ⟨hphase, hnext, hnew⟩ |
      ⟨hphase, hdone, hgone⟩⟩ := ownerStep_frame h
    · exact Or.inl hsame
    · exact Or.inr (Or.inl ⟨hphase, hnext, hnew⟩)
    · exact Or.inr (Or.inr ⟨hphase, hgone, hdone⟩)
  | feeder env => exact absurd rfl (hfeeder env)
  | call call ok =>
    rcases callStep_cases h with ⟨-, rfl | rfl | ⟨-, rfl⟩ | ⟨-, rfl⟩⟩ <;> exact Or.inl rfl
  | signal signal =>
    obtain ⟨-, rfl⟩ := step_signal h
    exact Or.inl rfl
  | callback index env =>
    obtain ⟨_, _, _, _, rfl, -⟩ := step_callback h
    exact Or.inl rfl
  | tick now =>
    obtain ⟨-, -, _, _, rfl⟩ := step_tick h
    exact Or.inl rfl
  | watchdog env =>
    obtain ⟨_, _, _, _, _, _, rfl, -⟩ := watchdogStep_frame h
    exact Or.inl rfl
  | worker =>
    obtain ⟨_, rfl⟩ := step_worker h
    exact Or.inl rfl
  | submit unit =>
    obtain ⟨_, _, _, rfl⟩ := submitStep_frame h
    exact Or.inl rfl
  | submitNext =>
    obtain ⟨_, _, _, _, rfl, -⟩ := submitNextStep_frame h
    exact Or.inl rfl

/-- What a step of the feeder is: the start of the loop, a step that only changes the place in it,
the record of a push, the decision about a unit, or its push. -/
theorem feederStep_cases {env : FeederEnv} (h : t.feederStep env = some t') :
    (t.feeder.phase = .starting ∧ t'.shared = t.shared ∧
        t'.feeder = t.feeder.begin t.shared.generation) ∨
      (∃ phase : FeederPhase, t.feeder.phase.between = true ∧ phase.between = true ∧
        t'.shared = t.shared ∧ t'.feeder = { t.feeder with phase }) ∨
      (∃ mediaGeneration flow, t.feeder.phase = .recording mediaGeneration flow ∧
        t'.shared = t.shared.recordPush mediaGeneration flow ∧
        t'.feeder = { t.feeder with phase := .checking }) ∨
      (∃ submitted source, t.feeder.phase = .popped submitted ∧ t.shared.appsrc = some source ∧
        t'.shared = t.shared ∧ t'.feeder = t.feeder.screen submitted source t.shared.generation
          t.shared.mediaGeneration) ∨
      ∃ item, t.feeder.phase = .offering item ∧ t'.shared = t.shared ∧
        t'.feeder = t.feeder.offer t.fps env.allocated env.flow item := by
  unfold feederStep at h
  cases hphase : t.feeder.phase with
  | absent => simp [hphase] at h
  | exited => simp [hphase] at h
  | starting =>
    simp only [hphase, Option.some.injEq] at h
    subst h
    exact Or.inl ⟨rfl, rfl, rfl⟩
  | checking =>
    simp only [hphase, Option.some.injEq] at h
    subst h
    refine Or.inr (Or.inl ⟨_, rfl, ?_, rfl, rfl⟩)
    cases t.shared.running <;> rfl
  | popping =>
    simp only [hphase] at h
    split at h
    · cases h
    next submitted latest _ =>
      cases h
      cases submitted <;> exact Or.inr (Or.inl ⟨_, rfl, rfl, rfl, rfl⟩)
  | popped submitted =>
    simp only [hphase] at h
    split at h
    · cases h
      exact Or.inr (Or.inl ⟨_, rfl, rfl, rfl, rfl⟩)
    next source hsource =>
      cases h
      exact Or.inr (Or.inr (Or.inr (Or.inl ⟨submitted, source, rfl, hsource, rfl, rfl⟩)))
  | offering item =>
    simp only [hphase, Option.some.injEq] at h
    subst h
    exact Or.inr (Or.inr (Or.inr (Or.inr ⟨item, rfl, rfl, rfl⟩)))
  | recording mediaGeneration flow =>
    simp only [hphase, Option.some.injEq] at h
    subst h
    exact Or.inr (Or.inr (Or.inl ⟨mediaGeneration, flow, rfl, rfl, rfl⟩))

end RtspServer

end EggVision
