import EggVision.Lib.Ownership
import EggVision.Rtsp.Jobs

/-!
# The references of the server

The server takes a reference on the source it binds, on the media it configures, and on the server,
the pool and the factory of a recovery job; a listener is a source it creates. Each of them is kept
in a variable: a field, a member of a job, or a local of the thread that is about to give it up.

The ledger numbers the references as they are taken, and holds the variables they are in. It moves
with the server, assignment by assignment: a variable that is copied and not cleared would be there
twice, and one that is overwritten would be lost.

## Main definitions

* `Ledger`, `Ledger.step` — what each step of the server does to the references
* `ledgerStep` — the server with its ledger
* `LedgerInv` — the ledger is balanced and follows the server

## Main results

* `released_exactly_once`
-/

namespace EggVision

open Transition History Ownership RtspState

/-- The members of a `RecoveryJob` that hold references. -/
structure JobRefs where
  source : Option ℕ := none
  server : Option ℕ := none
  pool : Option ℕ := none
  factory : Option ℕ := none
deriving DecidableEq, Repr

/-- The references of a job, in the order in which `recoveryWorkerLoop` releases them. -/
def JobRefs.refs (job : JobRefs) : List ℕ :=
  job.source.toList ++ job.pool.toList ++ job.server.toList ++ job.factory.toList

/-- The references taken so far, those released, and the variables that hold the others. -/
structure Ledger where
  taken : ℕ := 0
  released : List ℕ := []
  appsrc : Option ℕ := none
  currentMedia : Option ℕ := none
  listenerSource : Option ℕ := none
  jobs : List JobRefs := []
  callbacks : List (List ℕ) := []
  watchdog : List ℕ := []
  owner : List ℕ := []
deriving DecidableEq, Repr

namespace Ledger

/-- All references that some variable holds. -/
def held (l : Ledger) : List ℕ :=
  l.appsrc.toList ++ l.currentMedia.toList ++ l.listenerSource.toList ++
    l.jobs.flatMap JobRefs.refs ++ l.callbacks.flatten ++ l.watchdog ++ l.owner

def release (refs : List ℕ) (l : Ledger) : Ledger := { l with released := l.released ++ refs }

/-- A reference on an object, if there is one, with the number of references taken then. -/
def acquire (object : Bool) (taken : ℕ) : ℕ × Option ℕ :=
  if object then (taken + 1, some taken) else (taken, none)

/-- `start` begins an epoch. -/
def publishStart (l : Ledger) : Ledger :=
  { l with appsrc := none, currentMedia := none, listenerSource := none }

/-- `start` creates the listener. -/
def publishListener (l : Ledger) : Ledger :=
  { l with taken := l.taken + 1, listenerSource := some l.taken }

/-- `stopLocked` takes the listener. -/
def takeSources (l : Ledger) : Ledger :=
  { l with listenerSource := none, owner := l.listenerSource.toList }

/-- `stopLocked` takes the source and the media. -/
def retireAll (l : Ledger) : Ledger :=
  { l with
    appsrc := none
    currentMedia := none
    owner := l.appsrc.toList ++ l.currentMedia.toList }

/-- `stopLocked` gives up what it has taken. -/
def releaseOwner (l : Ledger) : Ledger := { l.release l.owner with owner := [] }

/-- `onMediaConfigure` takes a reference on the media, and has those of the one before. -/
def configure (l : Ledger) : Ledger × List ℕ :=
  ({ l with taken := l.taken + 1, appsrc := none, currentMedia := some l.taken },
    l.appsrc.toList ++ l.currentMedia.toList)

/-- `bindMediaSource` keeps the reference it got with the source, and has the one before. -/
def bind (l : Ledger) : Ledger × List ℕ :=
  ({ l with taken := l.taken + 1, appsrc := some l.taken }, l.appsrc.toList)

/-- A reference that is not kept. -/
def passing (l : Ledger) : Ledger :=
  { l with taken := l.taken + 1, released := l.released ++ [l.taken] }

/-- `onMediaUnprepared` takes the source and the media. -/
def unprepare (l : Ledger) : Ledger × List ℕ :=
  ({ l with appsrc := none, currentMedia := none }, l.appsrc.toList ++ l.currentMedia.toList)

/-- `recoverMedia` hands the source to the job, takes references for it, and has the listener. -/
def publishRunning (job : RecoveryJob) (l : Ledger) : Ledger :=
  let server := acquire job.server l.taken
  let pool := acquire job.pool server.1
  let factory := acquire job.factory.isSome pool.1
  { l with
    taken := factory.1
    appsrc := none
    listenerSource := none
    jobs := l.jobs ++
      [{ source := l.appsrc, server := server.2, pool := pool.2, factory := factory.2 }]
    watchdog := l.listenerSource.toList }

/-- `recoverMedia` destroys the listener it has. -/
def releaseWatchdog (l : Ledger) : Ledger := { l.release l.watchdog with watchdog := [] }

/-- `finishRecoveryIfReady` keeps the listener it has created. -/
def resume (l : Ledger) : Ledger :=
  { l with taken := l.taken + 1, listenerSource := some l.taken }

/-- `recoveryWorkerLoop` releases what the job holds, and clears its members. -/
def finishJob (id : ℕ) (l : Ledger) : Ledger :=
  { l.release ((l.jobs[id]?.map JobRefs.refs).getD []) with jobs := l.jobs.set id {} }

/-- A callback releases what its last step has left. -/
def releaseCallback (index : ℕ) (l : Ledger) : Ledger :=
  { l.release ((l.callbacks[index]?).getD []) with callbacks := l.callbacks.eraseIdx index }

/-! ### With the server -/

/-- The step of the owner. -/
def ownerStep (env : OwnerEnv) (t : RtspServer) (l : Ledger) : Ledger :=
  match t.lifecycle with
  | .starting .publish => l.publishStart
  | .starting .listener => if env.ok then l.publishListener else l
  | .stopping .takeSources => l.takeSources
  | .stopping (.destroySources _) => l.releaseOwner
  | .stopping .retire => l.retireAll
  | .stopping .release => l.releaseOwner
  | .stopped | .starting _ | .started | .stopping _ => l

/-- A step of a callback, and what it has left to release. -/
def callbackStep (env : CallbackEnv) (s : RtspState) (l : Ledger) :
    CallbackTask → Ledger × List ℕ
  | .configure factory _ => if s.acceptsMedia factory then l.configure else (l, [])
  | .bind media _ =>
    match env.source with
    | none => (l, [])
    | some source => if (s.bind media source).2.changed then l.bind else (l.passing, [])
  | .unprepared media => if s.currentMedia = some media then l.unprepare else (l, [])
  | .configured _ | .bound _ _ | .failSetup _ | .prepared _ | .released | .targetState _ _
  | .handleMessage _ _ => (l, [])

/-- A step of the watchdog. -/
def watchdogStep (env : WatchdogEnv) (t : RtspServer) (l : Ledger) : Ledger :=
  match t.watchdog with
  | .resuming _ =>
    match (if t.shared.server then env.listener else none) with
    | some listener =>
      if (t.shared.resume (some listener) t.worker.isDone).2 then l.resume else l.passing
    | none => l
  | .recovering _ _ =>
    match t.publishes (.watchdog env) with
    | some job => l.publishRunning job
    | none => l
  | .dispatched => l.releaseWatchdog
  | .idle | .finishing _ | .viewing _ | .failing _ => l

/-- What a step of the server does to the references. A callback releases what its last step has
left before it goes on. -/
def step (t : RtspServer) (l : Ledger) : RtspAction → Ledger
  | .owner env => l.ownerStep env t
  | .signal signal =>
    { l with callbacks := l.callbacks ++ signal.task.toList.map fun _ => [] }
  | .callback index env =>
    match t.callbacks[index]? with
    | none => l
    | some task =>
      let (l', left) := (l.releaseCallback index).callbackStep env t.shared task
      { l' with
        callbacks := l'.callbacks ++ (t.callbackStep env task).2.toList.map fun _ => left }
  | .watchdog env => l.watchdogStep env t
  | .worker =>
    match t.worker.thread with
    | .processing job => l.finishJob job.id
    | .absent | .waiting | .exited => l
  | .call _ _ | .tick _ | .feeder _ | .submit _ | .submitNext => l

end Ledger

/-- A step of the server and of its ledger. -/
def ledgerStep (x : RtspServer × Ledger) (a : RtspAction) : Option (RtspServer × Ledger) :=
  (x.1.step a).map fun t => (t, x.2.step x.1 a)

/-- A constructed server, with nothing taken. -/
def ledgerInitial (fps : ℕ) : RtspServer × Ledger := (RtspServer.initial fps, {})

/-! ### What is not there between epochs -/

/-- `start` has not created the listener yet, or `stopLocked` has taken it. -/
def Lifecycle.listenerless : Lifecycle → Bool
  | .stopped | .starting .publish | .starting .allocate | .starting .factory
  | .starting .recoveryWorker | .starting .listener | .stopping (.destroySources _)
  | .stopping (.waitJob _) | .stopping .stopWorker | .stopping .joinWorker
  | .stopping .disableCallbacks | .stopping .waitCallbacks | .stopping .retire
  | .stopping .release => true
  | .starting _ | .started | .stopping _ => false

/-- Either the server does not run, or no recovery does. -/
theorem Lifecycle.listenerless_cases {phase : Lifecycle} (h : phase.listenerless = true) :
    phase.runs = false ∨ phase.quiet = true := by
  unfold listenerless at h
  split at h <;> first | exact Or.inl rfl | exact Or.inr rfl | cases h

namespace RtspServer

variable {t t' : RtspServer} {a : RtspAction} {fps : ℕ}

/-- Between epochs there is no media, and before the listener is created and after it is taken there
is none. -/
structure VacantInv (t : RtspServer) : Prop where
  media : t.lifecycle.retired = true → t.shared.currentMedia = none
  listener : t.lifecycle.listenerless = true → t.shared.listenerSource = none

theorem VacantInv.callStep (h : VacantInv t) (hepoch : EpochInv t) {call : OwnerCall} {ok : Bool}
    (hs : t.callStep call ok = some t') : VacantInv t' := by
  obtain ⟨hphase, rfl | rfl | ⟨hrunning, rfl⟩ | ⟨hrunning, rfl⟩⟩ := callStep_cases hs
  · exact h
  · exact { h with }
  · have hstopped : t.lifecycle = .stopped := hphase.resolve_right fun hstarted => by
      rw [hepoch.running, hstarted] at hrunning
      cases hrunning
    exact ⟨fun _ => h.media (by rw [hstopped]; rfl), fun _ => h.listener (by rw [hstopped]; rfl)⟩
  · exact ⟨by rintro ⟨⟩, by rintro ⟨⟩⟩

theorem VacantInv.startStep (h : VacantInv t) {stage : StartStage}
    (hphase : t.lifecycle = .starting stage) (env : OwnerEnv) :
    VacantInv (t.startStep stage env) := by
  obtain ⟨ok, id, now, counted⟩ := env
  cases stage with
  | publish => exact ⟨by rintro ⟨⟩, fun _ => rfl⟩
  | allocate =>
    have hnone := h.listener (by rw [hphase]; rfl)
    cases ok <;> exact ⟨by rintro ⟨⟩, fun _ => hnone⟩
  | factory =>
    have hnone := h.listener (by rw [hphase]; rfl)
    have hsame := Section.sameListener (.publishFactory id) rfl t.shared
    cases ok with
    | false => exact ⟨by rintro ⟨⟩, by rintro ⟨⟩⟩
    | true =>
      simp only [RtspServer.startStep, Bool.not_true, Bool.false_eq_true, if_false]
      split
      · exact ⟨by rintro ⟨⟩, fun _ => hsame.trans hnone⟩
      · exact ⟨by rintro ⟨⟩, by rintro ⟨⟩⟩
  | recoveryWorker =>
    have hnone := h.listener (by rw [hphase]; rfl)
    cases ok <;> exact ⟨by rintro ⟨⟩, fun _ => hnone⟩
  | publishWatchdog => exact ⟨by rintro ⟨⟩, by rintro ⟨⟩⟩
  | _ => cases ok <;> exact ⟨by rintro ⟨⟩, by rintro ⟨⟩⟩

theorem VacantInv.stopStep (h : VacantInv t) (hepoch : EpochInv t) {stage : StopStage}
    (hphase : t.lifecycle = .stopping stage) {env : OwnerEnv}
    (hs : t.stopStep stage env = some t') : VacantInv t' := by
  cases stage with
  | publish =>
    have hrunning : t.shared.running = true := by rw [hepoch.running, hphase]; rfl
    simp only [RtspServer.stopStep, publishStop, hrunning] at hs
    cases hs
    exact ⟨by rintro ⟨⟩, by rintro ⟨⟩⟩
  | closeQueue =>
    cases hs
    exact ⟨by rintro ⟨⟩, by rintro ⟨⟩⟩
  | joinFeeder =>
    simp only [RtspServer.stopStep] at hs
    split at hs <;> cases hs
    exact ⟨by rintro ⟨⟩, by rintro ⟨⟩⟩
  | takeSources =>
    cases hs
    exact ⟨by rintro ⟨⟩, fun _ => rfl⟩
  | waitJob waitFor =>
    have hnone := h.listener (by rw [hphase]; rfl)
    simp only [RtspServer.stopStep] at hs
    split at hs
    · cases hs
      exact ⟨by rintro ⟨⟩, fun _ => hnone⟩
    · split at hs <;> cases hs
      exact { h with }
  | joinWorker =>
    have hnone := h.listener (by rw [hphase]; rfl)
    simp only [RtspServer.stopStep] at hs
    split at hs <;> cases hs
    exact ⟨by rintro ⟨⟩, fun _ => hnone⟩
  | waitCallbacks =>
    have hnone := h.listener (by rw [hphase]; rfl)
    simp only [RtspServer.stopStep] at hs
    split at hs <;> cases hs
    exact ⟨by rintro ⟨⟩, fun _ => hnone⟩
  | retire =>
    have hnone := h.listener (by rw [hphase]; rfl)
    cases hs
    exact ⟨fun _ => rfl, fun _ => hnone⟩
  | release =>
    have hnone := h.listener (by rw [hphase]; rfl)
    have hgone := h.media (by rw [hphase]; rfl)
    cases hs
    exact ⟨fun _ => hgone, fun _ => hnone⟩
  | _ =>
    have hnone := h.listener (by rw [hphase]; rfl)
    cases hs
    exact ⟨by rintro ⟨⟩, fun _ => hnone⟩

/-- A listener is published only by `start`, and at the end of a recovery. -/
theorem listener_of_section {s : RtspState} {sec : Section} (hown : sec.byOwner = false)
    (hnone : s.listenerSource = none)
    (hcalm : ¬ (s.running = true ∧ s.recoveryState = .completed)) :
    (sec.apply s).listenerSource = none := by
  cases hmoves : sec.movesListener with
  | false => exact (sec.sameListener hmoves s).trans hnone
  | true =>
    cases sec with
    | resume listener done =>
      simp only [Section.apply, RtspState.resume]
      split
      · split
        next hresume =>
          simp only [mayResume, Bool.and_eq_true, decide_eq_true_eq] at hresume
          exact absurd ⟨hresume.1.1.1.1.1, hresume.1.1.1.1.2⟩ hcalm
        · exact hnone
      · split <;> exact hnone
    | recoverMedia expected reason now id accepts =>
      simp only [Section.apply]
      rcases recoverMedia_cases expected reason now id accepts s with
        ⟨heq, -⟩ | ⟨-, -, heq⟩ | ⟨-, -, -, -, -, -, heq⟩ <;> rw [heq]
      · exact hnone
      · exact hnone
      · rfl
    | publishStart now => cases hown
    | publishListener listener => cases hown
    | takeSources done => cases hown
    | _ => cases hmoves

theorem VacantInv.step (h : VacantInv t) (hepoch : EpochInv t) (hs : t.step a = some t') :
    VacantInv t' := by
  by_cases hcall : ∃ call ok, a = .call call ok
  · obtain ⟨call, ok, rfl⟩ := hcall
    exact h.callStep hepoch hs
  by_cases howner : ∃ env, a = .owner env
  · obtain ⟨env, rfl⟩ := howner
    rcases step_owner hs with ⟨stage, hphase, rfl⟩ | ⟨stage, hphase, hs⟩
    · exact h.startStep hphase env
    · exact h.stopStep hepoch hphase hs
  have hlifecycle := (step_epoch hs (by simpa using hcall) (by simpa using howner)).1
  have hsection : ∀ sec, t.entered a = some sec → sec.byOwner = false := fun sec hsec =>
    Bool.eq_false_iff.mpr fun hown => howner (entered_byOwner hsec hown)
  constructor
  · rw [hlifecycle, step_shared hs]
    intro hretired
    obtain ⟨hcallbacks, hwatchdog⟩ := hepoch.sealed (Lifecycle.sealed_of_retired hretired)
    cases hsec : t.entered a with
    | none => exact h.media hretired
    | some sec =>
      rcases entered_sealed hcallbacks hwatchdog hsec with hown | ⟨mediaGeneration, flow, rfl⟩
      · exact absurd hown (by simp [hsection sec hsec])
      · exact (SameSource.recordPush mediaGeneration flow t.shared).media.trans (h.media hretired)
  · rw [hlifecycle, step_shared hs]
    intro hphase
    cases hsec : t.entered a with
    | none => exact h.listener hphase
    | some sec =>
      refine listener_of_section (hsection sec hsec) (h.listener hphase) ?_
      rintro ⟨hrunning, hcompleted⟩
      rcases Lifecycle.listenerless_cases hphase with hstopped | hquiet
      · rw [hepoch.running, hstopped] at hrunning
        cases hrunning
      · exact (hepoch.quiet hquiet).2 (Or.inr hcompleted)

theorem vacantInv_of_reachable (h : Reachable RtspServer.step (RtspServer.initial fps) t) :
    VacantInv t := by
  suffices h' : EpochInv t ∧ VacantInv t from h'.2
  refine h.invariant (fun t => EpochInv t ∧ VacantInv t)
    ⟨EpochInv.initial fps, ⟨fun _ => rfl, fun _ => rfl⟩⟩ ?_
  rintro t a t' ⟨hepoch, hvacant⟩ hs
  exact ⟨hepoch.step hs, hvacant.step hepoch hs⟩

end RtspServer

/-! ### Balanced steps -/

namespace Ledger

variable {l : Ledger}

/-- Every reference taken was released once, or is in one variable. -/
def Balanced (l : Ledger) : Prop := Ownership.Balanced l.taken l.released l.held

theorem acquire_balanced {taken : ℕ} {released held : List ℕ}
    (h : Ownership.Balanced taken released held) (object : Bool) :
    Ownership.Balanced (acquire object taken).1 released
      (held ++ (acquire object taken).2.toList) := by
  cases object with
  | true => exact h.take
  | false => simpa [acquire] using h

theorem Balanced.publishStart (h : l.Balanced) (hsource : l.appsrc = none)
    (hmedia : l.currentMedia = none) (hlistener : l.listenerSource = none) :
    l.publishStart.Balanced :=
  h.move fun ref => by simp [held, Ledger.publishStart, hsource, hmedia, hlistener]

theorem Balanced.publishListener (h : l.Balanced) (hnone : l.listenerSource = none) :
    l.publishListener.Balanced :=
  h.take.move fun ref => by
    simp only [held, Ledger.publishListener, hnone, List.count_append, Option.toList_some,
      Option.toList_none, List.count_nil]
    omega

theorem Balanced.takeSources (h : l.Balanced) (howner : l.owner = []) :
    l.takeSources.Balanced :=
  h.move fun ref => by
    simp only [held, Ledger.takeSources, howner, List.count_append, Option.toList_none,
      List.count_nil]
    omega

theorem Balanced.retireAll (h : l.Balanced) (howner : l.owner = []) : l.retireAll.Balanced :=
  h.move fun ref => by
    simp only [held, Ledger.retireAll, howner, List.count_append, Option.toList_none,
      List.count_nil]
    omega

theorem Balanced.releaseOwner (h : l.Balanced) : l.releaseOwner.Balanced := by
  refine Ownership.Balanced.release (Ownership.Balanced.move h fun ref => ?_)
  simp only [held, Ledger.releaseOwner, release, List.count_append, List.count_nil]
  omega

theorem Balanced.releaseWatchdog (h : l.Balanced) : l.releaseWatchdog.Balanced := by
  refine Ownership.Balanced.release (Ownership.Balanced.move h fun ref => ?_)
  simp only [held, Ledger.releaseWatchdog, release, List.count_append, List.count_nil]
  omega

theorem Balanced.releaseCallback (h : l.Balanced) (index : ℕ) :
    (l.releaseCallback index).Balanced := by
  refine Ownership.Balanced.release (Ownership.Balanced.move h fun ref => ?_)
  have := count_flatten_eraseIdx ref l.callbacks index
  simp only [held, Ledger.releaseCallback, release, List.count_append]
  omega

theorem Balanced.finishJob (h : l.Balanced) (id : ℕ) : (l.finishJob id).Balanced := by
  refine Ownership.Balanced.release (Ownership.Balanced.move h fun ref => ?_)
  have := count_flatMap_set JobRefs.refs (rfl : JobRefs.refs {} = []) ref l.jobs id
  simp only [held, Ledger.finishJob, release, List.count_append]
  omega

theorem Balanced.passing (h : l.Balanced) : l.passing.Balanced := by
  refine Ownership.Balanced.release (h.take.move fun ref => ?_)
  simp only [held, Ledger.passing, List.count_append]
  omega

theorem Balanced.resume (h : l.Balanced) (hnone : l.listenerSource = none) : l.resume.Balanced :=
  h.publishListener hnone

/-- The job has what was in the variables it was filled from. -/
theorem Balanced.publishRunning (h : l.Balanced) (hwatchdog : l.watchdog = [])
    (job : RecoveryJob) : (l.publishRunning job).Balanced := by
  have htaken := acquire_balanced (acquire_balanced (acquire_balanced h job.server) job.pool)
    job.factory.isSome
  refine Ownership.Balanced.move htaken fun ref => ?_
  simp only [held, Ledger.publishRunning, hwatchdog, JobRefs.refs, List.count_append,
    List.flatMap_append, List.flatMap_cons, List.flatMap_nil, Option.toList_none, List.count_nil,
    List.append_nil]
  omega

/-- A callback holds what it has left to release. -/
theorem Balanced.callbackStep (h : l.Balanced) (env : CallbackEnv) (s : RtspState)
    (task : CallbackTask) :
    Ownership.Balanced (l.callbackStep env s task).1.taken (l.callbackStep env s task).1.released
      ((l.callbackStep env s task).1.held ++ (l.callbackStep env s task).2) := by
  have hsame : Ownership.Balanced l.taken l.released (l.held ++ []) := by
    rw [List.append_nil]
    exact h
  cases task with
  | configure factory media =>
    simp only [Ledger.callbackStep]
    split
    · refine Ownership.Balanced.move h.take fun ref => ?_
      simp only [held, Ledger.configure, List.count_append, Option.toList_none, List.count_nil,
        Option.toList_some]
      omega
    · exact hsame
  | bind media after =>
    simp only [Ledger.callbackStep]
    split
    · exact hsame
    · split
      · refine Ownership.Balanced.move h.take fun ref => ?_
        simp only [held, Ledger.bind, List.count_append, Option.toList_some]
        omega
      · rw [List.append_nil]
        exact h.passing
  | unprepared media =>
    simp only [Ledger.callbackStep]
    split
    · refine Ownership.Balanced.move h fun ref => ?_
      simp only [held, Ledger.unprepare, List.count_append, Option.toList_none, List.count_nil]
      omega
    · exact hsame
  | _ => exact hsame

end Ledger

/-! ### The ledger of a run -/

/-- `stopLocked` has taken a listener, or a source and a media, and not given them up yet. -/
def Lifecycle.holding : Lifecycle → Bool
  | .stopping (.destroySources _) | .stopping .release => true
  | .stopped | .starting _ | .started | .stopping _ => false

/-- The fields of the server and of the ledger are empty together. -/
structure Mirrors (s : RtspState) (l : Ledger) : Prop where
  appsrc : s.appsrc = none ↔ l.appsrc = none
  media : s.currentMedia = none ↔ l.currentMedia = none
  listener : s.listenerSource = none ↔ l.listenerSource = none

theorem Mirrors.keep {s : RtspState} {l : Ledger} (h : Mirrors s l) (sec : Section)
    (hsource : sec.movesSource = false) (hlistener : sec.movesListener = false) :
    Mirrors (sec.apply s) l := by
  have hsame := sec.sameSource hsource s
  constructor
  · rw [hsame.source]
    exact h.appsrc
  · rw [hsame.media]
    exact h.media
  · rw [sec.sameListener hlistener s]
    exact h.listener

/-- The ledger is balanced, and follows the server. -/
structure LedgerInv (t : RtspServer) (l : Ledger) : Prop where
  balanced : l.Balanced
  mirrors : Mirrors t.shared l
  jobs : l.jobs.length = t.nextJob
  done : ∀ id ∈ t.worker.done, l.jobs[id]? = some {}
  callbacks : l.callbacks.length = t.callbacks.length
  watchdog : t.watchdog ≠ .dispatched → l.watchdog = []
  owner : t.lifecycle.holding = false → l.owner = []

namespace LedgerInv

open RtspServer

variable {t t' : RtspServer} {l : Ledger} {a : RtspAction} {fps : ℕ}

theorem initial (fps : ℕ) : LedgerInv (RtspServer.initial fps) {} :=
  ⟨.empty, ⟨iff_of_true rfl rfl, iff_of_true rfl rfl, iff_of_true rfl rfl⟩, rfl, by rintro _ ⟨⟩,
    rfl, fun _ => rfl, fun _ => rfl⟩

theorem callStep (h : LedgerInv t l) {call : OwnerCall} {ok : Bool}
    (hs : t.callStep call ok = some t') : LedgerInv t' l := by
  obtain ⟨hphase, heq⟩ := callStep_cases hs
  have howner : l.owner = [] :=
    h.owner (by rcases hphase with hphase | hphase <;> rw [hphase] <;> rfl)
  rcases heq with rfl | rfl | ⟨-, rfl⟩ | ⟨-, rfl⟩
  · exact h
  · exact { h with }
  · exact { h with owner := fun _ => howner }
  · exact { h with owner := fun _ => howner }

theorem startStep (h : LedgerInv t l) (hepoch : EpochInv t) (hvacant : VacantInv t)
    {stage : StartStage} (hphase : t.lifecycle = .starting stage) (env : OwnerEnv) :
    LedgerInv (t.startStep stage env) (l.ownerStep env t) := by
  obtain ⟨ok, id, now, counted⟩ := env
  have howner : l.owner = [] := h.owner (by rw [hphase]; rfl)
  cases stage with
  | publish =>
    simp only [Ledger.ownerStep, hphase]
    have hsource := h.mirrors.appsrc.mp (hepoch.retired (by rw [hphase]; rfl))
    have hmedia := h.mirrors.media.mp (hvacant.media (by rw [hphase]; rfl))
    have hlistener := h.mirrors.listener.mp (hvacant.listener (by rw [hphase]; rfl))
    exact { h with
      balanced := h.balanced.publishStart hsource hmedia hlistener
      mirrors := ⟨iff_of_true rfl rfl, iff_of_true rfl rfl, iff_of_true rfl rfl⟩
      owner := fun _ => howner }
  | listener =>
    have hlistener := h.mirrors.listener.mp (hvacant.listener (by rw [hphase]; rfl))
    cases ok with
    | false =>
      simp only [Ledger.ownerStep, hphase, Bool.false_eq_true, if_false]
      exact { h with owner := fun _ => howner }
    | true =>
      simp only [Ledger.ownerStep, hphase, if_true]
      exact { h with
        balanced := h.balanced.publishListener hlistener
        mirrors := { h.mirrors with listener := iff_of_false (by rintro ⟨⟩) (by rintro ⟨⟩) }
        owner := fun _ => howner }
  | factory =>
    simp only [Ledger.ownerStep, hphase]
    have hmirrors := h.mirrors.keep (.publishFactory id) rfl rfl
    cases ok with
    | false => exact { h with owner := fun _ => howner }
    | true =>
      simp only [RtspServer.startStep, Bool.not_true, Bool.false_eq_true, if_false]
      split
      · exact { h with mirrors := hmirrors, owner := fun _ => howner }
      · exact { h with owner := fun _ => howner }
  | allocate =>
    have hmirrors := h.mirrors.keep (.publishServer ok) rfl rfl
    simp only [Ledger.ownerStep, hphase]
    cases ok <;> exact { h with mirrors := hmirrors, owner := fun _ => howner }
  | recoveryWorker =>
    have hmirrors := h.mirrors.keep .publishRecoveryWorker rfl rfl
    simp only [Ledger.ownerStep, hphase]
    cases ok with
    | false => exact { h with owner := fun _ => howner }
    | true => exact { h with mirrors := hmirrors, owner := fun _ => howner }
  | publishWatchdog =>
    have hmirrors := h.mirrors.keep (.publishWatchdog id) rfl rfl
    simp only [Ledger.ownerStep, hphase]
    exact { h with mirrors := hmirrors, owner := fun _ => howner }
  | _ =>
    simp only [Ledger.ownerStep, hphase]
    cases ok <;> exact { h with owner := fun _ => howner }

theorem stopStep (h : LedgerInv t l) {stage : StopStage} (hphase : t.lifecycle = .stopping stage)
    {env : OwnerEnv} (hs : t.stopStep stage env = some t') : LedgerInv t' (l.ownerStep env t) := by
  have howner : t.lifecycle.holding = false → l.owner = [] := h.owner
  rw [hphase] at howner
  simp only [Ledger.ownerStep, hphase]
  cases stage with
  | publish =>
    have hmirrors := h.mirrors.keep .publishStop rfl rfl
    cases hs
    refine { h with mirrors := hmirrors, owner := fun _ => howner rfl }
  | takeSources =>
    cases hs
    exact { h with
      balanced := h.balanced.takeSources (howner rfl)
      mirrors := { h.mirrors with listener := iff_of_true rfl rfl }
      owner := by rintro ⟨⟩ }
  | destroySources waitFor =>
    cases hs
    exact { h with
      balanced := h.balanced.releaseOwner
      mirrors := { h.mirrors with }
      owner := fun _ => rfl }
  | retire =>
    cases hs
    exact { h with
      balanced := h.balanced.retireAll (howner rfl)
      mirrors := { h.mirrors with
        appsrc := iff_of_true rfl rfl
        media := iff_of_true rfl rfl }
      owner := by rintro ⟨⟩ }
  | release =>
    cases hs
    exact { h with
      balanced := h.balanced.releaseOwner
      mirrors := { h.mirrors with }
      owner := fun _ => rfl }
  | joinFeeder =>
    simp only [RtspServer.stopStep] at hs
    split at hs <;> cases hs
    exact { h with owner := fun _ => howner rfl }
  | waitJob waitFor =>
    simp only [RtspServer.stopStep] at hs
    split at hs
    · cases hs
      exact { h with owner := fun _ => howner rfl }
    · split at hs <;> cases hs
      exact { h with mirrors := { h.mirrors with } }
  | joinWorker =>
    simp only [RtspServer.stopStep] at hs
    split at hs <;> cases hs
    exact { h with owner := fun _ => howner rfl }
  | waitCallbacks =>
    simp only [RtspServer.stopStep] at hs
    split at hs <;> cases hs
    exact { h with owner := fun _ => howner rfl }
  | stopWorker =>
    cases hs
    refine { h with mirrors := { h.mirrors with }, done := ?_, owner := fun _ => howner rfl }
    simp only
    split <;> exact h.done
  | _ =>
    cases hs
    exact { h with owner := fun _ => howner rfl }

end LedgerInv

/-- A callback's section and its ledger empty and fill the same fields. -/
theorem Mirrors.callbackStep {t : RtspServer} {l : Ledger} (h : Mirrors t.shared l)
    (env : CallbackEnv) (task : CallbackTask) :
    Mirrors (t.callbackStep env task).1.shared (l.callbackStep env t.shared task).1 := by
  cases task with
  | configure factory media =>
    simp only [RtspServer.callbackStep, Ledger.callbackStep, RtspState.configure]
    split
    · exact { h with
        appsrc := iff_of_true rfl rfl
        media := iff_of_false (by rintro ⟨⟩) (by rintro ⟨⟩) }
    · exact h
  | bind media after =>
    simp only [RtspServer.callbackStep, Ledger.callbackStep]
    cases env.source with
    | none => exact h
    | some source =>
      simp only [RtspState.bind]
      split
      · exact { h with }
      · split
        · exact { h with }
        · exact { h with appsrc := iff_of_false (by rintro ⟨⟩) (by rintro ⟨⟩) }
  | unprepared media =>
    simp only [RtspServer.callbackStep, Ledger.callbackStep, RtspState.unprepare]
    split
    · simp only
      split <;> exact { h with
        appsrc := iff_of_true rfl rfl
        media := iff_of_true rfl rfl }
    · exact h
  | failSetup media => exact h.keep (.failSetup media) rfl rfl
  | prepared media => exact h.keep (.markPrepared media env.now) rfl rfl
  | targetState media toNull => exact h.keep (.targetState media toNull env.now) rfl rfl
  | handleMessage media isError =>
    cases isError with
    | false => exact h
    | true => exact h.keep (.reportError media env.now) rfl rfl
  | _ => exact h

/-- What a callback has left to release, it has a next step for. -/
theorem Ledger.callbackStep_left {t : RtspServer} {env : CallbackEnv} {task : CallbackTask}
    (h : (t.callbackStep env task).2 = none) (l : Ledger) :
    (l.callbackStep env t.shared task).2 = [] := by
  cases task with
  | configure factory media =>
    simp only [RtspServer.callbackStep, RtspState.configure] at h
    simp only [Ledger.callbackStep]
    split
    next haccepts => simp [haccepts] at h
    · rfl
  | bind media after =>
    simp only [RtspServer.callbackStep] at h
    simp only [Ledger.callbackStep]
    cases hsource : env.source with
    | none => rfl
    | some source =>
      simp only [hsource] at h ⊢
      split
      next hchanged => simp [hchanged] at h
      · rfl
  | unprepared media =>
    simp only [RtspServer.callbackStep, RtspState.unprepare] at h
    simp only [Ledger.callbackStep]
    split
    next hmedia => simp [hmedia] at h
    · rfl
  | _ => rfl

theorem Ledger.callbackStep_frame (env : CallbackEnv) (s : RtspState) (l : Ledger)
    (task : CallbackTask) :
    ∃ taken released appsrc currentMedia, (l.callbackStep env s task).1 =
      { l with taken, released, appsrc, currentMedia } := by
  cases task with
  | configure factory media =>
    simp only [Ledger.callbackStep]
    split <;> exact ⟨_, _, _, _, rfl⟩
  | bind media after =>
    simp only [Ledger.callbackStep]
    split
    · exact ⟨_, _, _, _, rfl⟩
    · split <;> exact ⟨_, _, _, _, rfl⟩
  | unprepared media =>
    simp only [Ledger.callbackStep]
    split <;> exact ⟨_, _, _, _, rfl⟩
  | _ => exact ⟨_, _, _, _, rfl⟩

namespace LedgerInv

open RtspServer

variable {t t' : RtspServer} {l : Ledger} {a : RtspAction} {fps : ℕ}

theorem signal (h : LedgerInv t l) {signal : MediaSignal} (hs : t.step (.signal signal) = some t') :
    LedgerInv t' (l.step t (.signal signal)) := by
  obtain ⟨-, rfl⟩ := step_signal hs
  refine { h with
    balanced := h.balanced.move fun ref => ?_
    mirrors := { h.mirrors with }
    callbacks := by simp [Ledger.step, h.callbacks] }
  simp [Ledger.step, Ledger.held]

theorem callback (h : LedgerInv t l) {index : ℕ} {env : CallbackEnv}
    (hs : t.step (.callback index env) = some t') :
    LedgerInv t' (l.step t (.callback index env)) := by
  cases htask : t.callbacks[index]? with
  | none =>
    simp only [RtspServer.step, htask] at hs
    cases hs
  | some task =>
    simp only [RtspServer.step, htask, Option.some.injEq] at hs
    subst hs
    simp only [Ledger.step, htask]
    obtain ⟨latest, lost, metrics, hserver, -⟩ := callbackStep_frame env t task
    have hmirrors := Mirrors.callbackStep (l := l.releaseCallback index) { h.mirrors with } env task
    have hbalanced := (h.balanced.releaseCallback index).callbackStep env t.shared task
    have hleft (h : (t.callbackStep env task).2 = none) := Ledger.callbackStep_left h
    obtain ⟨taken, released, appsrc, currentMedia, hledger⟩ :=
      Ledger.callbackStep_frame env t.shared (l.releaseCallback index) task
    have hindex : index < t.callbacks.length := (List.getElem?_eq_some_iff.mp htask).1
    constructor
    · refine Ownership.Balanced.move hbalanced fun ref => ?_
      cases hnext : (t.callbackStep env task).2 with
      | none => simp [hleft hnext, Ledger.held]
      | some next =>
        simp only [Ledger.held, List.count_append, List.flatten_append, Option.toList_some,
          List.map_cons, List.map_nil, List.flatten_cons, List.flatten_nil, List.append_nil]
        omega
    · exact { hmirrors with }
    · simp only [hledger, hserver]
      exact h.jobs
    · simp only [hledger, hserver]
      exact h.done
    · simp only [hledger, List.length_append, List.length_map]
      simp only [Ledger.releaseCallback, List.length_eraseIdx, h.callbacks]
    · simp only [hledger, hserver]
      exact h.watchdog
    · simp only [hledger, hserver]
      exact h.owner

/-- A step of the watchdog that publishes no job and finishes none. -/
theorem watch (h : LedgerInv t l) {env : WatchdogEnv} (hs : t.step (.watchdog env) = some t')
    (hnone : t.publishes (.watchdog env) = none) (hphase : t.watchdog ≠ .dispatched)
    (hmirrors : Mirrors t'.shared l) : LedgerInv t' l := by
  obtain ⟨hworker, hnext⟩ := step_jobs hs (by rintro _ ⟨⟩) (by rintro ⟨⟩) hnone
  obtain ⟨_, _, _, _, _, _, rfl, -⟩ := watchdogStep_frame hs
  exact { h with
    mirrors := hmirrors
    jobs := h.jobs.trans hnext.symm
    done := by
      rw [hworker]
      exact h.done
    watchdog := fun _ => h.watchdog hphase }

theorem resuming (h : LedgerInv t l) (hinv : RecoveryInv t.shared) {env : WatchdogEnv} {now : ℤ}
    (hphase : t.watchdog = .resuming now) (hs : t.step (.watchdog env) = some t') :
    LedgerInv t' (l.watchdogStep env t) := by
  have hwatchdog : l.watchdog = [] := h.watchdog (by rw [hphase]; rintro ⟨⟩)
  have heq : t'.shared = (t.shared.resume (if t.shared.server then env.listener else none)
      t.worker.isDone).1 ∧ t'.worker = t.worker ∧ t'.nextJob = t.nextJob ∧
      t'.callbacks = t.callbacks ∧ t'.lifecycle = t.lifecycle := by
    simp only [RtspServer.step, RtspServer.watchdogStep, hphase, Option.some.injEq] at hs
    subst hs
    exact ⟨rfl, rfl, rfl, rfl, rfl⟩
  obtain ⟨hshared, hworker, hnext, hcallbacks, hlifecycle⟩ := heq
  -- the pointers of the server after the step decide about those of the ledger
  suffices hnew : (l.watchdogStep env t).Balanced ∧ Mirrors t'.shared (l.watchdogStep env t) ∧
      (l.watchdogStep env t).jobs = l.jobs ∧ (l.watchdogStep env t).callbacks = l.callbacks ∧
      (l.watchdogStep env t).watchdog = l.watchdog ∧ (l.watchdogStep env t).owner = l.owner by
    obtain ⟨hbalanced, hmirrors, hjobs, hinside, hlocal, howner⟩ := hnew
    exact {
      balanced := hbalanced
      mirrors := hmirrors
      jobs := by rw [hjobs, hnext]; exact h.jobs
      done := by rw [hjobs, hworker]; exact h.done
      callbacks := by rw [hinside, hcallbacks]; exact h.callbacks
      watchdog := fun _ => hlocal.trans hwatchdog
      owner := by rw [howner, hlifecycle]; exact h.owner }
  simp only [Ledger.watchdogStep, hphase, hshared]
  cases hlistener : (if t.shared.server = true then env.listener else none) with
  | none =>
    refine ⟨h.balanced, ?_, rfl, rfl, rfl, rfl⟩
    simp only [RtspState.resume]
    split <;> exact { h.mirrors with }
  | some listener =>
    simp only [RtspState.resume]
    split
    next hresume =>
      have hcompleted : t.shared.recoveryState = .completed := by
        simp only [mayResume, Bool.and_eq_true, decide_eq_true_eq] at hresume
        exact hresume.1.1.1.1.2
      have hclosed := h.mirrors.listener.mp (hinv.closed (Or.inr hcompleted)).2.1
      exact ⟨h.balanced.resume hclosed,
        { h.mirrors with listener := iff_of_false (by rintro ⟨⟩) (by rintro ⟨⟩) },
        rfl, rfl, rfl, rfl⟩
    · exact ⟨h.balanced.passing, { h.mirrors with }, rfl, rfl, rfl, rfl⟩

theorem publication (h : LedgerInv t l) (hjobs : JobInv t) {job : RecoveryJob}
    (hs : t.step a = some t') (hjob : t.publishes a = some job) :
    LedgerInv t' (l.publishRunning job) := by
  obtain ⟨env, expected, reason, rfl, hphase, -, hmedia, -, -, -, -, -, heq⟩ :=
    publishes_spec hjob
  rw [hs, Option.some.injEq] at heq
  subst heq
  have hwatchdog : l.watchdog = [] := h.watchdog (by rw [hphase]; rintro ⟨⟩)
  exact {
    balanced := h.balanced.publishRunning hwatchdog job
    mirrors := {
      appsrc := iff_of_true rfl rfl
      media := h.mirrors.media
      listener := iff_of_true rfl rfl }
    jobs := by simp [Ledger.publishRunning, h.jobs]
    done := fun id hid => by
      have hlt : id < l.jobs.length := by
        rw [h.jobs]
        exact List.mem_range.mp (hjobs.accounted ▸ List.mem_append_left _ hid)
      simp only [Ledger.publishRunning]
      rw [List.getElem?_append_left hlt]
      exact h.done id hid
    callbacks := h.callbacks
    watchdog := fun hother => absurd rfl hother
    owner := h.owner }

theorem watchdogStep (h : LedgerInv t l) (hinv : RecoveryInv t.shared) (hjobs : JobInv t)
    {env : WatchdogEnv} (hs : t.step (.watchdog env) = some t') :
    LedgerInv t' (l.watchdogStep env t) := by
  have hshared := step_shared hs
  cases hphase : t.watchdog with
  | resuming now => exact h.resuming hinv hphase hs
  | dispatched =>
    simp only [Ledger.watchdogStep, hphase]
    simp only [RtspServer.step, RtspServer.watchdogStep, hphase, Option.some.injEq] at hs
    subst hs
    exact { h with
      balanced := h.balanced.releaseWatchdog
      mirrors := { h.mirrors with }
      watchdog := fun _ => rfl }
  | recovering expected reason =>
    simp only [Ledger.watchdogStep, hphase]
    cases hjob : t.publishes (.watchdog env) with
    | some job => exact h.publication hjobs hs hjob
    | none =>
      refine h.watch hs hjob (by rw [hphase]; rintro ⟨⟩) ?_
      rw [hshared]
      cases hsec : t.entered (.watchdog env) with
      | none => exact h.mirrors
      | some sec =>
        have hrecover : ∃ now id accepts, sec = .recoverMedia expected reason now id accepts := by
          simp only [entered, watchdogSection, hphase] at hsec
          obtain ⟨-, ⟨⟩⟩ := Option.ite_none_left_eq_some.mp hsec
          exact ⟨_, _, _, rfl⟩
        obtain ⟨now, id, accepts, hrecover⟩ := hrecover
        simp only [enter]
        rcases shared_of_publishes_none hjob hsec hrecover with heq | ⟨-, heq⟩
        · rw [heq]
          exact h.mirrors
        · rw [heq]
          exact { h.mirrors with }
  | idle => simp [RtspServer.step, RtspServer.watchdogStep, hphase] at hs
  | finishing now =>
    simp only [Ledger.watchdogStep, hphase]
    refine h.watch hs (by simp [publishes, hphase]) (by rw [hphase]; rintro ⟨⟩) ?_
    rw [hshared]
    simp only [entered, watchdogSection, hphase]
    exact h.mirrors.keep (.checkRecovery env.now t.worker.isDone) rfl rfl
  | viewing now =>
    simp only [Ledger.watchdogStep, hphase]
    refine h.watch hs (by simp [publishes, hphase]) (by rw [hphase]; rintro ⟨⟩) ?_
    rw [hshared]
    simp only [entered, watchdogSection, hphase]
    exact h.mirrors
  | failing expected =>
    simp only [Ledger.watchdogStep, hphase]
    refine h.watch hs (by simp [publishes, hphase]) (by rw [hphase]; rintro ⟨⟩) ?_
    rw [hshared]
    simp only [entered, watchdogSection, hphase]
    exact h.mirrors.keep (.failDispatch expected) rfl rfl

theorem workerStep (h : LedgerInv t l) (hjobs : JobInv t) (hs : t.step .worker = some t') :
    LedgerInv t' (l.step t .worker) := by
  obtain ⟨w, hw, rfl⟩ := Option.map_eq_some_iff.mp hs
  rcases RecoveryWorker.step_cases hw with ⟨job, hthread, -, rfl⟩ | ⟨job, hthread, rfl⟩ |
    ⟨hthread, -, -, rfl⟩
  · simp only [Ledger.step, hthread]
    exact { h with }
  · simp only [Ledger.step, hthread]
    have hlt : job.id < l.jobs.length := by
      rw [h.jobs]
      refine List.mem_range.mp (hjobs.accounted ▸ List.mem_append_right _ ?_)
      simp [RecoveryWorker.unfinished, hthread]
    exact { h with
      balanced := h.balanced.finishJob job.id
      mirrors := { h.mirrors with }
      jobs := by simpa [Ledger.finishJob] using h.jobs
      done := fun id hid => by
        simp only [Ledger.finishJob]
        rw [List.getElem?_set]
        split
        · rfl
        next hne =>
          rcases List.mem_append.mp hid with hold | hnew
          · exact h.done id hold
          · exact absurd (List.mem_singleton.mp hnew).symm hne }
  · simp only [Ledger.step, hthread]
    exact { h with }

/-- **The ledger is balanced, and follows the server, whatever the threads do.** -/
theorem step (h : LedgerInv t l) (hr : Reachable RtspServer.step (RtspServer.initial fps) t)
    (hs : t.step a = some t') : LedgerInv t' (l.step t a) := by
  have hepoch := EpochInv.reachable hr
  cases a with
  | call call ok => exact h.callStep hs
  | owner env =>
    rcases step_owner hs with ⟨stage, hphase, rfl⟩ | ⟨stage, hphase, hs⟩
    · exact h.startStep hepoch (vacantInv_of_reachable hr) hphase env
    · exact h.stopStep hphase hs
  | signal signal => exact h.signal hs
  | callback index env => exact h.callback hs
  | watchdog env =>
    exact h.watchdogStep (recoveryInv_of_reachable hr) (JobInv.reachable hr) hs
  | worker => exact h.workerStep (JobInv.reachable hr) hs
  | tick now =>
    have hidle : t.watchdog = .idle := by
      simp only [RtspServer.step] at hs
      split at hs
      next hticks =>
        simp only [Bool.and_eq_true, decide_eq_true_eq] at hticks
        exact hticks.2
      · cases hs
    obtain ⟨-, -, _, _, rfl⟩ := step_tick hs
    exact { h with watchdog := fun _ => h.watchdog (by rw [hidle]; rintro ⟨⟩) }
  | feeder env =>
    have hshared := step_shared hs
    have hmirrors : Mirrors t'.shared l := by
      rw [hshared]
      cases hsec : t.entered (.feeder env) with
      | none => exact h.mirrors
      | some sec =>
        rcases entered_cases hsec with ⟨_, hc, -⟩ | ⟨_, _, _, hc, -⟩ | ⟨_, hc, -⟩ |
          ⟨_, mediaGeneration, flow, -, -, rfl⟩
        · cases hc
        · cases hc
        · cases hc
        · exact h.mirrors.keep (.recordPush mediaGeneration flow) rfl rfl
    obtain ⟨_, _, _, _, rfl, -⟩ := feederStep_frame hs
    exact { h with mirrors := hmirrors }
  | submit unit =>
    obtain ⟨_, _, _, rfl⟩ := submitStep_frame hs
    exact { h with }
  | submitNext =>
    obtain ⟨_, _, _, _, rfl, -⟩ := submitNextStep_frame hs
    exact { h with }

/-- Once the server is stopped, no variable holds a reference. -/
theorem held_nil (h : LedgerInv t l) (hr : Reachable RtspServer.step (RtspServer.initial fps) t)
    (hstopped : t.lifecycle = .stopped) : l.held = [] := by
  have hepoch := EpochInv.reachable hr
  have hvacant := vacantInv_of_reachable hr
  have hjobs := JobInv.reachable hr
  obtain ⟨hinside, hidle⟩ := hepoch.sealed (by rw [hstopped]; rfl)
  have hsource := h.mirrors.appsrc.mp (hepoch.retired (by rw [hstopped]; rfl))
  have hmedia := h.mirrors.media.mp (hvacant.media (by rw [hstopped]; rfl))
  have hlistener := h.mirrors.listener.mp (hvacant.listener (by rw [hstopped]; rfl))
  have hcallbacks : l.callbacks = [] :=
    List.eq_nil_of_length_eq_zero (by rw [h.callbacks, hinside]; rfl)
  have hwatchdog := h.watchdog (by rw [hidle]; rintro ⟨⟩)
  have howner := h.owner (by rw [hstopped]; rfl)
  have hdead : t.worker.alive = false := by
    rw [RecoveryWorker.alive, hjobs.joined (by rw [hstopped]; rfl)]
  have hempty : l.jobs.flatMap JobRefs.refs = [] := by
    refine List.flatMap_eq_nil_iff.mpr fun job hjob => ?_
    obtain ⟨id, hlt, heq⟩ := List.mem_iff_getElem.mp hjob
    have hdone := h.done id (by
      rw [hjobs.done_eq hdead, ← h.jobs]
      exact List.mem_range.mpr hlt)
    rw [List.getElem?_eq_getElem hlt, heq, Option.some.injEq] at hdone
    rw [hdone]
    rfl
  simp [Ledger.held, hsource, hmedia, hlistener, hempty, hcallbacks, hwatchdog, howner]

end LedgerInv

/-! ### Whole runs -/

open RtspServer

variable {x : RtspServer × Ledger} {fps : ℕ}

theorem ledgerInv_of_reachable (h : Reachable ledgerStep (ledgerInitial fps) x) :
    Reachable RtspServer.step (RtspServer.initial fps) x.1 ∧ LedgerInv x.1 x.2 := by
  refine h.invariant
    (fun x => Reachable RtspServer.step (RtspServer.initial fps) x.1 ∧ LedgerInv x.1 x.2)
    ⟨.refl, LedgerInv.initial fps⟩ ?_
  rintro x a x' ⟨hr, hledger⟩ hs
  obtain ⟨t', hnext, rfl⟩ := Option.map_eq_some_iff.mp hs
  exact ⟨hr.tail hnext, hledger.step hr hnext⟩

/-- The jobs of a run are numbered below the next one. -/
theorem id_lt_nextJob {history : List ((RtspServer × Ledger) × RtspAction)}
    (h : Run ledgerStep (ledgerInitial fps) history x) :
    ∀ y ∈ history, ∀ job, y.1.1.publishes y.2 = some job → job.id < x.1.nextJob := by
  induction h with
  | nil => simp
  | @snoc history x x' a hrun hs ih =>
    obtain ⟨t', hnext, rfl⟩ := Option.map_eq_some_iff.mp hs
    have hgrows : x.1.nextJob ≤ t'.nextJob ∧
        ∀ job, x.1.publishes a = some job → job.id < t'.nextJob := by
      cases hjob : x.1.publishes a with
      | none => exact ⟨Nat.le_of_eq (step_nextJob hnext hjob).symm, by simp⟩
      | some job =>
        obtain ⟨env, expected, reason, rfl, -, -, -, -, -, -, -, rfl, heq⟩ := publishes_spec hjob
        rw [hnext, Option.some.injEq] at heq
        subst heq
        refine ⟨Nat.le_succ _, ?_⟩
        rintro _ ⟨⟩
        exact Nat.lt_succ_self _
    intro y hy job hjob
    rcases List.mem_append.mp hy with hy | hy
    · exact Nat.lt_of_lt_of_le (ih y hy job hjob) hgrows.1
    · rw [List.mem_singleton.mp hy] at hjob
      exact hgrows.2 job hjob

/-- **Every reference is released at most once, and exactly once when the server is stopped. No job
is published by a server that does not run, and the worker is joined with all jobs done.** -/
theorem released_exactly_once {history : List ((RtspServer × Ledger) × RtspAction)}
    (h : Run ledgerStep (ledgerInitial fps) history x) :
    (x.2.released.Nodup ∧ ∀ ref ∈ x.2.released, ref < x.2.taken) ∧
      (x.1.lifecycle = .stopped → ∀ ref < x.2.taken, ref ∈ x.2.released) ∧
      (∀ a job, x.1.publishes a = some job → x.1.shared.running = true) ∧
      ∀ env t', x.1.lifecycle = .stopping .joinWorker → x.1.step (.owner env) = some t' →
        ∀ y ∈ history, ∀ job, y.1.1.publishes y.2 = some job →
          job.id ∈ x.1.worker.done ∧ x.2.jobs[job.id]? = some {} := by
  obtain ⟨hr, hledger⟩ := ledgerInv_of_reachable h.reachable
  refine ⟨⟨hledger.balanced.nodup, fun ref => hledger.balanced.lt⟩, ?_, ?_, ?_⟩
  · intro hstopped ref href
    have hbalanced := hledger.balanced
    unfold Ledger.Balanced at hbalanced
    rw [hledger.held_nil hr hstopped] at hbalanced
    exact hbalanced.settled href
  · intro a job hjob
    obtain ⟨_, _, _, _, _, hrunning, -⟩ := publishes_spec hjob
    exact hrunning
  · intro env t' hphase hs y hy job hjob
    have hjobs := JobInv.reachable hr
    have hdead : x.1.worker.alive = false := by
      simp only [RtspServer.step, RtspServer.ownerStep, hphase, RtspServer.stopStep] at hs
      split at hs
      next hthread => rcases hthread with hthread | hthread <;> rw [RecoveryWorker.alive, hthread]
      · cases hs
    have hdone : job.id ∈ x.1.worker.done := by
      rw [hjobs.done_eq hdead]
      exact List.mem_range.mpr (id_lt_nextJob h y hy job hjob)
    exact ⟨hdone, hledger.done job.id hdone⟩

/-- `stop` during a recovery: the feeder ends, the worker finishes the job and is joined, and the
rest is given up. -/
def shutDown : List RtspAction :=
  [.call .stop true, .owner {}, .owner {}, .feeder {}, .feeder {}, .owner {}, .owner {}, .owner {},
    .worker, .worker, .owner {}, .owner {}, .worker, .owner {}, .owner {}, .owner {}, .owner {},
    .owner {}]

/-- A server that is stopped while it tears a media down has taken six references: the listener, the
media, the source, and the three of the job. -/
theorem released_exactly_once_stopped :
    ∃ x, Reachable ledgerStep (ledgerInitial 30) x ∧ x.1.lifecycle = .stopped ∧ x.2.taken = 6 ∧
      x.2.released.Nodup ∧ ∀ ref < 6, ref ∈ x.2.released := by
  let actions := startUp ++ configureMedia 10 20 ++ reportMediaError 10 ++ dispatchRecovery ++
    [.watchdog {}] ++ shutDown
  have hrun : Run ledgerStep (ledgerInitial 30) _ _ := Run.ofExec actions rfl
  obtain ⟨⟨hnodup, -⟩, hall, -⟩ := released_exactly_once hrun
  exact ⟨_, hrun.reachable, rfl, rfl, hnodup, hall rfl⟩

end EggVision
