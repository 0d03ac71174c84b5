import EggVision.Lib.History
import EggVision.Rtsp.Isolation

/-!
# Recovery jobs

`recoverMedia` publishes a job whenever it gets a recovery to run, and the recovery worker takes the
jobs one by one. The jobs are numbered in the order in which they were published; the numbers the
worker is done with, the one it has in hand and the one that waits are at any time all of them.

## Main definitions

* `publishes` — the job that a step publishes
* `JobInv` — how the jobs and the worker hang together
* `Recovering` — since when a recovery runs, and whether its media has gone

## Main results

* `JobInv.reachable`
* `resumed_after_teardown` — what is over when clients are let in again
-/

namespace EggVision

open Transition History RtspState

/-- `stopLocked` has asked the worker to stop, or `start` has not created it yet. -/
def Lifecycle.parted : Lifecycle → Bool
  | .stopped | .starting .publish | .starting .allocate | .starting .factory
  | .starting .recoveryWorker | .stopping .joinWorker | .stopping .disableCallbacks
  | .stopping .waitCallbacks | .stopping .retire | .stopping .release => true
  | .starting _ | .started | .stopping _ => false

/-- The worker has been joined, or `start` has not created it yet. -/
def Lifecycle.workerless : Lifecycle → Bool
  | .stopping .joinWorker => false
  | phase => phase.parted

/-! ### The worker -/

namespace RecoveryWorker

variable {w w' : RecoveryWorker}

/-- The job in hand, and the one that waits. -/
def unfinished (w : RecoveryWorker) : List ℕ :=
  (match w.thread with
    | .processing job => [job.id]
    | .absent | .waiting | .exited => []) ++ w.pending.toList.map RecoveryJob.id

/-- The thread takes jobs, now or when it is done with the one in hand. -/
def alive (w : RecoveryWorker) : Bool :=
  match w.thread with
  | .waiting | .processing _ => true
  | .absent | .exited => false

/-- A step of the loop takes a job, finishes the one in hand, or ends the loop. -/
theorem step_cases (h : w.step = some w') :
    (∃ job, w.thread = .waiting ∧ w.pending = some job ∧
        w' = { w with thread := .processing job, pending := none }) ∨
      (∃ job, w.thread = .processing job ∧
        w' = { w with thread := .waiting, done := w.done ++ [job.id] }) ∨
      (w.thread = .waiting ∧ w.pending = none ∧ w.stopping = true ∧
        w' = { w with thread := .exited }) := by
  unfold step at h
  split at h
  next hthread =>
    split at h
    next job hpending =>
      cases h
      exact Or.inl ⟨job, hthread, hpending, rfl⟩
    next hpending =>
      split at h
      next hstopping =>
        cases h
        exact Or.inr (Or.inr ⟨hthread, hpending, hstopping, rfl⟩)
      · cases h
  next job hthread =>
    cases h
    exact Or.inr (Or.inl ⟨job, hthread, rfl⟩)
  · cases h
  · cases h

/-- The worker finishes jobs in the order in which it got them. -/
theorem step_accounts (h : w.step = some w') :
    w'.done ++ w'.unfinished = w.done ++ w.unfinished := by
  rcases step_cases h with ⟨job, hthread, hpending, rfl⟩ | ⟨job, hthread, rfl⟩ |
    ⟨hthread, hpending, -, rfl⟩
  · simp [unfinished, hthread, hpending]
  · simp [unfinished, hthread]
  · simp [unfinished, hthread, hpending]

end RecoveryWorker

namespace RtspServer

variable {t t' : RtspServer} {a : RtspAction} {fps : ℕ}

/-! ### Publications -/

/-- The job that `recoverMedia` publishes in the step, if it does. -/
def publishes (t : RtspServer) : RtspAction → Option RecoveryJob
  | .watchdog env =>
    match t.watchdog with
    | .recovering expected reason =>
      if env.throws then none
      else
        match (t.shared.recoverMedia expected reason env.now t.nextJob t.worker.accepts).2 with
        | .dispatched job _ => some job
        | .ignored | .thrown _ => none
    | .idle | .finishing _ | .resuming _ | .viewing _ | .failing _ | .dispatched => none
  | .call _ _ | .owner _ | .signal _ | .callback _ _ | .tick _ | .worker | .feeder _ | .submit _
  | .submitNext => none

/-- A job is published for the current media, with a free worker, by a server that runs. -/
theorem publishes_spec {job : RecoveryJob} (h : t.publishes a = some job) :
    ∃ env expected reason, a = .watchdog env ∧ t.watchdog = .recovering expected reason ∧
      t.shared.running = true ∧ t.shared.currentMedia ≠ none ∧
      t.shared.mediaGeneration = expected ∧
      (t.shared.recoveryState = .requested ∨ t.shared.recoveryState = .idle) ∧
      t.shared.recoveryWorker = true ∧ t.worker.accepts = true ∧
      job = (t.shared.publishRunning expected reason env.now t.nextJob).2 ∧
      t.step a = some { t with
        shared := (t.shared.publishRunning expected reason env.now t.nextJob).1
        worker := { t.worker with pending := some job }
        nextJob := t.nextJob + 1
        watchdog := .dispatched } := by
  cases a with
  | watchdog env =>
    simp only [publishes] at h
    split at h
    next expected reason hphase =>
      split at h
      · cases h
      next hthrows =>
        rcases recoverMedia_cases expected reason env.now t.nextJob t.worker.accepts t.shared with
          ⟨-, hnone⟩ | ⟨-, -, heq⟩ | ⟨hrunning, hmedia, hexpected, hstate, hworker, haccepts, heq⟩
        · split at h
          next hresult => exact absurd hresult (hnone _ _)
          · cases h
          · cases h
        · rw [heq] at h
          cases h
        · rw [heq] at h
          cases h
          refine ⟨env, expected, reason, rfl, hphase, hrunning, hmedia, hexpected, hstate, hworker,
            haccepts, rfl, ?_⟩
          simp only [step, watchdogStep, hphase, if_neg hthrows, heq]
    all_goals cases h
  | _ => cases h

/-- The section of a step that publishes no job does not get a recovery to run. -/
theorem shared_of_publishes_none (h : t.publishes a = none) {sec : Section}
    (hsec : t.entered a = some sec) {expected : ℕ} {reason : String} {now : ℤ} {id : ℕ}
    {accepts : Bool} (hrecover : sec = .recoverMedia expected reason now id accepts) :
    sec.apply t.shared = t.shared ∨
      t.shared.isRequested expected = true ∧ sec.apply t.shared = t.shared.dropRequest := by
  subst hrecover
  rcases recoverMedia_cases expected reason now id accepts t.shared with
    ⟨heq, -⟩ | ⟨-, hrequested, heq⟩ | ⟨-, -, -, -, -, -, heq⟩
  · exact Or.inl heq
  · refine Or.inr ⟨hrequested, ?_⟩
    simp only [Section.apply, heq]
  · obtain ⟨env, rfl, hphase⟩ := entered_recoverMedia hsec
    simp only [entered, watchdogSection, hphase] at hsec
    obtain ⟨hthrows, ⟨⟩⟩ := Option.ite_none_left_eq_some.mp hsec
    simp only [publishes, hphase, if_neg hthrows, heq] at h
    cases h

/-- Nobody but the owner and the worker itself touches the worker, except to publish a job. -/
theorem step_jobs (hs : t.step a = some t') (howner : ∀ env, a ≠ .owner env)
    (hworker : a ≠ .worker) (hnone : t.publishes a = none) :
    t'.worker = t.worker ∧ t'.nextJob = t.nextJob := by
  cases a with
  | call call ok =>
    rcases callStep_cases hs with ⟨-, rfl | rfl | ⟨-, rfl⟩ | ⟨-, rfl⟩⟩ <;> exact ⟨rfl, rfl⟩
  | owner env => exact absurd rfl (howner env)
  | worker => exact absurd rfl hworker
  | signal signal =>
    obtain ⟨-, rfl⟩ := step_signal hs
    exact ⟨rfl, rfl⟩
  | callback index env =>
    obtain ⟨_, _, _, _, rfl, -⟩ := step_callback hs
    exact ⟨rfl, rfl⟩
  | tick now =>
    obtain ⟨-, -, _, _, rfl⟩ := step_tick hs
    exact ⟨rfl, rfl⟩
  | watchdog env =>
    simp only [step, watchdogStep] at hs
    simp only [publishes] at hnone
    cases hphase : t.watchdog with
    | recovering expected reason =>
      simp only [hphase] at hs hnone
      split at hs
      · cases hs
        exact ⟨rfl, rfl⟩
      next hthrows =>
        rw [if_neg hthrows] at hnone
        split at hs
        · cases hs
          exact ⟨rfl, rfl⟩
        · cases hs
          exact ⟨rfl, rfl⟩
        next hresult =>
          rw [hresult] at hnone
          cases hnone
    | idle => simp [hphase] at hs
    | _ =>
      simp only [hphase, Option.some.injEq] at hs
      subst hs
      exact ⟨rfl, rfl⟩
  | feeder env =>
    obtain ⟨_, _, _, _, rfl, -⟩ := feederStep_frame hs
    exact ⟨rfl, rfl⟩
  | submit unit =>
    obtain ⟨_, _, _, rfl⟩ := submitStep_frame hs
    exact ⟨rfl, rfl⟩
  | submitNext =>
    obtain ⟨_, _, _, _, rfl, -⟩ := submitNextStep_frame hs
    exact ⟨rfl, rfl⟩

/-! ### The jobs of a run -/

/-- How the jobs and the worker hang together. -/
structure JobInv (t : RtspServer) : Prop where
  accounted : t.worker.done ++ t.worker.unfinished = List.range t.nextJob
  idle : t.worker.alive = false → t.worker.pending = none
  working : t.shared.recoveryWorker = true → t.worker.alive = true ∧ t.worker.stopping = false
  parted : t.lifecycle.parted = true → t.shared.recoveryWorker = false
  joined : t.lifecycle.workerless = true → t.worker.thread = .absent

theorem JobInv.initial (fps : ℕ) : JobInv (initial fps) := by
  constructor <;> simp [RtspServer.initial, RecoveryWorker.unfinished]

/-- A worker without a thread has done all jobs. -/
theorem JobInv.done_eq (h : JobInv t) (hidle : t.worker.alive = false) :
    t.worker.done = List.range t.nextJob := by
  have hpending := h.idle hidle
  have hnone : t.worker.unfinished = [] := by
    unfold RecoveryWorker.alive at hidle
    unfold RecoveryWorker.unfinished
    split at hidle
    · cases hidle
    · cases hidle
    next hthread => simp [hthread, hpending]
    next hthread => simp [hthread, hpending]
  have hall := h.accounted
  rwa [hnone, List.append_nil] at hall

theorem JobInv.callStep (h : JobInv t) {call : OwnerCall} {ok : Bool}
    (hepoch : EpochInv t) (hs : t.callStep call ok = some t') : JobInv t' := by
  obtain ⟨hphase, rfl | rfl | ⟨hrunning, rfl⟩ | ⟨hrunning, rfl⟩⟩ := callStep_cases hs
  · exact h
  · exact { h with }
  · have hstopped : t.lifecycle = .stopped := hphase.resolve_right fun hstarted => by
      rw [hepoch.running, hstarted] at hrunning
      cases hrunning
    exact { h with
      parted := fun _ => h.parted (by rw [hstopped]; rfl)
      joined := fun _ => h.joined (by rw [hstopped]; rfl) }
  · exact { h with parted := by rintro ⟨⟩, joined := by rintro ⟨⟩ }

theorem JobInv.startStep (h : JobInv t) {stage : StartStage}
    (hphase : t.lifecycle = .starting stage) (env : OwnerEnv) :
    JobInv (t.startStep stage env) := by
  obtain ⟨ok, id, now, counted⟩ := env
  -- the steps before the worker is created leave it alone, and so do those after
  cases stage with
  | publish =>
    exact { h with
      parted := fun _ => h.parted (by rw [hphase]; rfl)
      joined := fun _ => h.joined (by rw [hphase]; rfl) }
  | allocate =>
    have hparted := h.parted (by rw [hphase]; rfl)
    have hjoined := h.joined (by rw [hphase]; rfl)
    cases ok <;> exact { h with parted := fun _ => hparted, joined := fun _ => hjoined }
  | factory =>
    have hparted := h.parted (by rw [hphase]; rfl)
    have hjoined := h.joined (by rw [hphase]; rfl)
    have hsame : (t.shared.publishFactory id).1.recoveryWorker = t.shared.recoveryWorker := by
      unfold publishFactory
      split <;> rfl
    cases ok with
    | false => exact { h with parted := fun _ => hparted, joined := fun _ => hjoined }
    | true =>
      simp only [RtspServer.startStep, Bool.not_true, Bool.false_eq_true, if_false]
      split
      · exact { h with
          working := by
            simp only [hsame]
            exact h.working
          parted := fun _ => hsame.trans hparted
          joined := fun _ => hjoined }
      · exact { h with parted := fun _ => hparted, joined := fun _ => hjoined }
  | recoveryWorker =>
    have hparted := h.parted (by rw [hphase]; rfl)
    have hjoined := h.joined (by rw [hphase]; rfl)
    cases ok with
    | false => exact { h with parted := fun _ => hparted, joined := fun _ => hjoined }
    | true =>
      have hdone := h.done_eq (by rw [RecoveryWorker.alive, hjoined])
      exact {
        accounted := by simpa [RtspServer.startStep, RecoveryWorker.unfinished] using hdone
        idle := by rintro ⟨⟩
        working := fun _ => ⟨rfl, rfl⟩
        parted := by rintro ⟨⟩
        joined := by rintro ⟨⟩ }
  | publishWatchdog => exact { h with parted := by rintro ⟨⟩, joined := by rintro ⟨⟩ }
  | _ => cases ok <;> exact { h with parted := by rintro ⟨⟩, joined := by rintro ⟨⟩ }

theorem JobInv.stopStep (h : JobInv t) {stage : StopStage}
    (hphase : t.lifecycle = .stopping stage) {env : OwnerEnv}
    (hs : t.stopStep stage env = some t') (hepoch : EpochInv t) : JobInv t' := by
  cases stage with
  | publish =>
    have hrunning : t.shared.running = true := by rw [hepoch.running, hphase]; rfl
    simp only [RtspServer.stopStep, publishStop, hrunning] at hs
    cases hs
    exact { h with parted := by rintro ⟨⟩, joined := by rintro ⟨⟩ }
  | joinFeeder =>
    simp only [RtspServer.stopStep] at hs
    split at hs
    · cases hs
      exact { h with parted := by rintro ⟨⟩, joined := by rintro ⟨⟩ }
    · cases hs
  | waitJob waitFor =>
    simp only [RtspServer.stopStep] at hs
    split at hs
    · cases hs
      exact { h with parted := by rintro ⟨⟩, joined := by rintro ⟨⟩ }
    · split at hs
      · cases hs
      · cases hs
        exact { h with }
  | stopWorker =>
    cases hs
    refine {
      accounted := ?_
      idle := ?_
      working := by rintro ⟨⟩
      parted := fun _ => rfl
      joined := by rintro ⟨⟩ }
    · simp only
      split <;> exact h.accounted
    · simp only
      split <;> exact h.idle
  | joinWorker =>
    have hparted := h.parted (by rw [hphase]; rfl)
    simp only [RtspServer.stopStep] at hs
    split at hs
    next hthread =>
      cases hs
      have hidle : t.worker.alive = false := by
        rcases hthread with hthread | hthread <;> rw [RecoveryWorker.alive, hthread]
      exact {
        accounted := by
          simpa [RecoveryWorker.unfinished, h.idle hidle] using h.done_eq hidle
        idle := fun _ => h.idle hidle
        working := fun hworker => by
          rw [hparted] at hworker
          cases hworker
        parted := fun _ => hparted
        joined := fun _ => rfl }
    · cases hs
  | waitCallbacks =>
    simp only [RtspServer.stopStep] at hs
    split at hs
    · cases hs
      exact { h with
        parted := fun _ => h.parted (by rw [hphase]; rfl)
        joined := fun _ => h.joined (by rw [hphase]; rfl) }
    · cases hs
  | closeQueue =>
    cases hs
    exact { h with parted := by rintro ⟨⟩, joined := by rintro ⟨⟩ }
  | takeSources =>
    cases hs
    exact { h with parted := by rintro ⟨⟩, joined := by rintro ⟨⟩ }
  | destroySources waitFor =>
    cases hs
    exact { h with parted := by rintro ⟨⟩, joined := by rintro ⟨⟩ }
  | _ =>
    cases hs
    exact { h with
      parted := fun _ => h.parted (by rw [hphase]; rfl)
      joined := fun _ => h.joined (by rw [hphase]; rfl) }

theorem JobInv.workerStep (h : JobInv t) {w : RecoveryWorker} (hs : t.worker.step = some w) :
    JobInv { t with worker := w } := by
  have haccounted := (RecoveryWorker.step_accounts hs).trans h.accounted
  have habsent : t.worker.thread ≠ .absent := fun habsent => by
    rw [RecoveryWorker.step, habsent] at hs
    cases hs
  have hjoined : t.lifecycle.workerless = true → w.thread = .absent := fun hphase =>
    absurd (h.joined hphase) habsent
  rcases RecoveryWorker.step_cases hs with ⟨job, hthread, -, rfl⟩ | ⟨job, hthread, rfl⟩ |
    ⟨hthread, hpending, hstopping, rfl⟩
  · exact { h with
      accounted := haccounted
      idle := by rintro ⟨⟩
      working := fun hworker => ⟨rfl, (h.working hworker).2⟩
      joined := hjoined }
  · exact { h with
      accounted := haccounted
      idle := by rintro ⟨⟩
      working := fun hworker => ⟨rfl, (h.working hworker).2⟩
      joined := hjoined }
  · exact { h with
      accounted := haccounted
      idle := fun _ => hpending
      working := fun hworker => by
        rw [(h.working hworker).2] at hstopping
        cases hstopping
      joined := hjoined }

theorem JobInv.publication (h : JobInv t) {job : RecoveryJob} (hs : t.step a = some t')
    (hjob : t.publishes a = some job) : JobInv t' := by
  obtain ⟨env, expected, reason, rfl, -, -, -, -, -, hworker, haccepts, rfl, heq⟩ :=
    publishes_spec hjob
  rw [hs, Option.some.injEq] at heq
  subst heq
  obtain ⟨halive, -⟩ := h.working hworker
  have hpending : t.worker.pending = none := by
    simp only [RecoveryWorker.accepts, Bool.and_eq_true, Option.isNone_iff_eq_none] at haccepts
    exact haccepts.2
  have hall := h.accounted
  exact {
    accounted := by
      simp only [RecoveryWorker.unfinished, hpending, Option.toList_none, List.map_nil,
        List.append_nil] at hall
      rw [List.range_succ, ← hall]
      simp [RecoveryWorker.unfinished, publishRunning]
    idle := fun hdead => by
      have halive' : t.worker.alive = false := hdead
      rw [halive] at halive'
      cases halive'
    working := fun _ => h.working hworker
    parted := h.parted
    joined := h.joined }

/-- **The jobs and the worker hang together whatever the threads do.** -/
theorem JobInv.step (h : JobInv t) (hepoch : EpochInv t) (hs : t.step a = some t') :
    JobInv t' := by
  cases hjob : t.publishes a with
  | some job => exact h.publication hs hjob
  | none =>
    by_cases hcall : ∃ call ok, a = .call call ok
    · obtain ⟨call, ok, rfl⟩ := hcall
      exact h.callStep hepoch hs
    by_cases howner : ∃ env, a = .owner env
    · obtain ⟨env, rfl⟩ := howner
      rcases step_owner hs with ⟨stage, hphase, rfl⟩ | ⟨stage, hphase, hs⟩
      · exact h.startStep hphase env
      · exact h.stopStep hphase hs hepoch
    by_cases hworker : a = .worker
    · subst hworker
      obtain ⟨w, hw, rfl⟩ := Option.map_eq_some_iff.mp hs
      exact h.workerStep hw
    obtain ⟨hsame, hnext⟩ := step_jobs hs (by simpa using howner) hworker hjob
    have hlifecycle := (step_epoch hs (by simpa using hcall) (by simpa using howner)).1
    have hkept : t'.shared.recoveryWorker = t.shared.recoveryWorker := by
      rw [step_shared hs]
      cases hsec : t.entered a with
      | none => rfl
      | some sec =>
        refine (Section.sameEpoch (Bool.eq_false_iff.mpr fun hown => ?_) _).recoveryWorker
        exact howner (entered_byOwner hsec hown)
    constructor
    · rw [hsame, hnext]
      exact h.accounted
    · rw [hsame]
      exact h.idle
    · rw [hsame, hkept]
      exact h.working
    · rw [hlifecycle, hkept]
      exact h.parted
    · rw [hlifecycle, hsame]
      exact h.joined

theorem JobInv.reachable (h : Reachable RtspServer.step (RtspServer.initial fps) t) :
    JobInv t := by
  suffices h' : EpochInv t ∧ JobInv t from h'.2
  refine h.invariant (fun t => EpochInv t ∧ JobInv t) ⟨EpochInv.initial fps, JobInv.initial fps⟩ ?_
  rintro t a t' ⟨hepoch, hjobs⟩ hs
  exact ⟨hepoch.step hs, hjobs.step hepoch hs⟩

/-! ### A recovery and its job -/

theorem step_nextJob (hs : t.step a = some t') (hnone : t.publishes a = none) :
    t'.nextJob = t.nextJob := by
  by_cases howner : ∃ env, a = .owner env
  · obtain ⟨env, rfl⟩ := howner
    obtain ⟨_, _, _, _, _, _, _, _, _, rfl, -⟩ := ownerStep_frame hs
    rfl
  by_cases hworker : a = .worker
  · subst hworker
    obtain ⟨_, rfl⟩ := step_worker hs
    rfl
  exact (step_jobs hs (by simpa using howner) hworker hnone).2

/-- Unless a job is published, a recovery is carried on or is over. -/
theorem step_carries (hs : t.step a = some t') (hnone : t.publishes a = none) :
    (t'.shared.recoveryState = .idle ∨ t'.shared.recoveryState = .requested) ∨
      Carries t.shared t'.shared := by
  rw [step_shared hs]
  cases hsec : t.entered a with
  | none => exact Or.inr (GoesOn.refl _).toCarries
  | some sec =>
    simp only [enter]
    rcases sec.recovery_cases t.shared with hover | hgoes |
      ⟨expected, reason, now, id, accepts, hrecover, -⟩ | ⟨mediaGeneration, flow, rfl⟩
    · exact Or.inl hover
    · exact Or.inr hgoes.toCarries
    · rcases shared_of_publishes_none hnone hsec hrecover with heq | ⟨-, heq⟩
      · rw [heq]
        exact Or.inr (GoesOn.refl _).toCarries
      · rw [heq]
        exact Or.inl (Or.inl rfl)
    · simp only [Section.apply]
      rcases recordPush_recovery mediaGeneration flow t.shared with hrequested | ⟨_, heq⟩
      · exact Or.inl (Or.inr hrequested)
      · rw [heq]
        exact Or.inr { (GoesOn.refl t.shared).toCarries with }

/-- The step is the one of `onMediaUnprepared` for the media. -/
def reportsUnprepared (media : ℕ) (x : RtspServer × RtspAction) : Prop :=
  ∃ index env, x.2 = .callback index env ∧ x.1.callbacks[index]? = some (.unprepared media)

theorem entered_unprepare {media : ℕ} {now : ℤ}
    (h : t.entered a = some (.unprepare media now)) : reportsUnprepared media (t, a) := by
  rcases entered_cases h with ⟨env, -, hown⟩ | ⟨index, env, task, rfl, htask, hcallback⟩ |
    ⟨env, -, hwatchdog⟩ | ⟨env, _, _, -, -, heq⟩
  · cases hown
  · cases task with
    | unprepared media' =>
      cases hcallback
      exact ⟨index, env, rfl, htask⟩
    | bind media' after =>
      obtain ⟨_, -, heq⟩ := Option.map_eq_some_iff.mp hcallback
      cases heq
    | handleMessage media' isError =>
      obtain ⟨-, heq⟩ := Option.ite_none_right_eq_some.mp hcallback
      cases heq
    | _ => cases hcallback
  · unfold watchdogSection at hwatchdog
    split at hwatchdog
    · cases hwatchdog
    · cases hwatchdog
    · split at hwatchdog <;> cases hwatchdog
    · cases hwatchdog
    all_goals cases hwatchdog
  · cases heq

/-- The step publishes a job. -/
def Publication (x : RtspServer × RtspAction) : Prop := x.1.publishes x.2 ≠ none

/-- A recovery that runs or has completed: `pub` is the step that published its job, `after` what
has come since. -/
structure Recovering (history : List (RtspServer × RtspAction)) (t : RtspServer)
    (pub : RtspServer × RtspAction) (after : List (RtspServer × RtspAction))
    (job : RecoveryJob) : Prop where
  since : Since Publication history pub after
  published : pub.1.publishes pub.2 = some job
  current : t.shared.recoveryJob = some job
  latest : job.id + 1 = t.nextJob
  generation : t.shared.recoveryGeneration = pub.1.shared.mediaGeneration
  gone : t.shared.recoveryMediaUnprepared = true →
    ∃ media, pub.1.shared.currentMedia = some media ∧ ∃ x ∈ after, reportsUnprepared media x

theorem Recovering.publication {history : List (RtspServer × RtspAction)} {job : RecoveryJob}
    (hs : t.step a = some t') (hjob : t.publishes a = some job) :
    Recovering (history ++ [(t, a)]) t' (t, a) [] job := by
  have hpub : Publication (t, a) := by simp [Publication, hjob]
  obtain ⟨env, expected, reason, rfl, -, -, -, hexpected, -, -, -, hnew, heq⟩ :=
    publishes_spec hjob
  rw [hs, Option.some.injEq] at heq
  subst heq
  exact {
    since := .last history hpub
    published := hjob
    current := by rw [hnew]; rfl
    latest := by rw [hnew]; rfl
    generation := hexpected.symm
    gone := by rintro ⟨⟩ }

/-- While no other job is published, a recovery keeps its job, and finds out that its media has
gone only from the report that it has. -/
theorem Recovering.next {history after : List (RtspServer × RtspAction)}
    {pub : RtspServer × RtspAction} {job : RecoveryJob}
    (hrun : Run RtspServer.step (RtspServer.initial fps) history t)
    (h : Recovering history t pub after job) (hs : t.step a = some t')
    (hnone : t.publishes a = none) (hcarries : Carries t.shared t'.shared) :
    Recovering (history ++ [(t, a)]) t' pub (after ++ [(t, a)]) job := by
  refine {
    since := h.since.snoc (not_not_intro hnone)
    published := h.published
    current := hcarries.job.trans h.current
    latest := h.latest.trans (step_nextJob hs hnone).symm
    generation := hcarries.generation.trans h.generation
    gone := fun hgone => ?_ }
  have hbefore : t.shared.recoveryMediaUnprepared = true ∨
      ∃ media now, t.entered a = some (.unprepare media now) ∧
        t.shared.currentMedia = some media ∧
        t.shared.recoveryGeneration = t.shared.mediaGeneration := by
    rw [step_shared hs] at hgone
    cases hsec : t.entered a with
    | none =>
      rw [hsec] at hgone
      exact Or.inl hgone
    | some sec =>
      rw [hsec] at hgone
      rcases Section.unprepares hgone with hold | ⟨media, now, rfl, hmedia, hgeneration⟩
      · exact Or.inl hold
      · exact Or.inr ⟨media, now, rfl, hmedia, hgeneration⟩
  rcases hbefore with hold | ⟨media, now, hsec, hmedia, hgeneration⟩
  · obtain ⟨media, hmedia, x, hx, hreports⟩ := h.gone hold
    exact ⟨media, hmedia, x, List.mem_append_left _ hx, hreports⟩
  · -- the generation has not changed since the publication, so the media has not either
    obtain ⟨_, hfirst, hrest⟩ := hrun.step_of_mem pub h.since.mem
    have hrenames := (step_renames hfirst).trans (renames_of_reachable hrest)
    have hsame := hrenames.media (hgeneration.symm.trans h.generation)
    exact ⟨media, hsame.symm.trans hmedia, (t, a), by simp, entered_unprepare hsec⟩

theorem recovering_of_run {history : List (RtspServer × RtspAction)}
    (h : Run step (initial fps) history t)
    (hstate : t.shared.recoveryState = .running ∨ t.shared.recoveryState = .completed) :
    ∃ pub after job, Recovering history t pub after job := by
  induction h with
  | nil => rcases hstate with hstate | hstate <;> cases hstate
  | @snoc history t t' a hrun hs ih =>
    cases hjob : t.publishes a with
    | some job => exact ⟨_, _, job, .publication hs hjob⟩
    | none =>
      rcases step_carries hs hjob with hover | hcarries
      · rcases hover with hover | hover <;> simp [hover] at hstate
      · obtain ⟨pub, after, job, hrecovering⟩ := ih (hcarries.recovering hstate)
        exact ⟨_, _, job, hrecovering.next hrun hs hjob hcarries⟩

/-! ### The end of a recovery -/

/-- What `finishRecoveryIfReady` has checked when it lets clients in. -/
theorem resume_opens {s : RtspState} {listener : Option ℕ} {done : ℕ → Bool}
    (hclosed : s.acceptingClients = false)
    (hopen : (s.resume listener done).1.acceptingClients = true) :
    s.recoveryState = .completed ∧ s.recoveryMediaUnprepared = true ∧ s.jobDone done = true := by
  unfold resume at hopen
  split at hopen
  · split at hopen
    next hresume =>
      simp only [mayResume, Bool.and_eq_true, decide_eq_true_eq] at hresume
      exact ⟨hresume.1.1.1.1.2, hresume.1.1.2, hresume.1.2⟩
    · simp [hclosed] at hopen
  · split at hopen <;> simp [hclosed] at hopen

/-- **When clients are let in again, the recovery's job is done, no other is pending or in hand, and
the media that was torn down has been reported unprepared since the job was published.** -/
theorem resumed_after_teardown {history : List (RtspServer × RtspAction)}
    (h : Run step (initial fps) history t) {env : WatchdogEnv} {now : ℤ}
    (hphase : t.watchdog = .resuming now) (hs : t.step (.watchdog env) = some t')
    (hclosed : t.shared.acceptingClients = false) (hopen : t'.shared.acceptingClients = true) :
    ∃ job, t.shared.recoveryJob = some job ∧ job.token = t.shared.recoveryToken ∧
      job.id ∈ t.worker.done ∧ t.worker.pending = none ∧
      (∀ other, t.worker.thread ≠ .processing other) ∧
      ∃ pub after, Since Publication history pub after ∧ pub.1.publishes pub.2 = some job ∧
        ∃ media, pub.1.shared.currentMedia = some media ∧
          ∃ x ∈ after, reportsUnprepared media x := by
  have hsec : t.entered (.watchdog env) =
      some (.resume (if t.shared.server then env.listener else none) t.worker.isDone) := by
    simp only [entered, watchdogSection, hphase]
  rw [step_shared hs, hsec] at hopen
  obtain ⟨hcompleted, hgone, hdone⟩ := resume_opens hclosed hopen
  obtain ⟨pub, after, job, hrecovering⟩ := recovering_of_run h (Or.inr hcompleted)
  simp only [jobDone, hrecovering.current, Option.any_some, Bool.and_eq_true,
    decide_eq_true_eq, RecoveryWorker.isDone] at hdone
  have hall := (JobInv.reachable h.reachable).accounted
  rw [← hrecovering.latest] at hall
  have hnothing := eq_nil_of_append_eq_range hall hdone.2
  obtain ⟨hthread, hpending⟩ := List.append_eq_nil_iff.mp hnothing
  refine ⟨job, hrecovering.current, hdone.1, hdone.2, by simpa using hpending, ?_, pub, after,
    hrecovering.since, hrecovering.published, hrecovering.gone hgone⟩
  intro other hother
  simp [hother] at hthread

/-- The worker does its job, the media is gone, and the next tick lets clients in. -/
def finishRecovery (media : ℕ) : List RtspAction :=
  [.worker, .worker, .signal (.unprepared media), .callback 0 {}, .callback 0 {}, .watchdog {},
    .tick 0, .watchdog {}]

/-- The recovery of a media error comes to its end. -/
theorem resumed_after_teardown_finished :
    ∃ history t job, Run step (initial 30) history t ∧ t.shared.recoveryJob = some job ∧
      job.id ∈ t.worker.done ∧ t.worker.pending = none ∧
      ∃ pub after, Since Publication history pub after ∧ pub.1.publishes pub.2 = some job ∧
        ∃ media, pub.1.shared.currentMedia = some media ∧
          ∃ x ∈ after, reportsUnprepared media x := by
  let actions := startUp ++ configureMedia 10 20 ++ reportMediaError 10 ++ dispatchRecovery ++
    finishRecovery 10
  have hrun : Run step (initial 30) _ _ := Run.ofExec actions rfl
  obtain ⟨job, hjob, -, hdone, hpending, -, hpub⟩ :=
    @resumed_after_teardown _ _ 30 _ hrun { listener := some 5 } 0 rfl rfl rfl rfl
  exact ⟨_, _, job, hrun, hjob, hdone, hpending, hpub⟩

end RtspServer

end EggVision
