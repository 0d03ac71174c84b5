import EggVision.Rtsp.Ledger
import EggVision.Rtsp.Stream

/-!
# What a stopped server has forgotten

`stopLocked` is one routine for every state that `start` may have got to, and for every recovery
that may be in flight. Behind its last section the fields are those of a constructed server, except
for the counters; the worker's object and the local variables of the feeder are left over, but
nobody can read them any more.

## Main definitions

* `RtspState.blank`, `RtspServer.renewed` — a constructed server with the same counters
* `Vacated` — what is left at each point of an epoch
* `RtspServer.live` — the server without what nobody can read

## Main results

* `Vacated.reachable`
* `live_step`, `step_of_live` — what nobody can read makes no difference
* `live_of_stopped`, `start_of_stopped` — a stopped server is a constructed one, but for the
  counters
-/

namespace EggVision

open Transition RtspState

/-- A constructed server's fields, with the counters and the last time kept. -/
def RtspState.blank (s : RtspState) : RtspState where
  generation := s.generation
  mediaGeneration := s.mediaGeneration
  nextRecoveryToken := s.nextRecoveryToken
  statusSinceUs := s.statusSinceUs

/-- The watchdog is not attached yet, or not any more. -/
def Lifecycle.detached : Lifecycle → Bool
  | .stopped | .starting .publish | .starting .allocate | .starting .factory
  | .starting .recoveryWorker | .starting .listener | .starting .sessionCleanup
  | .starting .watchdog | .stopping (.waitJob _) | .stopping .stopWorker | .stopping .joinWorker
  | .stopping .disableCallbacks | .stopping .waitCallbacks | .stopping .retire
  | .stopping .release => true
  | .starting _ | .started | .stopping _ => false

/-- `stopLocked` has closed the queue. -/
def Lifecycle.drained : Lifecycle → Bool
  | .stopping .publish | .stopping .closeQueue => false
  | .stopping _ => true
  | .stopped | .starting _ | .started => false

/-- The owner is between two epochs. -/
def Lifecycle.between : Lifecycle → Bool
  | .stopped | .starting .publish => true
  | .starting _ | .started | .stopping _ => false

theorem Lifecycle.feederless_of_retired {phase : Lifecycle} (h : phase.retired = true) :
    phase.feederless = true := by
  unfold Lifecycle.retired at h
  split at h <;> first | rfl | cases h

theorem Lifecycle.retired_of_between {phase : Lifecycle} (h : phase.between = true) :
    phase.retired = true := by
  unfold Lifecycle.between at h
  split at h <;> first | rfl | cases h

namespace RtspServer

variable {t t' : RtspServer} {a : RtspAction} {fps : ℕ}

/-! ### What is left at each point of an epoch -/

/-- Only `start` attaches a watchdog, and only `start` or the end of a recovery lets clients in. -/
theorem sources_of_section {s : RtspState} {sec : Section} (hown : sec.byOwner = false)
    (hnone : s.watchdogSource = none ∧ s.acceptingClients = false)
    (hcalm : ¬ (s.running = true ∧ s.recoveryState = .completed)) :
    (sec.apply s).watchdogSource = none ∧ (sec.apply s).acceptingClients = false := by
  cases sec with
  | recoverMedia expected reason now id accepts =>
    simp only [Section.apply]
    rcases recoverMedia_cases expected reason now id accepts s with
      ⟨heq, -⟩ | ⟨-, -, heq⟩ | ⟨-, -, -, -, -, -, heq⟩ <;> rw [heq]
    · exact hnone
    · exact hnone
    · exact ⟨hnone.1, rfl⟩
  | configure factory media now =>
    simp only [Section.apply, RtspState.configure]
    split <;> exact hnone
  | failSetup media =>
    simp only [Section.apply, RtspState.failSetup]
    split <;> exact hnone
  | bind media source =>
    simp only [Section.apply, RtspState.bind]
    split
    · exact hnone
    · split <;> exact hnone
  | markPrepared media now =>
    simp only [Section.apply, RtspState.markPrepared]
    split <;> exact hnone
  | unprepare media now =>
    simp only [Section.apply, RtspState.unprepare]
    split
    · simp only
      split <;> exact hnone
    · exact hnone
  | targetState media toNull now =>
    simp only [Section.apply, RtspState.targetState]
    split <;> exact hnone
  | reportError media now =>
    simp only [Section.apply, RtspState.reportError]
    split <;> exact hnone
  | checkRecovery now done => exact hnone
  | resume listener done =>
    simp only [Section.apply, RtspState.resume]
    split
    · split
      next hresume =>
        simp only [mayResume, Bool.and_eq_true, decide_eq_true_eq] at hresume
        exact absurd ⟨hresume.1.1.1.1.1, hresume.1.1.1.1.2⟩ hcalm
      · exact hnone
    · split <;> exact hnone
  | failDispatch expected =>
    simp only [Section.apply, RtspState.failDispatch]
    split
    · exact hnone
    · split <;> exact hnone
  | recordPush mediaGeneration flow =>
    simp only [Section.apply, RtspState.recordPush]
    split
    · cases flow with
      | ok => exact hnone
      | flushing => exact hnone
      | error =>
        simp only
        split <;> exact hnone
    · exact hnone
  | _ => cases hown

/-- Only `start` attaches the watchdog. -/
theorem step_detached (hs : t.step a = some t') (howner : ∀ env, a ≠ .owner env)
    (hdetached : t.watchdogAttached = false) : t'.watchdogAttached = false := by
  cases a with
  | owner env => exact absurd rfl (howner env)
  | call call ok =>
    rcases callStep_cases hs with ⟨-, rfl | rfl | ⟨-, rfl⟩ | ⟨-, rfl⟩⟩ <;> exact hdetached
  | tick now => simp [RtspServer.step, hdetached] at hs
  | signal signal =>
    obtain ⟨-, rfl⟩ := step_signal hs
    exact hdetached
  | callback index env =>
    obtain ⟨_, _, _, _, rfl, -⟩ := step_callback hs
    exact hdetached
  | watchdog env =>
    obtain ⟨_, _, _, _, _, _, rfl, -⟩ := watchdogStep_frame hs
    exact hdetached
  | worker =>
    obtain ⟨_, rfl⟩ := step_worker hs
    exact hdetached
  | feeder env =>
    obtain ⟨_, _, _, _, rfl, -⟩ := feederStep_frame hs
    exact hdetached
  | submit unit =>
    obtain ⟨_, _, _, rfl⟩ := submitStep_frame hs
    exact hdetached
  | submitNext =>
    obtain ⟨_, _, _, _, rfl, -⟩ := submitNextStep_frame hs
    exact hdetached

theorem Spares.drained {latest : LatestFrameQueue Submitted} {lost : List (ℕ × Loss)}
    (h : t.Spares latest lost) (hclosed : latest.closed = t.latest.closed)
    (hdrained : t.latest = { value := none, closed := true }) :
    latest = { value := none, closed := true } := by
  obtain ⟨value, closed⟩ := latest
  rw [hdrained] at hclosed
  rcases h with ⟨hvalue, -⟩ | ⟨hvalue, -⟩
  · rw [hdrained] at hvalue
    exact congrArg₂ LatestFrameQueue.mk hvalue hclosed
  · exact congrArg₂ LatestFrameQueue.mk hvalue hclosed

/-- A closed queue stays empty. -/
theorem step_drained (hs : t.step a = some t') (hcall : ∀ call ok, a ≠ .call call ok)
    (howner : ∀ env, a ≠ .owner env) (hdrained : t.latest = { value := none, closed := true }) :
    t'.latest = { value := none, closed := true } := by
  cases a with
  | call call ok => exact absurd rfl (hcall call ok)
  | owner env => exact absurd rfl (howner env)
  | signal signal =>
    obtain ⟨-, rfl⟩ := step_signal hs
    exact hdrained
  | callback index env =>
    obtain ⟨_, _, _, _, rfl, -, hspares, hclosed⟩ := step_callback hs
    exact hspares.drained hclosed hdrained
  | tick now =>
    obtain ⟨-, -, _, _, rfl⟩ := step_tick hs
    exact hdrained
  | watchdog env =>
    obtain ⟨_, _, _, _, _, _, rfl, -, hspares, hclosed⟩ := watchdogStep_frame hs
    exact hspares.drained hclosed hdrained
  | worker =>
    obtain ⟨_, rfl⟩ := step_worker hs
    exact hdrained
  | feeder env =>
    simp only [RtspServer.step, feederStep] at hs
    cases hphase : t.feeder.phase with
    | absent => simp [hphase] at hs
    | exited => simp [hphase] at hs
    | popping =>
      simp only [hphase, hdrained, LatestFrameQueue.waitPop, if_true, Option.some.injEq] at hs
      rw [← hs]
    | popped submitted =>
      simp only [hphase] at hs
      split at hs <;> cases hs <;> exact hdrained
    | _ =>
      simp only [hphase, Option.some.injEq] at hs
      rw [← hs]
      exact hdrained
  | submit unit =>
    obtain ⟨_, _, _, rfl⟩ := submitStep_frame hs
    exact hdrained
  | submitNext =>
    simp only [RtspServer.step, submitNextStep] at hs
    split at hs
    · cases hs
    · split at hs <;> cases hs <;> exact hdrained
    · cases hs
      simp [LatestFrameQueue.push, hdrained]

/-- What `stopLocked` has taken away stays away until `start` comes to it again. -/
structure Vacated (t : RtspServer) : Prop where
  sources : t.lifecycle.listenerless = true →
    t.shared.watchdogSource = none ∧ t.shared.acceptingClients = false
  attached : t.lifecycle.detached = true → t.watchdogAttached = false
  queue : t.lifecycle.drained = true → t.latest = { value := none, closed := true }
  shared : t.lifecycle.retired = true → { t.shared with server := false } = t.shared.blank
  server : t.lifecycle.between = true → t.shared.server = false

theorem Vacated.initial (fps : ℕ) : Vacated (initial fps) where
  sources := fun _ => ⟨rfl, rfl⟩
  attached := fun _ => rfl
  queue := by rintro ⟨⟩
  shared := fun _ => rfl
  server := fun _ => rfl

theorem Vacated.callStep (h : Vacated t) (hepoch : EpochInv t) {call : OwnerCall} {ok : Bool}
    (hs : t.callStep call ok = some t') : Vacated t' := by
  obtain ⟨hphase, rfl | rfl | ⟨hrunning, rfl⟩ | ⟨hrunning, rfl⟩⟩ := callStep_cases hs
  · exact h
  · exact { h with }
  · have hstopped : t.lifecycle = .stopped := hphase.resolve_right fun hstarted => by
      rw [hepoch.running, hstarted] at hrunning
      cases hrunning
    exact {
      sources := fun _ => h.sources (by rw [hstopped]; rfl)
      attached := fun _ => h.attached (by rw [hstopped]; rfl)
      queue := by rintro ⟨⟩
      shared := fun _ => h.shared (by rw [hstopped]; rfl)
      server := fun _ => h.server (by rw [hstopped]; rfl) }
  · exact ⟨by rintro ⟨⟩, by rintro ⟨⟩, by rintro ⟨⟩, by rintro ⟨⟩, by rintro ⟨⟩⟩

/-- `start` goes on or fails, and `stopLocked` goes on before its last section. -/
theorem Vacated.onward (h : Vacated t)
    (hsources : t'.lifecycle.listenerless = true → t.lifecycle.listenerless = true ∧
      t'.shared.watchdogSource = t.shared.watchdogSource ∧
      t'.shared.acceptingClients = t.shared.acceptingClients)
    (hattached : t'.lifecycle.detached = true → t.lifecycle.detached = true ∧
      t'.watchdogAttached = t.watchdogAttached)
    (hqueue : t'.lifecycle.drained = true → t.lifecycle.drained = true ∧ t'.latest = t.latest)
    (hretired : t'.lifecycle.retired = false) (hbetween : t'.lifecycle.between = false) :
    Vacated t' where
  sources := fun hphase' => by
    obtain ⟨hbefore, hwatchdog, haccepting⟩ := hsources hphase'
    rw [hwatchdog, haccepting]
    exact h.sources hbefore
  attached := fun hphase' => by
    obtain ⟨hbefore, hsame⟩ := hattached hphase'
    rw [hsame]
    exact h.attached hbefore
  queue := fun hphase' => by
    obtain ⟨hbefore, hsame⟩ := hqueue hphase'
    rw [hsame]
    exact h.queue hbefore
  shared := fun hc => by
    rw [hretired] at hc
    cases hc
  server := fun hc => by
    rw [hbetween] at hc
    cases hc

theorem Vacated.startStep (h : Vacated t) {stage : StartStage}
    (hphase : t.lifecycle = .starting stage) (env : OwnerEnv) :
    Vacated (t.startStep stage env) := by
  obtain ⟨ok, id, now, counted⟩ := env
  have hbefore : stage = .publish ∨ stage = .allocate ∨ stage = .factory ∨
      stage = .recoveryWorker → t.lifecycle.listenerless = true ∧ t.lifecycle.detached = true := by
    rw [hphase]
    rintro (rfl | rfl | rfl | rfl) <;> exact ⟨rfl, rfl⟩
  cases stage with
  | publish =>
    exact {
      sources := fun _ => ⟨rfl, rfl⟩
      attached := fun _ => h.attached (hbefore (by simp)).2
      queue := by rintro ⟨⟩
      shared := by rintro ⟨⟩
      server := by rintro ⟨⟩ }
  | allocate =>
    have hb := hbefore (by simp)
    cases ok <;>
      exact h.onward (fun _ => ⟨hb.1, rfl, rfl⟩) (fun _ => ⟨hb.2, rfl⟩) (by rintro ⟨⟩) rfl rfl
  | factory =>
    have hb := hbefore (by simp)
    have hsame : (t.shared.publishFactory id).1.watchdogSource = t.shared.watchdogSource ∧
        (t.shared.publishFactory id).1.acceptingClients = t.shared.acceptingClients := by
      unfold publishFactory
      split <;> exact ⟨rfl, rfl⟩
    cases ok with
    | false => exact h.onward (by rintro ⟨⟩) (by rintro ⟨⟩) (by rintro ⟨⟩) rfl rfl
    | true =>
      simp only [RtspServer.startStep, Bool.not_true, Bool.false_eq_true, if_false]
      split
      · exact h.onward (fun _ => ⟨hb.1, hsame⟩) (fun _ => ⟨hb.2, rfl⟩) (by rintro ⟨⟩) rfl rfl
      · exact h.onward (by rintro ⟨⟩) (by rintro ⟨⟩) (by rintro ⟨⟩) rfl rfl
  | recoveryWorker =>
    have hb := hbefore (by simp)
    cases ok <;>
      exact h.onward (fun _ => ⟨hb.1, rfl, rfl⟩) (fun _ => ⟨hb.2, rfl⟩) (by rintro ⟨⟩) rfl rfl
  | listener =>
    have hb : t.lifecycle.detached = true := by rw [hphase]; rfl
    cases ok <;> exact h.onward (by rintro ⟨⟩) (fun _ => ⟨hb, rfl⟩) (by rintro ⟨⟩) rfl rfl
  | sessionCleanup =>
    have hb : t.lifecycle.detached = true := by rw [hphase]; rfl
    cases ok <;> exact h.onward (by rintro ⟨⟩) (fun _ => ⟨hb, rfl⟩) (by rintro ⟨⟩) rfl rfl
  | publishWatchdog => exact h.onward (by rintro ⟨⟩) (by rintro ⟨⟩) (by rintro ⟨⟩) rfl rfl
  | _ => cases ok <;> exact h.onward (by rintro ⟨⟩) (by rintro ⟨⟩) (by rintro ⟨⟩) rfl rfl

/-- Past `destroySources`, what the owner has taken away stays as it is up to its last section. -/
theorem Vacated.kept (h : Vacated t) {stage : StopStage} (hphase : t.lifecycle = .stopping stage)
    (hstage : (Lifecycle.stopping stage).listenerless = true ∧
      (Lifecycle.stopping stage).detached = true ∧ (Lifecycle.stopping stage).drained = true)
    (hwatchdog : t'.shared.watchdogSource = t.shared.watchdogSource)
    (haccepting : t'.shared.acceptingClients = t.shared.acceptingClients)
    (hattached : t'.watchdogAttached = t.watchdogAttached) (hqueue : t'.latest = t.latest)
    (hretired : t'.lifecycle.retired = false) (hbetween : t'.lifecycle.between = false) :
    Vacated t' := by
  rw [← hphase] at hstage
  obtain ⟨hlistenerless, hdetached, hdrained⟩ := hstage
  exact h.onward (fun _ => ⟨hlistenerless, hwatchdog, haccepting⟩)
    (fun _ => ⟨hdetached, hattached⟩) (fun _ => ⟨hdrained, hqueue⟩) hretired hbetween

theorem Vacated.stopStep (h : Vacated t) (hepoch : EpochInv t) (hjobs : JobInv t)
    (hvacant : VacantInv t) {stage : StopStage} (hphase : t.lifecycle = .stopping stage)
    {env : OwnerEnv} (hs : t.stopStep stage env = some t') : Vacated t' := by
  cases stage with
  | publish =>
    have hrunning : t.shared.running = true := by rw [hepoch.running, hphase]; rfl
    simp only [RtspServer.stopStep, publishStop, hrunning] at hs
    cases hs
    exact h.onward (by rintro ⟨⟩) (by rintro ⟨⟩) (by rintro ⟨⟩) rfl rfl
  | closeQueue =>
    cases hs
    exact ⟨by rintro ⟨⟩, by rintro ⟨⟩, fun _ => rfl, by rintro ⟨⟩, by rintro ⟨⟩⟩
  | joinFeeder =>
    have hqueue : t.lifecycle.drained = true := by rw [hphase]; rfl
    simp only [RtspServer.stopStep] at hs
    split at hs <;> cases hs
    exact h.onward (by rintro ⟨⟩) (by rintro ⟨⟩) (fun _ => ⟨hqueue, rfl⟩) rfl rfl
  | takeSources =>
    have hqueue := h.queue (by rw [hphase]; rfl)
    cases hs
    exact ⟨fun _ => ⟨rfl, rfl⟩, by rintro ⟨⟩, fun _ => hqueue, by rintro ⟨⟩, by rintro ⟨⟩⟩
  | destroySources waitFor =>
    have hsources := h.sources (by rw [hphase]; rfl)
    have hqueue := h.queue (by rw [hphase]; rfl)
    cases hs
    exact ⟨fun _ => hsources, fun _ => rfl, fun _ => hqueue, by rintro ⟨⟩, by rintro ⟨⟩⟩
  | waitJob waitFor =>
    simp only [RtspServer.stopStep] at hs
    split at hs
    · cases hs
      exact h.kept hphase ⟨rfl, rfl, rfl⟩ rfl rfl rfl rfl rfl rfl
    · split at hs <;> cases hs
      refine h.kept hphase ⟨rfl, rfl, rfl⟩ rfl rfl rfl rfl ?_ ?_ <;> (simp only [hphase]; rfl)
  | retire =>
    have hrunning : t.shared.running = false := by rw [hepoch.running, hphase]; rfl
    have hworker := hjobs.parted (by rw [hphase]; rfl)
    have hlistener := hvacant.listener (by rw [hphase]; rfl)
    have hsources := h.sources (by rw [hphase]; rfl)
    have hattached := h.attached (by rw [hphase]; rfl)
    have hqueue := h.queue (by rw [hphase]; rfl)
    cases hs
    refine ⟨fun _ => hsources, fun _ => hattached, fun _ => hqueue, fun _ => ?_, by rintro ⟨⟩⟩
    simp [RtspState.retireAll, resetRecovery, RtspState.blank, hrunning, hworker, hlistener,
      hsources.1, hsources.2]
  | release =>
    have hsources := h.sources (by rw [hphase]; rfl)
    have hattached := h.attached (by rw [hphase]; rfl)
    have hshared := h.shared (by rw [hphase]; rfl)
    cases hs
    exact ⟨fun _ => hsources, fun _ => hattached, by rintro ⟨⟩, fun _ => hshared, fun _ => rfl⟩
  | joinWorker =>
    simp only [RtspServer.stopStep] at hs
    split at hs <;> cases hs
    exact h.kept hphase ⟨rfl, rfl, rfl⟩ rfl rfl rfl rfl rfl rfl
  | waitCallbacks =>
    simp only [RtspServer.stopStep] at hs
    split at hs <;> cases hs
    exact h.kept hphase ⟨rfl, rfl, rfl⟩ rfl rfl rfl rfl rfl rfl
  | _ =>
    cases hs
    exact h.kept hphase ⟨rfl, rfl, rfl⟩ rfl rfl rfl rfl rfl rfl

/-- What the owner has taken away, the other threads do not bring back. -/
theorem Vacated.step (h : Vacated t) (hepoch : EpochInv t) (hjobs : JobInv t)
    (hvacant : VacantInv t) (hfeed : FeedInv t) (hs : t.step a = some t') : Vacated t' := by
  by_cases hcall : ∃ call ok, a = .call call ok
  · obtain ⟨call, ok, rfl⟩ := hcall
    exact h.callStep hepoch hs
  by_cases howner : ∃ env, a = .owner env
  · obtain ⟨env, rfl⟩ := howner
    rcases step_owner hs with ⟨stage, hphase, rfl⟩ | ⟨stage, hphase, hs⟩
    · exact h.startStep hphase env
    · exact h.stopStep hepoch hjobs hvacant hphase hs
  have hlifecycle := (step_epoch hs (by simpa using hcall) (by simpa using howner)).1
  have hsection : ∀ sec, t.entered a = some sec → sec.byOwner = false := fun sec hsec =>
    Bool.eq_false_iff.mpr fun hown => howner (entered_byOwner hsec hown)
  -- between two epochs nobody enters a section
  have hshared : t.lifecycle.retired = true → t'.shared = t.shared := by
    intro hretired
    rw [step_shared hs]
    cases hsec : t.entered a with
    | none => rfl
    | some sec =>
      obtain ⟨hcallbacks, hwatchdog⟩ := hepoch.sealed (Lifecycle.sealed_of_retired hretired)
      rcases entered_sealed hcallbacks hwatchdog hsec with hown | ⟨mediaGeneration, flow, rfl⟩
      · exact absurd hown (by simp [hsection sec hsec])
      · obtain ⟨-, hrecording⟩ := entered_recordPush hsec
        rw [hfeed.absent (Lifecycle.feederless_of_retired hretired)] at hrecording
        cases hrecording
  constructor
  · rw [hlifecycle, step_shared hs]
    intro hphase
    cases hsec : t.entered a with
    | none => exact h.sources hphase
    | some sec =>
      refine sources_of_section (hsection sec hsec) (h.sources hphase) ?_
      rintro ⟨hrunning, hcompleted⟩
      rcases Lifecycle.listenerless_cases hphase with hstopped | hquiet
      · rw [hepoch.running, hstopped] at hrunning
        cases hrunning
      · exact (hepoch.quiet hquiet).2 (Or.inr hcompleted)
  · rw [hlifecycle]
    exact fun hphase => step_detached hs (by simpa using howner) (h.attached hphase)
  · rw [hlifecycle]
    exact fun hphase => step_drained hs (by simpa using hcall) (by simpa using howner)
      (h.queue hphase)
  · rw [hlifecycle]
    intro hretired
    rw [hshared hretired]
    exact h.shared hretired
  · rw [hlifecycle]
    intro hbetween
    rw [hshared (Lifecycle.retired_of_between hbetween)]
    exact h.server hbetween

theorem Vacated.reachable (h : Reachable RtspServer.step (RtspServer.initial fps) t) :
    Vacated t := by
  suffices h' : EpochInv t ∧ JobInv t ∧ VacantInv t ∧ FeedInv t ∧ Vacated t from h'.2.2.2.2
  refine h.invariant (fun t => EpochInv t ∧ JobInv t ∧ VacantInv t ∧ FeedInv t ∧ Vacated t)
    ⟨.initial fps, .initial fps, ⟨fun _ => rfl, fun _ => rfl⟩, .reachable .refl, .initial fps⟩ ?_
  rintro t a t' ⟨hepoch, hjobs, hvacant, hfeed, hvacated⟩ hs
  exact ⟨hepoch.step hs, hjobs.step hepoch hs, hvacant.step hepoch hs, hfeed.step hepoch hs,
    hvacated.step hepoch hjobs hvacant hfeed hs⟩

end RtspServer

/-! ### What nobody can read -/

/-- The local variables of a feeder that has not begun, or does not run, are not there. -/
def Feeder.live (f : Feeder) : Feeder :=
  if f.phase = .absent ∨ f.phase = .starting then { phase := f.phase, log := f.log } else f

/-- A worker that was joined has left its object behind. -/
def RecoveryWorker.live (w : RecoveryWorker) : RecoveryWorker :=
  if w.thread = .absent then { w with stopping := false } else w

@[simp] theorem Feeder.live_phase (f : Feeder) : f.live.phase = f.phase := by
  unfold Feeder.live
  split <;> rfl

@[simp] theorem Feeder.live_live (f : Feeder) : f.live.live = f.live := by
  unfold Feeder.live
  split <;> rfl

@[simp] theorem RecoveryWorker.live_thread (w : RecoveryWorker) : w.live.thread = w.thread := by
  unfold RecoveryWorker.live
  split <;> rfl

@[simp] theorem RecoveryWorker.live_pending (w : RecoveryWorker) :
    w.live.pending = w.pending := by
  unfold RecoveryWorker.live
  split <;> rfl

@[simp] theorem RecoveryWorker.live_done (w : RecoveryWorker) : w.live.done = w.done := by
  unfold RecoveryWorker.live
  split <;> rfl

@[simp] theorem RecoveryWorker.live_isDone (w : RecoveryWorker) : w.live.isDone = w.isDone := by
  unfold RecoveryWorker.isDone
  rw [live_done]

@[simp] theorem RecoveryWorker.live_live (w : RecoveryWorker) : w.live.live = w.live := by
  unfold RecoveryWorker.live
  split <;> rfl

theorem Feeder.live_of_running {f : Feeder} (h : f.phase ≠ .absent ∧ f.phase ≠ .starting) :
    f.live = f := by
  unfold Feeder.live
  rw [if_neg (by simpa using h)]

theorem RecoveryWorker.live_of_alive {w : RecoveryWorker} (h : w.thread ≠ .absent) :
    w.live = w := by
  unfold RecoveryWorker.live
  rw [if_neg h]

theorem Feeder.begin_live (f : Feeder) (generation : ℕ) :
    f.live.begin generation = f.begin generation := by
  unfold Feeder.live
  split <;> rfl

/-- A feeder that is created or joined has no local variables. -/
theorem Feeder.live_setPhase (f : Feeder) {phase : FeederPhase}
    (hphase : phase = .absent ∨ phase = .starting) :
    ({ f.live with phase } : Feeder).live = ({ f with phase } : Feeder).live := by
  have hlog : f.live.log = f.log := by
    unfold Feeder.live
    split <;> rfl
  unfold Feeder.live at hlog ⊢
  rw [if_pos hphase, if_pos hphase, hlog]

theorem RecoveryWorker.live_joined (w : RecoveryWorker) :
    ({ w.live with thread := .absent } : RecoveryWorker).live =
      ({ w with thread := .absent } : RecoveryWorker).live := by
  unfold RecoveryWorker.live
  split <;> rfl

theorem RecoveryWorker.live_setPending (w : RecoveryWorker) (pending : Option RecoveryJob) :
    ({ w with pending } : RecoveryWorker).live = { w.live with pending } := by
  unfold RecoveryWorker.live
  split <;> rfl

namespace RtspServer

variable {t t' u : RtspServer} {a : RtspAction} {fps : ℕ}

/-- The server without what nobody can read. -/
def live (t : RtspServer) : RtspServer :=
  { t with feeder := t.feeder.live, worker := t.worker.live }

/-- A constructed server with the counters of another, beside the same encoder. -/
def renewed (t : RtspServer) : RtspServer :=
  { initial t.fps with
    shared := t.shared.blank
    metrics := t.metrics
    worker := { done := t.worker.done }
    nextJob := t.nextJob
    feeder := { log := t.feeder.log }
    submitter := t.submitter
    submissions := t.submissions
    lost := t.lost }

/-- The step does not see what nobody can read. -/
def Overlooks (t : RtspServer) (a : RtspAction) : Prop :=
  (t.live.step a).map live = (t.step a).map live

@[simp] theorem live_live (t : RtspServer) : t.live.live = t.live := by simp [live]

theorem Overlooks.of_map (h : t.live.step a = (t.step a).map live) : t.Overlooks a := by
  unfold Overlooks
  rw [h, Option.map_map]
  congr 1
  funext t'
  exact t'.live_live

theorem overlooks_call (call : OwnerCall) (ok : Bool) : t.Overlooks (.call call ok) := by
  refine .of_map ?_
  cases hphase : t.lifecycle <;> cases call <;> cases hrunning : t.shared.running <;> cases ok <;>
    simp [step, callStep, live, hphase, hrunning] <;> rfl

theorem overlooks_signal (signal : MediaSignal) : t.Overlooks (.signal signal) := by
  refine .of_map ?_
  cases hopen : t.callbacksOpen <;> simp [step, live, hopen]

theorem overlooks_callback (index : ℕ) (env : CallbackEnv) : t.Overlooks (.callback index env) := by
  refine .of_map ?_
  simp only [step, live]
  cases t.callbacks[index]? with
  | none => rfl
  | some task =>
    obtain ⟨source, now⟩ := env
    cases task with
    | bind media after => cases source <;> rfl
    | handleMessage media isError => cases isError <;> rfl
    | _ => rfl

theorem overlooks_tick (now : ℤ) : t.Overlooks (.tick now) := by
  refine .of_map ?_
  by_cases hticks : (t.loop && t.watchdogAttached && t.callbacksOpen &&
      decide (t.watchdog = .idle)) = true
  · have hlive : (t.live.loop && t.live.watchdogAttached && t.live.callbacksOpen &&
      decide (t.live.watchdog = .idle)) = true := hticks
    simp only [step]
    rw [if_pos hticks, if_pos hlive]
    cases hrunning : t.shared.running <;> simp [live, hrunning]
  · have hlive : ¬ (t.live.loop && t.live.watchdogAttached && t.live.callbacksOpen &&
      decide (t.live.watchdog = .idle)) = true := hticks
    simp only [step]
    rw [if_neg hticks, if_neg hlive]
    rfl

theorem overlooks_submit (unit : Option EncodedAccessUnit) : t.Overlooks (.submit unit) := by
  refine .of_map ?_
  cases hphase : t.submitter <;> cases unit <;> cases hrunning : t.shared.running <;>
    simp [step, submitStep, live, hphase, hrunning]

theorem overlooks_submitNext : t.Overlooks .submitNext := by
  refine .of_map ?_
  cases hphase : t.submitter <;> cases hsource : t.shared.appsrc <;>
    simp [step, submitNextStep, live, hphase, hsource, queued]

theorem overlooks_worker : t.Overlooks .worker := by
  by_cases hthread : t.worker.thread = .absent
  · have hnone : t.worker.step = none ∧ t.worker.live.step = none := by
      simp [RecoveryWorker.step, hthread]
    simp [Overlooks, step, live, hnone]
  · simp [Overlooks, step, live, RecoveryWorker.live_of_alive hthread, Function.comp_def]

theorem overlooks_feeder (env : FeederEnv) : t.Overlooks (.feeder env) := by
  cases hphase : t.feeder.phase with
  | absent => simp [Overlooks, step, feederStep, live, hphase]
  | starting =>
    simp [Overlooks, step, feederStep, live, hphase, Feeder.begin_live]
  | popping =>
    have hrunning := Feeder.live_of_running (f := t.feeder) (by simp [hphase])
    cases hpop : t.latest.waitPop <;>
      simp [Overlooks, step, feederStep, live, hrunning, hphase, hpop]
  | popped submitted =>
    have hrunning := Feeder.live_of_running (f := t.feeder) (by simp [hphase])
    cases hsource : t.shared.appsrc <;>
      simp [Overlooks, step, feederStep, live, hrunning, hphase, hsource]
  | _ =>
    have hrunning := Feeder.live_of_running (f := t.feeder) (by simp [hphase])
    simp [Overlooks, step, feederStep, live, hrunning, hphase]

theorem overlooks_start {stage : StartStage} (hphase : t.lifecycle = .starting stage)
    (env : OwnerEnv) : t.Overlooks (.owner env) := by
  obtain ⟨ok, id, now, counted⟩ := env
  cases stage with
  | factory =>
    cases ok <;> cases hinstalled : (t.shared.publishFactory id).2 <;>
      simp [Overlooks, step, ownerStep, startStep, live, hphase, hinstalled]
  | feeder =>
    cases ok <;> simp [Overlooks, step, ownerStep, startStep, live, hphase, Feeder.live_setPhase]
  | recoveryWorker =>
    cases ok <;> simp [Overlooks, step, ownerStep, startStep, live, hphase]
  | _ =>
    cases ok <;> simp [Overlooks, step, ownerStep, startStep, live, hphase]

theorem overlooks_stop {stage : StopStage} (hphase : t.lifecycle = .stopping stage)
    (env : OwnerEnv) : t.Overlooks (.owner env) := by
  cases stage with
  | publish =>
    cases hrunning : t.shared.publishStop.2 <;>
      simp [Overlooks, step, ownerStep, stopStep, live, hphase, hrunning]
  | joinFeeder =>
    by_cases hdone : t.feeder.phase = .exited ∨ t.feeder.phase = .absent
    · simp [Overlooks, step, ownerStep, stopStep, live, hphase, hdone, Feeder.live_setPhase]
    · simp [Overlooks, step, ownerStep, stopStep, live, hphase, hdone]
  | waitJob waitFor =>
    cases hdone : waitFor.all fun job => t.worker.isDone job.id <;> cases hok : env.ok <;>
      simp [Overlooks, step, ownerStep, stopStep, live, hphase, hdone, hok]
  | stopWorker =>
    cases hworker : t.shared.recoveryWorker <;>
      simp [Overlooks, step, ownerStep, stopStep, live, hphase, hworker]
  | joinWorker =>
    by_cases hdone : t.worker.thread = .exited ∨ t.worker.thread = .absent
    · simpa [Overlooks, step, ownerStep, stopStep, live, hphase, hdone] using
        t.worker.live_joined
    · simp [Overlooks, step, ownerStep, stopStep, live, hphase, hdone]
  | waitCallbacks =>
    by_cases hempty : t.callbacks = [] ∧ t.watchdog = .idle
    · simp [Overlooks, step, ownerStep, stopStep, live, hphase, hempty]
    · simp [Overlooks, step, ownerStep, stopStep, live, hphase, hempty]
  | _ => simp [Overlooks, step, ownerStep, stopStep, live, hphase, queued]

theorem overlooks_watchdog (hworker : t.shared.recoveryWorker = true → t.worker.thread ≠ .absent)
    (env : WatchdogEnv) : t.Overlooks (.watchdog env) := by
  refine .of_map ?_
  cases hphase : t.watchdog with
  | idle => simp [step, watchdogStep, live, hphase]
  | finishing now => simp [step, watchdogStep, live, hphase]
  | resuming now => simp [step, watchdogStep, live, hphase]
  | viewing now => simp [step, watchdogStep, live, hphase]
  | failing expected => simp [step, watchdogStep, live, hphase]
  | dispatched => simp [step, watchdogStep, live, hphase, clearLatest, queued]
  | recovering expected reason =>
    cases hthrows : env.throws with
    | true => simp [step, watchdogStep, live, hphase, hthrows]
    | false =>
      have hsame : t.shared.recoverMedia expected reason env.now t.nextJob t.worker.live.accepts =
          t.shared.recoverMedia expected reason env.now t.nextJob t.worker.accepts := by
        cases hrecovery : t.shared.recoveryWorker with
        | true => rw [RecoveryWorker.live_of_alive (hworker hrecovery)]
        | false => simp [RtspState.recoverMedia, hrecovery]
      rcases hr : t.shared.recoverMedia expected reason env.now t.nextJob t.worker.accepts with
        ⟨shared, _ | ⟨job, listener⟩ | what⟩
      · simp [step, watchdogStep, live, hphase, hthrows, hsame, hr]
      · simp [step, watchdogStep, live, hphase, hthrows, hsame, hr,
          RecoveryWorker.live_setPending]
      · simp [step, watchdogStep, live, hphase, hthrows, hsame, hr]

/-- **What nobody can read makes no difference.** -/
theorem live_step (hworker : t.shared.recoveryWorker = true → t.worker.thread ≠ .absent)
    (a : RtspAction) : (t.live.step a).map live = (t.step a).map live := by
  cases a with
  | call call ok => exact overlooks_call call ok
  | owner env =>
    cases hphase : t.lifecycle with
    | starting stage => exact overlooks_start hphase env
    | stopping stage => exact overlooks_stop hphase env
    | _ => simp [step, ownerStep, live, hphase]
  | signal signal => exact overlooks_signal signal
  | callback index env => exact overlooks_callback index env
  | tick now => exact overlooks_tick now
  | watchdog env => exact overlooks_watchdog hworker env
  | worker => exact overlooks_worker
  | feeder env => exact overlooks_feeder env
  | submit unit => exact overlooks_submit unit
  | submitNext => exact overlooks_submitNext

/-- Two servers that differ in nothing anybody can read take the same steps. -/
theorem step_of_live (hworker : t.shared.recoveryWorker = true → t.worker.thread ≠ .absent)
    (heq : t.live = u.live) (a : RtspAction) : (t.step a).map live = (u.step a).map live := by
  have hshared : t.live.shared = u.live.shared := by rw [heq]
  have hthread : t.live.worker.thread = u.live.worker.thread := by rw [heq]
  simp only [live, RecoveryWorker.live_thread] at hshared hthread
  rw [← live_step hworker, heq, live_step]
  rw [← hshared, ← hthread]
  exact hworker

/-- The fields of a stopped server are those of a constructed one. -/
theorem blank_of_stopped (hr : Reachable RtspServer.step (initial fps) t)
    (hstopped : t.lifecycle = .stopped) : t.shared = t.shared.blank := by
  have hvacated := Vacated.reachable hr
  have hserver := hvacated.server (by rw [hstopped]; rfl)
  have hblank := hvacated.shared (by rw [hstopped]; rfl)
  rw [← hblank, ← hserver]

/-- A stopped server is a constructed one, but for the counters and the closed queue. -/
theorem live_of_stopped (hr : Reachable RtspServer.step (initial fps) t)
    (hstopped : t.lifecycle = .stopped) : { t with latest := {} }.live = t.renewed := by
  have hepoch := EpochInv.reachable hr
  have hvacated := Vacated.reachable hr
  have hjobs := JobInv.reachable hr
  obtain ⟨hcallbacks, hwatchdog⟩ := hepoch.sealed (by rw [hstopped]; rfl)
  have hopen := hepoch.closed (by rw [hstopped]; rfl)
  have hloop := hepoch.loop (by rw [hstopped]; rfl) (by rw [hstopped]; rintro ⟨⟩)
  have hattached := hvacated.attached (by rw [hstopped]; rfl)
  have hthread := hjobs.joined (by rw [hstopped]; rfl)
  have hpending := hjobs.idle (by rw [RecoveryWorker.alive, hthread])
  have hfeeder := (FeedInv.reachable hr).absent (by rw [hstopped]; rfl)
  have hshared := blank_of_stopped hr hstopped
  simp only [live, renewed, initial, Feeder.live, RecoveryWorker.live, hfeeder, hthread, if_true,
    true_or, hcallbacks, hwatchdog, hopen, hloop, hattached, hpending, hstopped, ← hshared]

/-- `start` goes on, fails, or is over. -/
theorem startStep_lifecycle (stage : StartStage) (env : OwnerEnv) (t : RtspServer) :
    (t.startStep stage env).lifecycle ≠ .stopped := by
  obtain ⟨ok, id, now, counted⟩ := env
  cases stage with
  | publish => rintro ⟨⟩
  | factory =>
    cases ok <;> cases hinstalled : (t.shared.publishFactory id).2 <;>
      simp [startStep, hinstalled]
  | publishWatchdog => rintro ⟨⟩
  | _ => cases ok <;> rintro ⟨⟩

/-- An epoch ends with the last section of `stopLocked`. -/
theorem release_of_stopped (hepoch : EpochInv t) (hs : t.step a = some t')
    (hstopped : t'.lifecycle = .stopped) :
    t.lifecycle = .stopped ∨ t.lifecycle = .stopping .release := by
  by_cases hcall : ∃ call ok, a = .call call ok
  · obtain ⟨call, ok, rfl⟩ := hcall
    rcases callStep_cases hs with ⟨-, rfl | rfl | ⟨-, rfl⟩ | ⟨-, rfl⟩⟩
    · exact Or.inl hstopped
    · exact Or.inl hstopped
    · cases hstopped
    · cases hstopped
  by_cases howner : ∃ env, a = .owner env
  · obtain ⟨env, rfl⟩ := howner
    rcases step_owner hs with ⟨stage, hphase, rfl⟩ | ⟨stage, hphase, hs⟩
    · exact absurd hstopped (startStep_lifecycle stage env t)
    cases stage with
    | publish =>
      have hrunning : t.shared.running = true := by rw [hepoch.running, hphase]; rfl
      simp only [stopStep, publishStop, hrunning] at hs
      cases hs
      cases hstopped
    | waitJob waitFor =>
      simp only [stopStep] at hs
      split at hs
      · cases hs
        cases hstopped
      · split at hs <;> cases hs
        rw [hphase] at hstopped
        cases hstopped
    | joinFeeder =>
      simp only [stopStep] at hs
      split at hs <;> cases hs
      cases hstopped
    | joinWorker =>
      simp only [stopStep] at hs
      split at hs <;> cases hs
      cases hstopped
    | waitCallbacks =>
      simp only [stopStep] at hs
      split at hs <;> cases hs
      cases hstopped
    | release => exact Or.inr hphase
    | _ =>
      cases hs
      cases hstopped
  · rw [(step_epoch hs (by simpa using hcall) (by simpa using howner)).1] at hstopped
    exact Or.inl hstopped

/-- Once an epoch has ended, the queue is closed and empty whenever the server is stopped. -/
theorem queue_of_stopped (hr : Reachable RtspServer.step (initial fps) t)
    (hbefore : t.lifecycle = .stopped → t.latest = { value := none, closed := true })
    (hs : t.step a = some t') (hstopped : t'.lifecycle = .stopped) :
    t'.latest = { value := none, closed := true } := by
  have hepoch := EpochInv.reachable hr
  rcases release_of_stopped hepoch hs hstopped with hphase | hphase
  · have hqueue := hbefore hphase
    by_cases hcall : ∃ call ok, a = .call call ok
    · obtain ⟨call, ok, rfl⟩ := hcall
      rcases callStep_cases hs with ⟨-, rfl | rfl | ⟨-, rfl⟩ | ⟨-, rfl⟩⟩
      · exact hqueue
      · exact hqueue
      · cases hstopped
      · cases hstopped
    by_cases howner : ∃ env, a = .owner env
    · obtain ⟨env, rfl⟩ := howner
      simp [step, ownerStep, hphase] at hs
    · exact step_drained hs (by simpa using hcall) (by simpa using howner) hqueue
  · have hqueue := (Vacated.reachable hr).queue (by rw [hphase]; rfl)
    by_cases howner : ∃ env, a = .owner env
    · obtain ⟨env, rfl⟩ := howner
      simp only [step, ownerStep, hphase, stopStep, Option.some.injEq] at hs
      subst hs
      exact hqueue
    by_cases hcall : ∃ call ok, a = .call call ok
    · obtain ⟨call, ok, rfl⟩ := hcall
      obtain ⟨hc | hc, -⟩ := callStep_cases hs <;> rw [hphase] at hc <;> cases hc
    · exact step_drained hs (by simpa using hcall) (by simpa using howner) hqueue

/-- A `start` brings the stopped server where it brings a constructed one. -/
theorem start_of_stopped (hr : Reachable RtspServer.step (initial fps) t)
    (hstopped : t.lifecycle = .stopped)
    (hqueue : t.latest = { value := none, closed := true }) :
    (t.step (.call .start true)).map live = (t.renewed.step (.call .start true)).map live := by
  have hrunning : t.shared.running = false := by
    rw [(EpochInv.reachable hr).running, hstopped]
    rfl
  have hrenewed := live_of_stopped hr hstopped
  rw [← hrenewed]
  simp [step, callStep, live, hstopped, hrunning, queued, hqueue, LatestFrameQueue.reopen]

/-- A worker that is registered has a thread. -/
theorem worker_of_reachable (hr : Reachable RtspServer.step (initial fps) t)
    (hworker : t.shared.recoveryWorker = true) : t.worker.thread ≠ .absent := by
  have halive := ((JobInv.reachable hr).working hworker).1
  intro habsent
  rw [RecoveryWorker.alive, habsent] at halive
  cases halive

end RtspServer

end EggVision
