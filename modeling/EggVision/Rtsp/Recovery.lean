import EggVision.Rtsp.Epochs

/-!
# Recovery, over whole runs

A recovery closes the listener, tears the media down on the worker, and is finished by the watchdog
once the media has gone. The handlers that write the recovery fields in between run on other
threads, in any order.

## Main definitions

* `ListenerServed` — a closed listener has a recovery that will reopen it
* `overwritesRecovery` — the steps that forget such a recovery

## Main results

* `recovery_fields` — the recovery invariant holds between any two critical sections
* `listenerServed_run_iff` — when the listener is never stranded
-/

namespace EggVision

open Transition RtspState

namespace RtspServer

variable {t t' : RtspServer} {a : RtspAction} {fps : ℕ}

/-! ### The recovery fields -/

theorem recoveryInv_of_reachable (h : Reachable step (initial fps) t) : RecoveryInv t.shared := by
  suffices h' : EpochInv t ∧ RecoveryInv t.shared from h'.2
  refine h.invariant (fun t => EpochInv t ∧ RecoveryInv t.shared) ⟨.initial fps, ?_⟩ ?_
  · constructor <;> simp [initial]
  · rintro t a t' ⟨hepoch, hinv⟩ hs
    refine ⟨hepoch.step hs, ?_⟩
    rw [step_shared hs]
    cases hsec : t.entered a with
    | none => exact hinv
    | some sec =>
      refine hinv.apply sec ?_
      rintro listener rfl
      exact (hepoch.quiet (by rw [entered_publishListener hsec]; rfl)).2

/-- **The recovery fields hang together between any two critical sections, whatever the threads
do.** -/
theorem recovery_fields (h : Reachable step (initial fps) t) :
    let s := t.shared
    ((s.recoveryState = .idle ↔ s.recoveryToken = 0) ∧
        (s.recoveryState = .idle ↔ s.recoveryGeneration = 0)) ∧
      (s.recoveryState = .requested →
        s.currentMedia ≠ none ∧ s.recoveryGeneration = s.mediaGeneration) ∧
      (s.recoveryState = .running ∨ s.recoveryState = .completed →
        s.appsrc = none ∧ s.listenerSource = none ∧ s.acceptingClients = false) ∧
      (s.recoveryState = .running → s.recoveryMediaUnprepared = false →
        s.currentMedia ≠ none ∧ s.recoveryGeneration = s.mediaGeneration) ∧
      (s.recoveryState = .running ∧ s.recoveryMediaUnprepared = true ∨
        s.recoveryState = .completed → s.currentMedia = none) ∧
      (s.appsrc ≠ none → s.currentMedia ≠ none) := by
  have hinv := recoveryInv_of_reachable h
  exact ⟨⟨hinv.token, hinv.generation⟩, hinv.requested, hinv.closed, hinv.tearing, hinv.gone,
    hinv.bound⟩

/-- The bus of the current media reports an error. -/
def reportMediaError (media : ℕ) : List RtspAction :=
  [.signal (.handleMessage media true), .callback 0 {}]

/-- A watchdog tick that finds a request, up to the dispatch. -/
def dispatchRecovery : List RtspAction := [.tick 0, .watchdog {}, .watchdog {}, .watchdog {}]

/-- The recovery that a media error sets off is for the media it came from. -/
theorem recovery_fields_dispatched :
    ∃ t, Reachable step (initial 30) t ∧ t.shared.recoveryState = .running ∧
      t.shared.currentMedia ≠ none ∧ t.shared.recoveryGeneration = t.shared.mediaGeneration := by
  obtain ⟨t, hr, hrunning, hmedia⟩ := exists_reachable step (initial 30)
    (startUp ++ configureMedia 10 20 ++ reportMediaError 10 ++ dispatchRecovery)
    (fun t => t.shared.recoveryState = .running ∧ t.shared.recoveryMediaUnprepared = false)
    (by decide)
  obtain ⟨-, -, -, htearing, -⟩ := recovery_fields hr
  exact ⟨t, hr, hrunning, htearing hrunning hmedia⟩

/-! ### Push failures of a media that is being recovered -/

/-- At most one push of the media was under way when its recovery began. -/
def FewFailures (t : RtspServer) : Prop :=
  t.shared.recoveryState = .running → t.shared.consecutivePushFailures + t.feeder.inFlight ≤ 1

theorem inFlight_le_one (f : Feeder) : f.inFlight ≤ 1 := by
  unfold Feeder.inFlight
  split <;> omega

theorem recordPush_failures (mediaGeneration : ℕ) (flow : FlowReturn) (s : RtspState) :
    (s.recordPush mediaGeneration flow).consecutivePushFailures ≤
      s.consecutivePushFailures + 1 := by
  unfold recordPush
  split
  · cases flow with
    | ok => exact Nat.zero_le _
    | flushing => exact Nat.zero_le _
    | error =>
      simp only
      split <;> exact Nat.le_refl _
  · exact Nat.le_succ _

theorem FewFailures.feederStep {env : FeederEnv} (h : FewFailures t)
    (hinv : RecoveryInv t.shared) (hs : t.feederStep env = some t') : FewFailures t' := by
  intro hrunning
  have hone := inFlight_le_one t'.feeder
  rcases feederStep_cases hs with ⟨-, hshared, heq⟩ | ⟨phase, -, hphase, hshared, heq⟩ |
      ⟨mediaGeneration, flow, hphase, hshared, heq⟩ | ⟨submitted, source, -, hsource, hshared, -⟩ |
      ⟨item, hphase, hshared, -⟩
  · rw [hshared] at hrunning ⊢
    have := h hrunning
    have : t'.feeder.inFlight = 0 := by rw [heq]; rfl
    omega
  · rw [hshared] at hrunning ⊢
    have := h hrunning
    have : t'.feeder.inFlight = 0 := by
      rw [heq]
      cases phase <;> first | rfl | cases hphase
    omega
  · rw [hshared] at hrunning ⊢
    have hbefore : t.shared.recoveryState = .running := by
      rcases recordPush_recovery mediaGeneration flow t.shared with hrequested | ⟨_, heq⟩
      · rw [hrequested] at hrunning
        cases hrunning
      · rwa [heq] at hrunning
    have := h hbefore
    have : t.feeder.inFlight = 1 := by simp [Feeder.inFlight, hphase]
    have : t'.feeder.inFlight = 0 := by rw [heq]; rfl
    have := recordPush_failures mediaGeneration flow t.shared
    omega
  · -- a media that is being recovered has no source to push to
    rw [hshared] at hrunning
    have hnone := (hinv.closed (Or.inl hrunning)).1
    rw [hsource] at hnone
    cases hnone
  · rw [hshared] at hrunning ⊢
    have := h hrunning
    have : t.feeder.inFlight = 1 := by simp [Feeder.inFlight, hphase]
    omega

theorem FewFailures.step (h : FewFailures t) (hinv : RecoveryInv t.shared)
    (hs : t.step a = some t') : FewFailures t' := by
  by_cases hfeeder : ∃ env, a = .feeder env
  · obtain ⟨env, rfl⟩ := hfeeder
    exact h.feederStep hinv hs
  · have hle : t'.feeder.inFlight ≤ t.feeder.inFlight := by
      rcases step_feeder hs (by simpa using hfeeder) with heq | ⟨-, -, heq⟩ | ⟨-, heq, -⟩ <;>
        simp [heq, Feeder.inFlight]
    have hone := inFlight_le_one t.feeder
    have hshared := step_shared hs
    intro hrunning
    cases hsec : t.entered a with
    | none =>
      simp only [hsec, enter] at hshared
      rw [hshared] at hrunning ⊢
      have := h hrunning
      omega
    | some sec =>
      simp only [hsec, enter] at hshared
      rw [hshared] at hrunning ⊢
      rcases Section.running_failures (fun mediaGeneration flow hpush =>
          hfeeder (entered_recordPush (hpush ▸ hsec)).1) hrunning with hzero | ⟨hbefore, hsame⟩
      · omega
      · have := h hbefore
        omega

theorem FewFailures.reachable (h : Reachable RtspServer.step (initial fps) t) : FewFailures t := by
  suffices h' : Reachable RtspServer.step (initial fps) t ∧ FewFailures t from h'.2
  refine h.invariant (fun t => Reachable RtspServer.step (initial fps) t ∧ FewFailures t)
    ⟨.refl, by simp [FewFailures, initial]⟩ ?_
  rintro t a t' ⟨hr, hfew⟩ hs
  exact ⟨hr.tail hs, hfew.step (recoveryInv_of_reachable hr) hs⟩

/-- A push result does not overwrite a recovery. -/
theorem recordPush_few (h : FewFailures t) {mediaGeneration : ℕ} {flow : FlowReturn}
    (hsec : t.entered a = some (.recordPush mediaGeneration flow))
    (hrunning : t.shared.recoveryState = .running) : t.shared.consecutivePushFailures = 0 := by
  have hone : t.feeder.inFlight = 1 := by
    simp [Feeder.inFlight, (entered_recordPush hsec).2]
  have := h hrunning
  omega

/-! ### The listener -/

/-- While the server is started, a closed listener has a recovery in progress that can reopen it:
one that runs or has completed, with its job. -/
def ListenerServed (t : RtspServer) : Prop :=
  t.lifecycle = .started →
    t.shared.listenerSource = none ∨ t.shared.acceptingClients = false →
      (t.shared.recoveryState = .running ∨ t.shared.recoveryState = .completed) ∧
        ∃ job, t.shared.recoveryJob = some job ∧ job.token = t.shared.recoveryToken

/-- The step overwrites a recovery that has closed the listener. -/
def overwritesRecovery (t : RtspServer) (a : RtspAction) : Bool :=
  match t.entered a with
  | some sec => sec.overwrites t.shared
  | none => false

theorem hasJob_of_reachable (h : Reachable step (initial fps) t) : HasJob t.shared := by
  refine h.invariant (fun t => HasJob t.shared) (by simp [HasJob, initial]) ?_
  intro t a t' hjob hs
  rw [step_shared hs]
  cases hsec : t.entered a with
  | none => exact hjob
  | some sec => exact hjob.apply sec

/-- With the jobs as they are, a started server is served in the one sense or in the other. -/
theorem listenerServed_iff (hjob : HasJob t.shared) (hstarted : t.lifecycle = .started) :
    ListenerServed t ↔ Served t.shared := by
  unfold ListenerServed Served HasJob at *
  cases hl : t.shared.listenerSource <;> cases ha : t.shared.acceptingClients <;>
    simp_all

theorem entered_givesUpListener {sec : Section} (h : t.entered a = some sec)
    (hsec : sec.givesUpListener = true) : ∃ env, a = .owner env :=
  entered_byOwner h (by cases sec <;> simp_all [Section.givesUpListener, Section.byOwner])

/-- The sections of the other threads keep clients served, unless they overwrite a recovery. -/
theorem served_step_iff (h : Reachable step (initial fps) t) (hs : t.step a = some t')
    (hserved : Served t.shared)
    (howner : ∀ sec, t.entered a = some sec → sec.givesUpListener = false) :
    Served t'.shared ↔ t.overwritesRecovery a = false := by
  unfold overwritesRecovery
  rw [step_shared hs]
  cases hsec : t.entered a with
  | none => simpa [enter] using hserved
  | some sec =>
    refine Served.apply_iff (recoveryInv_of_reachable h) hserved (howner sec hsec) ?_
    rintro mediaGeneration flow rfl hrunning
    exact recordPush_few (.reachable h) hsec hrunning

/-- Until the loop runs, the listener that `start` has opened stays open. -/
def Listening (t : RtspServer) : Prop :=
  t.lifecycle.listening = true → t.shared.listenerSource ≠ none ∧ t.shared.acceptingClients = true

theorem Listening.served {t : RtspServer} (h : Listening t)
    (hphase : t.lifecycle.listening = true) : Served t.shared :=
  Or.inl (h hphase)

theorem overwritesRecovery_eq_false
    (h : ¬ (t.shared.recoveryState = .running ∨ t.shared.recoveryState = .completed))
    (a : RtspAction) : t.overwritesRecovery a = false := by
  unfold overwritesRecovery
  cases hsec : t.entered a with
  | none => rfl
  | some sec => exact Bool.eq_false_iff.mpr fun hover => h (Section.recovering_of_overwrites hover)

/-- A step of `start` opens the listener, keeps it open, or is not yet there. -/
theorem Listening.startStep (h : Listening t) {stage : StartStage}
    (hphase : t.lifecycle = .starting stage) (env : OwnerEnv) :
    Listening (t.startStep stage env) := by
  obtain ⟨ok, id, now, counted⟩ := env
  cases stage with
  | publish => rintro ⟨⟩
  | allocate => cases ok <;> rintro ⟨⟩
  | factory =>
    intro hlistening
    simp only [RtspServer.startStep] at hlistening
    split at hlistening
    · cases hlistening
    · split at hlistening <;> cases hlistening
  | recoveryWorker => cases ok <;> rintro ⟨⟩
  | listener =>
    cases ok with
    | false => rintro ⟨⟩
    | true => exact fun _ => ⟨by rintro ⟨⟩, rfl⟩
  | publishWatchdog => exact fun _ => h (by rw [hphase]; rfl)
  | loop => cases ok <;> rintro ⟨⟩
  | _ =>
    cases ok with
    | false => rintro ⟨⟩
    | true => exact fun _ => h (by rw [hphase]; rfl)

theorem Listening.step (h : Listening t) (hr : Reachable RtspServer.step (initial fps) t)
    (hs : t.step a = some t') : Listening t' := by
  have hepoch := EpochInv.reachable hr
  by_cases hcall : ∃ call ok, a = .call call ok
  · obtain ⟨call, ok, rfl⟩ := hcall
    obtain ⟨-, rfl | rfl | ⟨-, rfl⟩ | ⟨-, rfl⟩⟩ := callStep_cases hs
    · exact h
    · exact h
    · rintro ⟨⟩
    · rintro ⟨⟩
  by_cases howner : ∃ env, a = .owner env
  · obtain ⟨env, rfl⟩ := howner
    rcases step_owner hs with ⟨stage, hphase, rfl⟩ | ⟨stage, hphase, hs⟩
    · exact h.startStep hphase env
    · intro hlistening
      rcases stopStep_lifecycle hphase hs with hnext | ⟨next, hnext⟩ <;>
        rw [hnext] at hlistening <;> cases hlistening
  -- no recovery runs before the loop does, so no section closes the listener
  obtain ⟨hlifecycle, -⟩ := step_epoch hs (by simpa using hcall) (by simpa using howner)
  intro hlistening
  have hquiet := Lifecycle.quiet_of_listening hlistening
  have hafter := ((hepoch.step hs).quiet hquiet).2
  rw [hlifecycle] at hlistening hquiet
  have hserved := (served_step_iff hr hs (h.served hlistening) fun sec hsec =>
    Bool.eq_false_iff.mpr fun hgives => howner (entered_givesUpListener hsec hgives)).mpr
      (overwritesRecovery_eq_false (hepoch.quiet hquiet).2 a)
  exact hserved.resolve_right hafter

theorem Listening.reachable (h : Reachable RtspServer.step (initial fps) t) : Listening t := by
  suffices h' : Reachable RtspServer.step (initial fps) t ∧ Listening t from h'.2
  refine h.invariant (fun t => Reachable RtspServer.step (initial fps) t ∧ Listening t)
    ⟨.refl, by simp [Listening, initial, Lifecycle.listening]⟩ ?_
  rintro t a t' ⟨hr, hlistening⟩ hs
  exact ⟨hr.tail hs, hlistening.step hr hs⟩

theorem startStep_started {stage : StartStage} {env : OwnerEnv}
    (hphase : t.lifecycle = .starting stage)
    (hafter : (t.startStep stage env).lifecycle = .started) :
    t.lifecycle = .starting .loop ∧ (t.startStep stage env).shared = t.shared := by
  obtain ⟨ok, id, now, counted⟩ := env
  cases stage with
  | loop => cases ok <;> exact ⟨hphase, rfl⟩
  | publish => cases hafter
  | publishWatchdog => cases hafter
  | factory =>
    simp only [startStep] at hafter
    split at hafter
    · cases hafter
    · split at hafter <;> cases hafter
  | _ => cases ok <;> cases hafter

/-- The owner ends `start` without touching the shared fields. -/
theorem started_of_step (hs : t.step a = some t') (hbefore : t.lifecycle ≠ .started)
    (hafter : t'.lifecycle = .started) : t.lifecycle = .starting .loop ∧ t'.shared = t.shared := by
  by_cases hcall : ∃ call ok, a = .call call ok
  · obtain ⟨call, ok, rfl⟩ := hcall
    obtain ⟨-, rfl | rfl | ⟨-, rfl⟩ | ⟨-, rfl⟩⟩ := callStep_cases hs
    · exact absurd hafter hbefore
    · exact absurd hafter hbefore
    · cases hafter
    · cases hafter
  by_cases howner : ∃ env, a = .owner env
  · obtain ⟨env, rfl⟩ := howner
    rcases step_owner hs with ⟨stage, hphase, rfl⟩ | ⟨stage, hphase, hs⟩
    · exact startStep_started hphase hafter
    · rcases stopStep_lifecycle hphase hs with hnext | ⟨next, hnext⟩ <;> rw [hnext] at hafter <;>
        cases hafter
  · have := (step_epoch hs (by simpa using hcall) (by simpa using howner)).1
    exact absurd (this ▸ hafter) hbefore

/-- While the server is started, no step of the owner gives the listener up. -/
theorem started_givesUpListener (hstarted : t.lifecycle = .started) {sec : Section}
    (hsec : t.entered a = some sec) : sec.givesUpListener = false := by
  refine Bool.eq_false_iff.mpr fun hgives => ?_
  obtain ⟨env, rfl⟩ := entered_givesUpListener hsec hgives
  simp [entered, hstarted] at hsec

/-- **When the listener of a started server is never stranded**: exactly in the runs in which no
media error, no failed setup and no new media overwrites a recovery that has closed it. -/
theorem listenerServed_run_iff {history : List (RtspServer × RtspAction)}
    (h : Run step (initial fps) history t) :
    ((∀ x ∈ history, ListenerServed x.1) ∧ ListenerServed t) ↔
      ∀ x ∈ history, x.1.lifecycle = .started → x.1.overwritesRecovery x.2 = false := by
  refine h.forall_iff ListenerServed
    (fun t a => t.lifecycle = .started → t.overwritesRecovery a = false) ?_ ?_ ?_
  · simp [ListenerServed, initial]
  · intro t a t' hr hserved hgood hs hafter
    refine (listenerServed_iff (hasJob_of_reachable (hr.tail hs)) hafter).mpr ?_ hafter
    by_cases hstarted : t.lifecycle = .started
    · exact (served_step_iff hr hs
        ((listenerServed_iff (hasJob_of_reachable hr) hstarted).mp hserved)
        fun sec hsec => started_givesUpListener hstarted hsec).mpr (hgood hstarted)
    · obtain ⟨hphase, hshared⟩ := started_of_step hs hstarted hafter
      rw [hshared]
      exact (Listening.reachable hr).served (by rw [hphase]; rfl)
  · intro t a t' hr hserved hbad hs hafter
    obtain ⟨hstarted, hover⟩ : t.lifecycle = .started ∧ t.overwritesRecovery a = true := by
      simpa using hbad
    have hlifecycle : t'.lifecycle = .started := by
      rw [← hstarted]
      refine (step_epoch hs ?_ ?_).1
      · rintro call ok rfl
        simp [overwritesRecovery, entered] at hover
      · rintro env rfl
        simp [overwritesRecovery, entered, hstarted] at hover
    have hserved' := (listenerServed_iff (hasJob_of_reachable (hr.tail hs)) hlifecycle).mp hafter
    have := (served_step_iff hr hs
      ((listenerServed_iff (hasJob_of_reachable hr) hstarted).mp hserved)
      fun sec hsec => started_givesUpListener hstarted hsec).mp hserved'
    rw [hover] at this
    cases this

/-- A recovery that nothing overwrites has closed the listener, and will reopen it. -/
theorem listenerServed_run_iff_dispatched :
    ∃ history t, Run step (initial 30) history t ∧ t.lifecycle = .started ∧
      t.shared.listenerSource = none ∧ (∀ x ∈ history, ListenerServed x.1) ∧ ListenerServed t := by
  let actions := startUp ++ configureMedia 10 20 ++ reportMediaError 10 ++ dispatchRecovery
  have hrun : Run step (initial 30) _ _ := Run.ofExec actions rfl
  exact ⟨_, _, hrun, rfl, rfl, (listenerServed_run_iff hrun).mpr (by decide)⟩

/-- A second error, of the media that is being torn down. -/
def overwriteRecovery : List RtspAction :=
  startUp ++ configureMedia 10 20 ++ reportMediaError 10 ++ dispatchRecovery ++ reportMediaError 10

/-- The worker does its job, and the media is gone. -/
def tearDown : List RtspAction :=
  [.worker, .worker, .signal (.unprepared 10), .callback 0 {}, .callback 0 {}]

/-- The second error overwrites the recovery: the listener is closed, and nothing that is in
progress reopens it. Once the media is gone nothing is even requested. -/
theorem not_listenerServed :
    (¬ ∀ fps t, Reachable step (initial fps) t → ListenerServed t) ∧
      ∃ t, Reachable step (initial 30) t ∧ t.lifecycle = .started ∧
        t.shared.listenerSource = none ∧ t.shared.recoveryState = .idle ∧
        t.worker.pending = none ∧ t.callbacks = [] ∧ t.shared.currentMedia = none := by
  constructor
  · intro hserved
    obtain ⟨t, hr, hstarted, hlistener, hstate⟩ := exists_reachable step (initial 30)
      overwriteRecovery (fun t => t.lifecycle = .started ∧ t.shared.listenerSource = none ∧
        t.shared.recoveryState = .requested) (by decide)
    rcases (hserved 30 t hr hstarted (Or.inl hlistener)).1 with hc | hc <;>
      rw [hstate] at hc <;> cases hc
  · exact exists_reachable step _ (overwriteRecovery ++ tearDown) _ (by decide)

end RtspServer

end EggVision
