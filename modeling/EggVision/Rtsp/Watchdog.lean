import EggVision.Rtsp.Jobs

/-!
# The watchdog between its critical sections

`onWatchdog` enters several critical sections, and the other threads run in between. It decides to
recover a media from a copy of its status and calls `recoverMedia` later; it takes the recovery out
of `Running` before it creates the listener, and enters the section that publishes the listener when
it has one.

## Main definitions

* `CalledFor` — a recovery of the current media was requested, or its status calls for one
* `healsUnseen` — the step that marks a media as prepared behind the watchdog's back
* `Reattached` — the listener is open, or a later tick opens it

## Main results

* `calledFor_of_run` — when no healthy media is torn down
* `reattached_iff` — when a listener that was closed for a recovery is opened again
-/

namespace EggVision

open Transition RtspState

namespace RtspState

variable {s : RtspState}

/-! ### Reasons for a recovery -/

/-- A recovery of the current media was requested, or its status calls for one. -/
def CalledFor (s : RtspState) : Prop :=
  s.isRequested s.mediaGeneration = true ∨
    s.observedStatus = .error ∨ s.observedStatus = .unpreparing ∨ s.observedStatus = .preparing

instance (s : RtspState) : Decidable s.CalledFor :=
  inferInstanceAs (Decidable (_ ∨ _))

theorem CalledFor.of_request {s' : RtspState} (hstate : s'.recoveryState = .requested)
    (hgeneration : s'.recoveryGeneration = s'.mediaGeneration) : CalledFor s' :=
  Or.inl (by simp [isRequested, hstate, hgeneration])

/-- The decision is for the current media, and there is a reason for it. -/
theorem calledFor_of_decision (hinv : RecoveryInv s) {now : ℤ} {expected : ℕ} {reason : String}
    (h : (s.view now).decision now = some (expected, reason)) :
    expected = s.mediaGeneration ∧ CalledFor s := by
  unfold view at h
  split at h
  · by_cases hrequested : s.recoveryState = .requested
    · obtain ⟨-, hgeneration⟩ := hinv.requested hrequested
      have hnonzero : s.recoveryGeneration ≠ 0 := fun hzero => by
        rw [hinv.generation.mpr hzero] at hrequested
        cases hrequested
      simp only [WatchdogView.decision, hrequested, if_true, if_pos hnonzero, Option.some.injEq,
        Prod.mk.injEq] at h
      exact ⟨h.1.symm.trans hgeneration, .of_request hrequested hgeneration⟩
    · simp only [WatchdogView.decision, if_neg hrequested, ne_eq, not_true_eq_false,
        if_false] at h
      split at h
      · cases h
      · cases hstatus : s.observedStatus with
        | error =>
          simp only [hstatus, Option.some.injEq, Prod.mk.injEq] at h
          exact ⟨h.1.symm, Or.inr (Or.inl hstatus)⟩
        | unpreparing =>
          simp only [hstatus, Option.ite_none_right_eq_some, Option.some.injEq,
            Prod.mk.injEq] at h
          exact ⟨h.2.1.symm, Or.inr (Or.inr (Or.inl hstatus))⟩
        | preparing =>
          simp only [hstatus, Option.ite_none_right_eq_some, Option.some.injEq,
            Prod.mk.injEq] at h
          exact ⟨h.2.1.symm, Or.inr (Or.inr (Or.inr hstatus))⟩
        | unprepared => simp [hstatus] at h
        | prepared => simp [hstatus] at h
  · simp [WatchdogView.decision] at h

/-- The sections of the watchdog. -/
def Section.byWatchdog : Section → Bool
  | .checkRecovery _ _ | .resume _ _ | .recoverMedia .. | .failDispatch _ => true
  | _ => false

/-- The other threads do not take the reason for a recovery away from a media, except that it may
become prepared. -/
theorem Section.calledFor {sec : Section} (h : CalledFor s)
    (hsame : (sec.apply s).mediaGeneration = s.mediaGeneration)
    (hwatchdog : sec.byWatchdog = false)
    (hheals : ∀ media now, sec = .markPrepared media now → s.currentMedia = some media →
      s.isRequested s.mediaGeneration = true) : CalledFor (sec.apply s) := by
  cases sec with
  | publishStart now => exact absurd hsame (Nat.succ_ne_self _)
  | retireAll now => exact absurd hsame (Nat.succ_ne_self _)
  | configure factory media now =>
    simp only [Section.apply, RtspState.configure] at hsame ⊢
    split at hsame
    · exact absurd hsame (Nat.succ_ne_self _)
    next hrefused =>
      rw [if_neg hrefused]
      exact h
  | unprepare media now =>
    simp only [Section.apply, RtspState.unprepare] at hsame ⊢
    split at hsame
    · simp only at hsame
      split at hsame <;> exact absurd hsame (Nat.succ_ne_self _)
    next hother =>
      rw [if_neg hother]
      exact h
  | failSetup media =>
    simp only [Section.apply, RtspState.failSetup]
    split
    · exact .of_request rfl rfl
    · exact h
  | bind media source =>
    simp only [Section.apply, RtspState.bind]
    split
    · exact h
    · split <;> exact h
  | markPrepared media now =>
    simp only [Section.apply, RtspState.markPrepared]
    split
    next hmedia => exact Or.inl (hheals media now rfl hmedia)
    · exact h
  | targetState media toNull now =>
    simp only [Section.apply, RtspState.targetState]
    split
    · exact h
    · exact Or.inr (Or.inr (Or.inl rfl))
  | reportError media now =>
    simp only [Section.apply, RtspState.reportError]
    split
    · exact .of_request rfl rfl
    · exact h
  | recordPush mediaGeneration flow =>
    simp only [Section.apply, RtspState.recordPush]
    split
    next hcurrent =>
      simp only [Bool.and_eq_true, decide_eq_true_eq] at hcurrent
      cases flow with
      | ok => exact h
      | flushing => exact h
      | error =>
        simp only
        split
        · exact .of_request rfl hcurrent.2.symm
        · exact h
    · exact h
  | publishFactory factory =>
    simp only [Section.apply, RtspState.publishFactory]
    split <;> exact h
  | publishStop =>
    simp only [Section.apply, RtspState.publishStop]
    split <;> exact h
  | publishServer | publishRecoveryWorker | publishListener | publishWatchdog | takeSources
  | reportDelay | takeRecoveryWorker => exact h
  | _ => cases hwatchdog

end RtspState

namespace RtspServer

variable {t t' : RtspServer} {a : RtspAction} {fps : ℕ}

theorem entered_byWatchdog {sec : Section} (h : t.entered a = some sec)
    (hsec : sec.byWatchdog = true) : ∃ env, a = .watchdog env := by
  rcases entered_cases h with ⟨env, -, hown⟩ | ⟨index, env, task, -, -, hcallback⟩ |
    ⟨env, rfl, -⟩ | ⟨env, mediaGeneration, flow, -, -, rfl⟩
  · cases sec with
    | checkRecovery | resume | recoverMedia | failDispatch => cases hown
    | _ => cases hsec
  · cases task with
    | bind media after =>
      obtain ⟨source, -, rfl⟩ := Option.map_eq_some_iff.mp hcallback
      cases hsec
    | handleMessage media isError =>
      obtain ⟨-, ⟨⟩⟩ := Option.ite_none_right_eq_some.mp hcallback
      cases hsec
    | _ => cases hcallback <;> cases hsec
  · exact ⟨env, rfl⟩
  · cases hsec

/-- The watchdog moves by its own steps, and a tick starts it. -/
theorem step_watchdog (hs : t.step a = some t') (hwatchdog : ∀ env, a ≠ .watchdog env) :
    t'.watchdog = t.watchdog ∨
      t.watchdog = .idle ∧ ∃ now, a = .tick now ∧ t'.watchdog = .finishing now := by
  cases a with
  | watchdog env => exact absurd rfl (hwatchdog env)
  | tick now =>
    simp only [step] at hs
    split at hs
    next hticks =>
      simp only [Bool.and_eq_true, decide_eq_true_eq] at hticks
      split at hs <;> cases hs
      · exact Or.inr ⟨hticks.2, now, rfl, rfl⟩
      · exact Or.inl rfl
    · cases hs
  | call call ok =>
    rcases callStep_cases hs with ⟨-, rfl | rfl | ⟨-, rfl⟩ | ⟨-, rfl⟩⟩ <;> exact Or.inl rfl
  | owner env =>
    obtain ⟨_, _, _, _, _, _, _, _, _, rfl, -⟩ := ownerStep_frame hs
    exact Or.inl rfl
  | signal signal =>
    obtain ⟨-, rfl⟩ := step_signal hs
    exact Or.inl rfl
  | callback index env =>
    obtain ⟨_, _, _, _, rfl, -⟩ := step_callback hs
    exact Or.inl rfl
  | worker =>
    obtain ⟨_, rfl⟩ := step_worker hs
    exact Or.inl rfl
  | feeder env =>
    obtain ⟨_, _, _, _, rfl, -⟩ := feederStep_frame hs
    exact Or.inl rfl
  | submit unit =>
    obtain ⟨_, _, _, rfl⟩ := submitStep_frame hs
    exact Or.inl rfl
  | submitNext =>
    obtain ⟨_, _, _, _, rfl, -⟩ := submitNextStep_frame hs
    exact Or.inl rfl

/-! ### Decisions of the watchdog -/

/-- The watchdog has decided to recover the current media without a request, and the step marks the
media as prepared before `recoverMedia` takes the lock. -/
def healsUnseen (t : RtspServer) (a : RtspAction) : Bool :=
  match t.watchdog, t.entered a with
  | .recovering expected _, some (.markPrepared media _) =>
    decide (t.shared.currentMedia = some media) && decide (t.shared.mediaGeneration = expected) &&
      !t.shared.isRequested expected
  | _, _ => false

/-- The watchdog acts on a decision that still has a reason, or comes too late for its media. -/
def DecidedWell (t : RtspServer) : Prop :=
  ∀ expected reason, t.watchdog = .recovering expected reason →
    expected ≤ t.shared.mediaGeneration ∧
      (expected = t.shared.mediaGeneration → CalledFor t.shared)

/-- The watchdog gets to `recoverMedia` from the section in which it looks at the media. -/
theorem watchdogStep_recovering {env : WatchdogEnv} (hs : t.watchdogStep env = some t')
    {expected : ℕ} {reason : String} (hafter : t'.watchdog = .recovering expected reason) :
    ∃ now, (t.shared.view now).decision now = some (expected, reason) ∧ t'.shared = t.shared := by
  unfold watchdogStep at hs
  cases hphase : t.watchdog with
  | idle => simp [hphase] at hs
  | viewing now =>
    simp only [hphase, Option.some.injEq] at hs
    subst hs
    simp only at hafter
    split at hafter
    next hdecision =>
      cases hafter
      exact ⟨now, hdecision, rfl⟩
    · cases hafter
  | finishing now =>
    simp only [hphase, Option.some.injEq] at hs
    subst hs
    simp only at hafter
    split at hafter <;> cases hafter
  | recovering =>
    simp only [hphase] at hs
    split at hs
    · cases hs
      cases hafter
    · split at hs <;> cases hs <;> cases hafter
  | _ =>
    simp only [hphase, Option.some.injEq] at hs
    subst hs
    cases hafter

theorem DecidedWell.step (h : DecidedWell t) (hinv : RecoveryInv t.shared)
    (hgood : t.healsUnseen a = false) (hs : t.step a = some t') : DecidedWell t' := by
  intro expected reason hafter
  by_cases hwatchdog : ∃ env, a = .watchdog env
  · obtain ⟨env, rfl⟩ := hwatchdog
    obtain ⟨now, hdecision, hshared⟩ := watchdogStep_recovering hs hafter
    obtain ⟨rfl, hcalled⟩ := calledFor_of_decision hinv hdecision
    rw [hshared]
    exact ⟨Nat.le_refl _, fun _ => hcalled⟩
  have hphase : t.watchdog = .recovering expected reason := by
    rcases step_watchdog hs (by simpa using hwatchdog) with heq | ⟨-, now, -, hnew⟩
    · rw [← heq, hafter]
    · rw [hnew] at hafter
      cases hafter
  obtain ⟨hle, hcalled⟩ := h expected reason hphase
  have hmono := (step_renames hs).monotone
  refine ⟨Nat.le_trans hle hmono, fun hcurrent => ?_⟩
  -- within one generation only `onMediaPrepared` could take the reason away
  have hbefore : expected = t.shared.mediaGeneration := by omega
  rw [step_shared hs] at hcurrent ⊢
  cases hsec : t.entered a with
  | none => exact hcalled hbefore
  | some sec =>
    rw [hsec] at hcurrent
    refine Section.calledFor (hcalled hbefore) (hcurrent.symm.trans hbefore)
      (Bool.eq_false_iff.mpr fun hmine => hwatchdog (entered_byWatchdog hsec hmine)) ?_
    rintro media now rfl hmedia
    simp only [healsUnseen, hphase, hsec, hmedia, decide_true, Bool.true_and, hbefore,
      Bool.not_eq_false'] at hgood
    exact hgood

/-- **No healthy media is torn down, unless it becomes prepared behind the watchdog's back**: in a
run in which no media is marked as prepared between the watchdog's decision to recover it and
`recoverMedia`, every recovery that begins was requested for the current media, or the media is
still in the state that called for it. -/
theorem calledFor_of_run {history : List (RtspServer × RtspAction)}
    (h : Run step (initial fps) history t)
    (hgood : ∀ x ∈ history, x.1.healsUnseen x.2 = false) :
    ∀ x ∈ history, x.1.publishes x.2 ≠ none →
      x.1.shared.isRequested x.1.shared.mediaGeneration = true ∨
        x.1.shared.observedStatus = .error ∨ x.1.shared.observedStatus = .unpreparing ∨
          x.1.shared.observedStatus = .preparing := by
  have hdecided := (h.forall_of DecidedWell (fun t a => t.healsUnseen a = false)
    (by simp [DecidedWell, initial])
    (fun t a t' hr hwell hgood hs => hwell.step (recoveryInv_of_reachable hr) hgood hs) hgood).1
  intro x hx hpublishes
  obtain ⟨job, hjob⟩ := Option.ne_none_iff_exists'.mp hpublishes
  obtain ⟨env, expected, reason, -, hphase, -, -, hexpected, -⟩ := publishes_spec hjob
  exact (hdecided x hx expected reason hphase).2 hexpected.symm

/-- A media that stays in `preparing`, and a tick ten seconds later. -/
def overdue : List RtspAction :=
  startUp ++ configureMedia 10 20 ++ [.tick 10000000, .watchdog {}, .watchdog {}]

/-- A media that has been preparing for ten seconds is recovered. -/
theorem calledFor_of_run_overdue :
    ∃ history t x, Run step (initial 30) history t ∧ x ∈ history ∧
      (x.1.publishes x.2).isSome = true ∧
      x.1.shared.isRequested x.1.shared.mediaGeneration = false ∧
      CalledFor x.1.shared := by
  have hrun : Run step (initial 30) _ _ := Run.ofExec (overdue ++ [.watchdog {}]) rfl
  have hmem : ∀ x ∈ (trace step (initial 30) (overdue ++ [.watchdog {}])).getLast?,
      x ∈ trace step (initial 30) (overdue ++ [.watchdog {}]) := fun x hx =>
    List.mem_of_getLast? hx
  have hcalled := calledFor_of_run hrun (by decide) _ (hmem _ rfl) (by decide)
  exact ⟨_, _, _, hrun, hmem _ rfl, by decide, by decide, hcalled⟩

/-- The media becomes prepared after the tick has looked at it, and is torn down all the same. -/
theorem not_calledFor :
    ¬ ∀ fps t a, Reachable step (initial fps) t → t.publishes a ≠ none → CalledFor t.shared := by
  intro hcalled
  obtain ⟨t, hr, hprepared, hidle, hpublishes⟩ := exists_reachable step (initial 30)
    (overdue ++ [.signal (.prepared 10), .callback 0 { source := some 20 }, .callback 0 {}])
    (fun t => t.shared.observedStatus = .prepared ∧ t.shared.recoveryState = .idle ∧
      (t.publishes (.watchdog {})).isSome = true) (by decide)
  rcases hcalled 30 t (.watchdog {}) hr (by
    rintro hnone
    simp [hnone] at hpublishes) with hrequested | hstatus | hstatus | hstatus
  · simp [isRequested, hidle] at hrequested
  all_goals
    rw [hprepared] at hstatus
    cases hstatus

end RtspServer

/-! ### The listener after a recovery -/

/-- `start` has a server for the epoch. -/
def Lifecycle.allocated : Lifecycle → Bool
  | .starting stage =>
    match stage with
    | .publish | .allocate => false
    | .factory | .recoveryWorker | .listener | .sessionCleanup | .watchdog | .publishWatchdog
    | .feeder | .loop => true
  | .started => true
  | .stopped | .stopping _ => false

namespace RtspState

variable {s : RtspState} {done : ℕ → Bool}

/-- The recovery has been found to be over, and its listener can be opened. -/
structure Resumable (done : ℕ → Bool) (s : RtspState) : Prop where
  state : s.recoveryState = .completed
  unprepared : s.recoveryMediaUnprepared = true
  job : s.jobDone done = true

theorem Resumable.mono {done' : ℕ → Bool} (h : s.Resumable done)
    (hdone : ∀ id, done id = true → done' id = true) : s.Resumable done' := by
  refine { h with job := ?_ }
  have hjob := h.job
  unfold jobDone at hjob ⊢
  obtain ⟨job, hjob, hthis⟩ := (Option.any_eq_true _ _).mp hjob
  simp only [Bool.and_eq_true] at hthis
  simp only [hjob, Option.any_some, hthis.1, hdone _ hthis.2, Bool.and_self]

theorem Resumable.mayResume (h : s.Resumable done) (hinv : RecoveryInv s)
    (hrunning : s.running = true) : s.mayResume done = true := by
  have hgeneration : s.recoveryGeneration ≠ 0 := fun hzero => by
    have := hinv.generation.mpr hzero
    rw [h.state] at this
    cases this
  have hclosed := (hinv.closed (Or.inr h.state)).2.2
  simp [RtspState.mayResume, hrunning, h.state, hgeneration, h.unprepared, h.job, hclosed]

/-- `onMediaConfigure` takes a media. -/
def Section.takesMedia (s : RtspState) : Section → Bool
  | .configure factory _ _ => s.acceptsMedia factory
  | _ => false

theorem Section.idle_of_takesMedia {sec : Section} (h : sec.takesMedia s = true) :
    (sec.apply s).recoveryState = .idle := by
  cases sec with
  | configure factory media now =>
    have haccepts : s.acceptsMedia factory = true := h
    simp [Section.apply, RtspState.configure, haccepts]
  | _ => cases h

/-- The media of a recovery that is over has gone, so only a new one gets in its way. -/
theorem Resumable.section {sec : Section} (h : s.Resumable done) (hinv : RecoveryInv s)
    (hwatchdog : sec.byWatchdog = false) (hstart : ∀ now, sec ≠ .publishStart now)
    (hretire : ∀ now, sec ≠ .retireAll now) (hmedia : sec.takesMedia s = false) :
    (sec.apply s).Resumable done := by
  have hgone := hinv.gone (Or.inr h.state)
  by_cases hmoves : sec.movesRecovery = false
  · have hsame := sec.sameRecovery hmoves s
    refine ⟨hsame.state.trans h.state, hsame.unprepared.trans h.unprepared, ?_⟩
    unfold jobDone
    rw [hsame.job, hsame.token]
    exact h.job
  cases sec with
  | publishStart now => exact absurd rfl (hstart now)
  | retireAll now => exact absurd rfl (hretire now)
  | configure factory media now =>
    have hrefused : s.acceptsMedia factory = false := hmedia
    simpa [Section.apply, RtspState.configure, hrefused] using h
  | failSetup media => simpa [Section.apply, RtspState.failSetup, hgone] using h
  | unprepare media now => simpa [Section.apply, RtspState.unprepare, hgone] using h
  | reportError media now => simpa [Section.apply, RtspState.reportError, hgone] using h
  | recordPush mediaGeneration flow =>
    simpa [Section.apply, RtspState.recordPush, hgone] using h
  | checkRecovery | resume | recoverMedia | failDispatch => cases hwatchdog
  | _ => exact absurd rfl hmoves

end RtspState

namespace RtspServer

variable {t t' t₁ t₂ t₃ : RtspServer} {a : RtspAction} {fps : ℕ}

/-- While the watchdog is inside, the epoch has a server and a loop. -/
structure Serving (t : RtspServer) : Prop where
  allocated : t.lifecycle.allocated = true → t.shared.server = true
  loop : t.loop = true → t.shared.server = true
  watchdog : t.watchdog ≠ .idle → t.loop = true

theorem Serving.startStep (h : Serving t) {stage : StartStage} (hepoch : EpochInv t)
    (hphase : t.lifecycle = .starting stage) (env : OwnerEnv) :
    Serving (t.startStep stage env) := by
  have hidle := (hepoch.quiet (by rw [hphase]; rfl)).1
  have hloop := hepoch.loop (by rw [hphase]; rfl) (by rw [hphase]; rintro ⟨⟩)
  have hnoloop : t.loop = true → (t.startStep stage env).shared.server = true := fun hrun => by
    rw [hloop] at hrun
    cases hrun
  have hnowatchdog : t.watchdog ≠ .idle → (t.startStep stage env).loop = true :=
    fun hbusy => absurd hidle hbusy
  obtain ⟨ok, id, now, counted⟩ := env
  cases stage with
  | publish => exact ⟨by rintro ⟨⟩, hnoloop, hnowatchdog⟩
  | allocate =>
    cases ok with
    | false => exact ⟨by rintro ⟨⟩, hnoloop, hnowatchdog⟩
    | true => exact ⟨fun _ => rfl, fun _ => rfl, hnowatchdog⟩
  | factory =>
    have hserver := h.allocated (by rw [hphase]; rfl)
    have hsame : (t.shared.publishFactory id).1.server = t.shared.server := by
      unfold publishFactory
      split <;> rfl
    cases ok with
    | false => exact ⟨by rintro ⟨⟩, hnoloop, hnowatchdog⟩
    | true =>
      simp only [RtspServer.startStep, Bool.not_true, Bool.false_eq_true, if_false] at *
      split
      · exact ⟨fun _ => hsame.trans hserver, fun _ => hsame.trans hserver,
          fun hbusy => absurd hidle hbusy⟩
      · exact ⟨by rintro ⟨⟩, h.loop, h.watchdog⟩
  | loop =>
    have hserver := h.allocated (by rw [hphase]; rfl)
    cases ok with
    | false => exact ⟨by rintro ⟨⟩, hnoloop, hnowatchdog⟩
    | true => exact ⟨fun _ => hserver, fun _ => hserver, fun _ => rfl⟩
  | publishWatchdog =>
    have hserver := h.allocated (by rw [hphase]; rfl)
    exact ⟨fun _ => hserver, hnoloop, hnowatchdog⟩
  | _ =>
    have hserver := h.allocated (by rw [hphase]; rfl)
    cases ok with
    | false => exact ⟨by rintro ⟨⟩, hnoloop, hnowatchdog⟩
    | true => exact ⟨fun _ => hserver, hnoloop, hnowatchdog⟩

theorem Serving.stopStep (h : Serving t) {stage : StopStage} (hepoch : EpochInv t)
    (hphase : t.lifecycle = .stopping stage) {env : OwnerEnv}
    (hs : t.stopStep stage env = some t') : Serving t' := by
  have hallocated : t'.lifecycle.allocated = true → t'.shared.server = true := fun hthere => by
    rcases stopStep_lifecycle hphase hs with hnext | ⟨next, hnext⟩ <;> rw [hnext] at hthere <;>
      cases hthere
  cases stage with
  | publish =>
    have hsame : t.shared.publishStop.1.server = t.shared.server := by
      unfold publishStop
      split <;> rfl
    cases hs
    exact ⟨hallocated, fun hloop => hsame.trans (h.loop hloop), h.watchdog⟩
  | joinFeeder | joinWorker | waitCallbacks =>
    simp only [RtspServer.stopStep] at hs
    split at hs <;> cases hs
    exact ⟨hallocated, h.loop, h.watchdog⟩
  | waitJob waitFor =>
    simp only [RtspServer.stopStep] at hs
    split at hs
    · cases hs
      exact ⟨hallocated, h.loop, h.watchdog⟩
    · split at hs <;> cases hs
      exact ⟨hallocated, h.loop, h.watchdog⟩
  | release =>
    have hidle := (hepoch.sealed (by rw [hphase]; rfl)).2
    cases hs
    exact ⟨hallocated, by rintro ⟨⟩, fun hbusy => absurd hidle hbusy⟩
  | _ =>
    cases hs
    exact ⟨hallocated, h.loop, h.watchdog⟩

theorem Serving.step (h : Serving t) (hepoch : EpochInv t) (hs : t.step a = some t') :
    Serving t' := by
  by_cases hcall : ∃ call ok, a = .call call ok
  · obtain ⟨call, ok, rfl⟩ := hcall
    obtain ⟨-, rfl | rfl | ⟨-, rfl⟩ | ⟨-, rfl⟩⟩ := callStep_cases hs
    · exact h
    · exact { h with }
    · exact { h with allocated := by rintro ⟨⟩ }
    · exact { h with allocated := by rintro ⟨⟩ }
  by_cases howner : ∃ env, a = .owner env
  · obtain ⟨env, rfl⟩ := howner
    rcases step_owner hs with ⟨stage, hphase, rfl⟩ | ⟨stage, hphase, hs⟩
    · exact h.startStep hepoch hphase env
    · exact h.stopStep hepoch hphase hs
  obtain ⟨hlifecycle, -, hloop, -⟩ := step_epoch hs (by simpa using hcall) (by simpa using howner)
  have hserver : t'.shared.server = t.shared.server := by
    rw [step_shared hs]
    cases hsec : t.entered a with
    | none => rfl
    | some sec =>
      exact (Section.sameEpoch (Bool.eq_false_iff.mpr fun hown =>
        howner (entered_byOwner hsec hown)) _).server
  refine ⟨?_, ?_, fun hbusy => ?_⟩
  · rw [hlifecycle, hserver]
    exact h.allocated
  · rw [hloop, hserver]
    exact h.loop
  · rw [hloop]
    by_contra hstill
    have hoff : t.loop = false := by simpa using hstill
    have hidle : t.watchdog = .idle := by
      by_contra hinside
      exact hstill (h.watchdog hinside)
    exact hbusy ((step_inside hs).2 (Or.inl hoff) hidle)

theorem Serving.reachable (h : Reachable RtspServer.step (initial fps) t) : Serving t := by
  suffices h' : EpochInv t ∧ Serving t from h'.2
  refine h.invariant (fun t => EpochInv t ∧ Serving t) ⟨.initial fps, ?_⟩ ?_
  · constructor <;> simp [initial, Lifecycle.allocated]
  · rintro t a t' ⟨hepoch, hserving⟩ hs
    exact ⟨hepoch.step hs, hserving.step hepoch hs⟩

/-- A job that is done stays done. -/
theorem step_done (hs : t.step a = some t') {id : ℕ} (h : t.worker.isDone id = true) :
    t'.worker.isDone id = true := by
  unfold RecoveryWorker.isDone at h ⊢
  cases hjob : t.publishes a with
  | some job =>
    obtain ⟨env, expected, reason, rfl, -, -, -, -, -, -, -, -, heq⟩ := publishes_spec hjob
    rw [hs, Option.some.injEq] at heq
    rw [heq]
    exact h
  | none =>
    by_cases hworker : a = .worker
    · subst hworker
      obtain ⟨w, hw, rfl⟩ := Option.map_eq_some_iff.mp hs
      rcases RecoveryWorker.step_cases hw with ⟨-, -, -, rfl⟩ | ⟨-, -, rfl⟩ | ⟨-, -, -, rfl⟩
      · exact h
      · simpa using Or.inl (of_decide_eq_true h)
      · exact h
    by_cases howner : ∃ env, a = .owner env
    · obtain ⟨⟨ok, address, now, counted⟩, rfl⟩ := howner
      have hsame : t'.worker.done = t.worker.done := by
        rcases step_owner hs with ⟨stage, -, rfl⟩ | ⟨stage, -, hs⟩
        · cases stage with
          | factory =>
            simp only [RtspServer.startStep]
            split
            · rfl
            · split <;> rfl
          | publish | publishWatchdog => rfl
          | _ => cases ok <;> rfl
        · cases stage with
          | joinFeeder | joinWorker | waitCallbacks =>
            simp only [RtspServer.stopStep] at hs
            split at hs <;> cases hs
            rfl
          | waitJob waitFor =>
            simp only [RtspServer.stopStep] at hs
            split at hs
            · cases hs
              rfl
            · split at hs <;> cases hs
              rfl
          | stopWorker =>
            cases hs
            simp only
            split <;> rfl
          | _ =>
            cases hs
            rfl
      rw [hsame]
      exact h
    rw [(step_jobs hs (by simpa using howner) hworker hjob).1]
    exact h

/-! ### From one section of `finishRecoveryIfReady` to the other -/

/-- The step lets `onMediaConfigure` take a media. -/
def takesMedia (t : RtspServer) (a : RtspAction) : Bool :=
  (t.entered a).any (Section.takesMedia t.shared)

/-- While the watchdog is inside, no section of `start` is entered, and not the last one of
`stopLocked`. -/
theorem entered_inside (hepoch : EpochInv t) (hbusy : t.watchdog ≠ .idle) {sec : Section}
    (h : t.entered a = some sec) :
    (∀ now, sec ≠ .publishStart now) ∧ (∀ now, sec ≠ .retireAll now) ∧
      ∀ listener, sec ≠ .publishListener listener := by
  have hquiet : t.lifecycle.quiet ≠ true := fun hquiet => hbusy (hepoch.quiet hquiet).1
  have hsealed : t.lifecycle.sealed ≠ true := fun hsealed => hbusy (hepoch.sealed hsealed).2
  refine ⟨?_, ?_, ?_⟩
  · rintro now rfl
    exact hquiet (by rw [entered_publishStart h]; rfl)
  · rintro now rfl
    rcases entered_owner h rfl with ⟨stage, env, hphase, -⟩ | ⟨stage, env, hphase, hsec⟩
    · exact hquiet (by rw [hphase]; rfl)
    · cases stage <;> simp only [stopSection, Option.ite_none_left_eq_some, reduceCtorEq,
        Option.some.injEq, and_false] at hsec
      exact hsealed (by rw [hphase]; rfl)
  · rintro listener rfl
    exact hquiet (by rw [entered_publishListener h]; rfl)

/-- The watchdog is on its way to the section that publishes the listener. Unless `onMediaConfigure`
has taken a media meanwhile, it will find what it found before. -/
structure Resuming (taken : Prop) (t : RtspServer) : Prop where
  phase : ∃ now, t.watchdog = .resuming now
  listener : t.shared.listenerSource = none
  resumable : ¬ taken → t.shared.Resumable t.worker.isDone
  taken : taken → ¬ (t.shared.recoveryState = .running ∨ t.shared.recoveryState = .completed)

theorem Resuming.step {taken : Prop} (h : Resuming taken t)
    (hr : Reachable RtspServer.step (initial fps) t) (hs : t.step a = some t')
    (hbeside : ∀ env, a ≠ .watchdog env) :
    Resuming (taken ∨ t.takesMedia a = true) t' := by
  have hepoch := EpochInv.reachable hr
  have hinv := recoveryInv_of_reachable hr
  obtain ⟨now, hphase⟩ := h.phase
  have hbusy : t.watchdog ≠ .idle := by simp [hphase]
  have hphase' : t'.watchdog = .resuming now := by
    rcases step_watchdog hs hbeside with heq | ⟨hidle, -⟩
    · exact heq.trans hphase
    · exact absurd hidle hbusy
  have hdone : ∀ id, t.worker.isDone id = true → t'.worker.isDone id = true :=
    fun id => step_done hs
  unfold takesMedia
  have hshared := step_shared hs
  cases hsec : t.entered a with
  | none =>
    rw [hsec] at hshared
    refine ⟨⟨now, hphase'⟩, hshared ▸ h.listener, fun hnone => ?_, fun htaken => ?_⟩
    · rw [show t'.shared = t.shared from hshared]
      exact (h.resumable fun htaken => hnone (Or.inl htaken)).mono hdone
    · rw [show t'.shared = t.shared from hshared]
      exact h.taken (htaken.resolve_right (by simp))
  | some sec =>
    rw [hsec] at hshared
    obtain ⟨hstart, hretire, hlisten⟩ := entered_inside hepoch hbusy hsec
    have hwatchdog : sec.byWatchdog = false := Bool.eq_false_iff.mpr fun hmine => by
      obtain ⟨env, rfl⟩ := entered_byWatchdog hsec hmine
      exact hbeside env rfl
    have happly : t'.shared = sec.apply t.shared := hshared
    refine ⟨⟨now, hphase'⟩, ?_, fun hnone => ?_, fun htaken => ?_⟩ <;> rw [happly]
    · cases hmoves : sec.movesListener with
      | false => exact (sec.sameListener hmoves t.shared).trans h.listener
      | true =>
        cases sec with
        | publishStart now => exact absurd rfl (hstart now)
        | publishListener listener => exact absurd rfl (hlisten listener)
        | takeSources done => rfl
        | resume | recoverMedia => cases hwatchdog
        | _ => cases hmoves
    · have hmedia : sec.takesMedia t.shared = false :=
        Bool.eq_false_iff.mpr fun htakes => hnone (Or.inr htakes)
      exact ((h.resumable fun htaken => hnone (Or.inl htaken)).mono hdone |>.section hinv
        hwatchdog hstart hretire hmedia)
    · intro hafter
      cases hmedia : sec.takesMedia t.shared with
      | true =>
        rw [Section.idle_of_takesMedia hmedia] at hafter
        rcases hafter with hc | hc <;> cases hc
      | false =>
        refine h.taken (htaken.resolve_right (by simp [hmedia])) ?_
        refine Section.becomesRunning ?_ hafter
        rintro expected reason now id accepts rfl
        cases hwatchdog

theorem Resuming.run {others : List (RtspServer × RtspAction)} (h : Resuming False t₁)
    (hr : Reachable RtspServer.step (initial fps) t₁) (hothers : Run RtspServer.step t₁ others t₂)
    (hbeside : ∀ x ∈ others, ∀ env, x.2 ≠ .watchdog env) :
    Reachable RtspServer.step (initial fps) t₂ ∧
      Resuming (∃ x ∈ others, x.1.takesMedia x.2 = true) t₂ := by
  induction hothers with
  | nil => exact ⟨hr, by simpa using h⟩
  | @snoc others s s' a _ hs ih =>
    obtain ⟨hreach, hresuming⟩ := ih fun x hx => hbeside x (List.mem_append_left _ hx)
    refine ⟨hreach.tail hs, ?_⟩
    have hnext := hresuming.step hreach hs (hbeside (s, a) (by simp))
    simpa [or_and_right, exists_or] using hnext

/-! ### Later ticks -/

/-- The watchdog alone: it ticks, or it is inside. -/
def ticking : RtspAction → Bool
  | .tick _ | .watchdog _ => true
  | _ => false

/-- The listener is open, and no recovery is left. -/
def Open (t : RtspServer) : Prop :=
  t.shared.listenerSource ≠ none ∧ t.shared.acceptingClients = true ∧
    t.shared.recoveryState = .idle

/-- The listener is open, or it is after some more ticks with nobody else in between. -/
def Reattached (t : RtspServer) : Prop :=
  Open t ∨ ∃ later t', Run step t later t' ∧ (∀ x ∈ later, ticking x.2 = true) ∧ Open t'

/-- The listener is closed, and no tick is going to open it. -/
structure Stranded (t : RtspServer) : Prop where
  listener : t.shared.listenerSource = none
  running : t.shared.recoveryState = .running → t.shared.recoveryMediaUnprepared = false
  phase : ∀ now, t.watchdog ≠ .resuming now

theorem Stranded.watchdogStep (h : Stranded t) {env : WatchdogEnv}
    (hs : t.watchdogStep env = some t') : Stranded t' := by
  unfold RtspServer.watchdogStep at hs
  cases hphase : t.watchdog with
  | idle => simp [hphase] at hs
  | resuming now => exact absurd hphase (h.phase now)
  | finishing now =>
    have hnever : t.shared.recoveryReady t.worker.isDone = false :=
      Bool.eq_false_iff.mpr fun hready => by
        simp only [recoveryReady, Bool.and_eq_true, decide_eq_true_eq] at hready
        have := h.running hready.1.1.1.2
        rw [hready.1.2] at this
        cases this
    simp only [hphase, checkRecovery, hnever, Option.some.injEq] at hs
    subst hs
    exact ⟨h.listener, h.running, by simp⟩
  | viewing now =>
    simp only [hphase, Option.some.injEq] at hs
    subst hs
    refine ⟨h.listener, h.running, fun now => ?_⟩
    simp only
    split <;> rintro ⟨⟩
  | failing expected =>
    simp only [hphase, Option.some.injEq] at hs
    subst hs
    simp only [failDispatch]
    split
    · exact ⟨h.listener, by rintro ⟨⟩, by simp⟩
    · split <;> exact ⟨h.listener, h.running, by simp⟩
  | dispatched =>
    simp only [hphase, Option.some.injEq] at hs
    subst hs
    exact ⟨h.listener, h.running, by simp⟩
  | recovering expected reason =>
    simp only [hphase] at hs
    split at hs
    · cases hs
      exact ⟨h.listener, h.running, by simp⟩
    · have hkept : (t.shared.recoverMedia expected reason env.now t.nextJob
          t.worker.accepts).1.listenerSource = none ∧
          ((t.shared.recoverMedia expected reason env.now t.nextJob
            t.worker.accepts).1.recoveryState = .running →
          (t.shared.recoverMedia expected reason env.now t.nextJob
            t.worker.accepts).1.recoveryMediaUnprepared = false) := by
        rcases recoverMedia_cases expected reason env.now t.nextJob t.worker.accepts t.shared with
          ⟨heq, -⟩ | ⟨-, -, heq⟩ | ⟨-, -, -, -, -, -, heq⟩ <;> rw [heq]
        · exact ⟨h.listener, h.running⟩
        · exact ⟨h.listener, by rintro ⟨⟩⟩
        · exact ⟨rfl, fun _ => rfl⟩
      split at hs <;> cases hs
      all_goals
        next heq =>
          rw [heq] at hkept
          exact ⟨hkept.1, hkept.2, by simp⟩

theorem Stranded.run {later : List (RtspServer × RtspAction)} (h : Stranded t)
    (hrun : Run RtspServer.step t later t') (hticks : ∀ x ∈ later, ticking x.2 = true) :
    Stranded t' := by
  refine (hrun.forall_of Stranded (fun _ a => ticking a = true) h ?_ hticks).2
  intro s a s' _ hstranded htick hs
  cases a with
  | watchdog env => exact hstranded.watchdogStep hs
  | tick now =>
    obtain ⟨hlistener, hrunning, hphase⟩ := hstranded
    simp only [RtspServer.step] at hs
    split at hs
    · split at hs <;> cases hs
      · exact ⟨hlistener, hrunning, by simp⟩
      · exact ⟨hlistener, hrunning, hphase⟩
    · cases hs
  | _ => cases htick

theorem Stranded.not_reattached (h : Stranded t) : ¬ Reattached t := by
  rintro (hopen | ⟨later, t', hrun, hticks, hopen⟩)
  · exact hopen.1 h.listener
  · exact hopen.1 (h.run hrun hticks).listener

/-- The first section finds the recovery to be over. -/
theorem resuming_of_ready (hr : Reachable step (initial fps) t) {now : ℤ}
    (hphase : t.watchdog = .finishing now)
    (hready : t.shared.recoveryReady t.worker.isDone = true) {env : WatchdogEnv}
    (hs : t.step (.watchdog env) = some t₁) : Resuming False t₁ := by
  have hclosed := (recoveryInv_of_reachable (hr.tail hs)).closed
  simp only [step, watchdogStep, hphase, checkRecovery, hready, Option.some.injEq] at hs
  subst hs
  simp only [recoveryReady, Bool.and_eq_true, decide_eq_true_eq] at hready
  exact ⟨⟨now, rfl⟩, (hclosed (Or.inr rfl)).2.1, fun _ => ⟨rfl, hready.1.2, hready.2⟩, False.elim⟩

/-- **When a listener that was closed for a recovery is opened again**: if it can be created, and no
media is configured before it is published. Otherwise no later tick opens it. -/
theorem reattached_iff (hr : Reachable step (initial fps) t) {now : ℤ}
    (hphase : t.watchdog = .finishing now)
    (hready : t.shared.recoveryReady t.worker.isDone = true) {env : WatchdogEnv}
    (hs : t.step (.watchdog env) = some t₁) {others : List (RtspServer × RtspAction)}
    (hothers : Run step t₁ others t₂) (hbeside : ∀ x ∈ others, ∀ env, x.2 ≠ .watchdog env)
    {env' : WatchdogEnv} (hresume : t₂.step (.watchdog env') = some t₃)
    (hrunning : t₃.shared.running = true) :
    Reattached t₃ ↔
      env'.listener.isSome = true ∧ ∀ x ∈ others, x.1.takesMedia x.2 = false := by
  obtain ⟨hreach, hresuming⟩ := (resuming_of_ready hr hphase hready hs).run (hr.tail hs) hothers
    hbeside
  obtain ⟨now', hphase'⟩ := hresuming.phase
  have hserving := Serving.reachable hreach
  have hserver := hserving.loop (hserving.watchdog (by simp [hphase']))
  have hinv := recoveryInv_of_reachable hreach
  simp only [step, watchdogStep, hphase', hserver, if_true, Option.some.injEq] at hresume
  have hshared : t₃.shared = (t₂.shared.resume env'.listener t₂.worker.isDone).1 := by
    rw [← hresume]
  have hafter : ∀ now, t₃.watchdog ≠ .resuming now := by
    rw [← hresume]
    simp
  have hclosed : t₂.shared.recoveryState ≠ .running := fun hrun => by
    by_cases htaken : ∃ x ∈ others, x.1.takesMedia x.2 = true
    · exact hresuming.taken htaken (Or.inl hrun)
    · rw [(hresuming.resumable htaken).state] at hrun
      cases hrun
  cases hlistener : env'.listener with
  | none =>
    refine iff_of_false (Stranded.not_reattached ⟨?_, ?_, hafter⟩) (by simp)
    all_goals
      rw [hshared, hlistener]
      simp only [resume]
      split
    · exact hresuming.listener
    · exact hresuming.listener
    · exact fun hrun => absurd hrun hclosed
    · exact fun hrun => absurd hrun hclosed
  | some source =>
    rw [hlistener] at hshared
    by_cases htaken : ∃ x ∈ others, x.1.takesMedia x.2 = true
    · have hrefused : t₂.shared.mayResume t₂.worker.isDone = false :=
        Bool.eq_false_iff.mpr fun hmay => by
          simp only [mayResume, Bool.and_eq_true, decide_eq_true_eq] at hmay
          exact hresuming.taken htaken (Or.inr hmay.1.1.1.1.2)
      have hkept : t₃.shared = t₂.shared := by simp [hshared, resume, hrefused]
      refine iff_of_false (Stranded.not_reattached ⟨?_, ?_, hafter⟩) ?_
      · exact hkept ▸ hresuming.listener
      · exact fun hrun => absurd (hkept ▸ hrun) hclosed
      · rintro ⟨-, hnone⟩
        obtain ⟨x, hx, htakes⟩ := htaken
        rw [hnone x hx] at htakes
        cases htakes
    · have hrunning₂ : t₂.shared.running = true := by
        rw [hshared] at hrunning
        simp only [resume] at hrunning
        split at hrunning <;> exact hrunning
      have hmay := (hresuming.resumable htaken).mayResume hinv hrunning₂
      refine iff_of_true (Or.inl ?_) ⟨rfl, fun x hx => ?_⟩
      · simp [Open, hshared, resume, hmay, resetRecovery]
      · exact Bool.eq_false_iff.mpr fun htakes => htaken ⟨x, hx, htakes⟩

/-- The media of a recovery has gone and the worker is done; the next tick is about to find that
out. -/
def recovered : List RtspAction :=
  startUp ++ configureMedia 10 20 ++ reportMediaError 10 ++ dispatchRecovery ++
    [.worker, .worker, .signal (.unprepared 10), .callback 0 {}, .callback 0 {}, .watchdog {},
      .tick 0]

/-- The listener is created and nobody comes between: clients are let in again. -/
theorem reattached_iff_recovered :
    ∃ t t₁ t₃, Reachable step (initial 30) t ∧ t.step (.watchdog {}) = some t₁ ∧
      t₁.step (.watchdog { listener := some 5 }) = some t₃ ∧ t₃.shared.running = true ∧
      Reattached t₃ := by
  have hrun : Run step (initial 30) _ _ := Run.ofExec recovered rfl
  refine ⟨_, _, _, hrun.reachable, rfl, rfl, rfl, ?_⟩
  exact (@reattached_iff _ _ _ _ 30 hrun.reachable 0 rfl rfl {} rfl [] .nil (by simp)
    { listener := some 5 } rfl rfl).mpr ⟨rfl, by simp⟩

/-- The listener cannot be created once, and nothing in the server tries again. -/
theorem not_reattached :
    ¬ ∀ fps t now env t₁ others t₂ env' t₃, Reachable step (initial fps) t →
      t.watchdog = .finishing now → t.shared.recoveryReady t.worker.isDone = true →
      t.step (.watchdog env) = some t₁ → Run step t₁ others t₂ →
      (∀ x ∈ others, ∀ env, x.2 ≠ .watchdog env) → t₂.step (.watchdog env') = some t₃ →
      t₃.shared.running = true → Reattached t₃ := by
  intro hall
  have hrun : Run step (initial 30) _ _ := Run.ofExec recovered rfl
  refine Stranded.not_reattached ⟨?_, ?_, ?_⟩ (hall 30 _ 0 {} _ [] _ {} _ hrun.reachable rfl rfl
    rfl .nil (by simp) rfl rfl)
  · rfl
  · rintro ⟨⟩
  · rintro now ⟨⟩

end RtspServer

end EggVision
