import EggVision.Rtsp.State

/-!
# What the critical sections keep

The sections of `RtspState` run in any order, each of them atomically. What a section does to the
recovery fields, to the listener and to the bound source is stated here once for each section, and
then for all of them under one name, `Section`.

## Main definitions

* `Section` — a critical section with its arguments
* `RecoveryInv` — how the recovery fields hang together
* `SameRecovery`, `Section.movesRecovery` — the sections that have to do with the recovery
* `Served` — clients are let in, or a recovery will let them in
* `Rearms` — a change of the source shows in the generation

## Main results

* `RecoveryInv.apply`, `Section.sameRecovery`, `Served.apply_iff`, `Section.rearms`
-/

namespace EggVision

namespace RtspState

/-! ### The recovery invariant -/

/-- How the recovery fields hang together, between any two sections. -/
structure RecoveryInv (s : RtspState) : Prop where
  token : s.recoveryState = .idle ↔ s.recoveryToken = 0
  generation : s.recoveryState = .idle ↔ s.recoveryGeneration = 0
  requested : s.recoveryState = .requested →
    s.currentMedia ≠ none ∧ s.recoveryGeneration = s.mediaGeneration
  closed : s.recoveryState = .running ∨ s.recoveryState = .completed →
    s.appsrc = none ∧ s.listenerSource = none ∧ s.acceptingClients = false
  tearing : s.recoveryState = .running → s.recoveryMediaUnprepared = false →
    s.currentMedia ≠ none ∧ s.recoveryGeneration = s.mediaGeneration
  gone : s.recoveryState = .running ∧ s.recoveryMediaUnprepared = true ∨
    s.recoveryState = .completed → s.currentMedia = none
  bound : s.appsrc ≠ none → s.currentMedia ≠ none
  configured : s.currentMedia ≠ none → s.mediaGeneration ≠ 0

variable {s : RtspState}

theorem RecoveryInv.current_running (h : RecoveryInv s) (hmedia : s.currentMedia ≠ none)
    (hrunning : s.recoveryState = .running) :
    s.recoveryMediaUnprepared = false ∧ s.recoveryGeneration = s.mediaGeneration := by
  have hthere : s.recoveryMediaUnprepared = false :=
    Bool.eq_false_iff.mpr fun hgone => hmedia (h.gone (Or.inl ⟨hrunning, hgone⟩))
  exact ⟨hthere, (h.tearing hrunning hthere).2⟩

theorem RecoveryInv.current_completed (h : RecoveryInv s) (hmedia : s.currentMedia ≠ none) :
    s.recoveryState ≠ .completed :=
  fun hcompleted => hmedia (h.gone (Or.inr hcompleted))

/-- A request has a token: a new one, or that of the recovery it takes the place of. -/
theorem RecoveryInv.requestToken (h : RecoveryInv s) (generation : ℕ) :
    (if decide (s.recoveryState = .idle) || decide (s.recoveryGeneration ≠ generation) then
      s.nextRecoveryToken + 1 else s.recoveryToken) ≠ 0 := by
  split
  · exact Nat.succ_ne_zero _
  next hkept =>
    simp only [Bool.or_eq_true, decide_eq_true_eq, not_or] at hkept
    exact fun hzero => hkept.1 (h.token.mpr hzero)

theorem RecoveryInv.publishStart (now : ℤ) : RecoveryInv (s.publishStart now) := by
  constructor <;> simp [RtspState.publishStart, resetRecovery]

theorem RecoveryInv.retireAll (now : ℤ) : RecoveryInv (s.retireAll now) := by
  constructor <;> simp [RtspState.retireAll, resetRecovery]

theorem RecoveryInv.publishFactory (h : RecoveryInv s) (factory : ℕ) :
    RecoveryInv (s.publishFactory factory).1 := by
  unfold RtspState.publishFactory
  split
  · exact h
  · exact { h with }

/-- Only the listener that `start` publishes is not guarded by the recovery state. -/
theorem RecoveryInv.publishListener (h : RecoveryInv s) (listener : ℕ)
    (hopen : ¬ (s.recoveryState = .running ∨ s.recoveryState = .completed)) :
    RecoveryInv (s.publishListener listener) :=
  { h with closed := fun hclosed => absurd hclosed hopen }

theorem RecoveryInv.publishStop (h : RecoveryInv s) : RecoveryInv s.publishStop.1 := by
  unfold RtspState.publishStop
  split
  · exact h
  · exact { h with }

theorem RecoveryInv.takeSources (h : RecoveryInv s) (done : ℕ → Bool) :
    RecoveryInv (s.takeSources done).1 :=
  { h with closed := fun hclosed => ⟨(h.closed hclosed).1, rfl, rfl⟩ }

theorem RecoveryInv.configure (h : RecoveryInv s) (factory media : ℕ) (now : ℤ) :
    RecoveryInv (s.configure factory media now).1 := by
  unfold RtspState.configure
  split
  · constructor <;> simp
  · exact h

theorem RecoveryInv.failSetup (h : RecoveryInv s) (media : ℕ) :
    RecoveryInv (s.failSetup media) := by
  unfold RtspState.failSetup
  split
  next hmedia =>
    have := h.configured (by simp [hmedia])
    constructor <;> simp [hmedia, this]
  · exact h

theorem RecoveryInv.bind (h : RecoveryInv s) (media source : ℕ) :
    RecoveryInv (s.bind media source).1 := by
  unfold RtspState.bind
  split
  · exact h
  next haccepted =>
    simp only [refusesBinding, Bool.or_eq_true, Bool.and_eq_true, decide_eq_true_eq, not_or,
      not_and, ne_eq, Decidable.not_not] at haccepted
    obtain ⟨hmedia, hother⟩ := haccepted
    have hcurrent : s.currentMedia ≠ none := by simp [hmedia]
    split
    · exact h
    · refine { h with closed := ?_, bound := fun _ => hcurrent }
      rintro (hrunning | hcompleted)
      · exact absurd (h.current_running hcurrent hrunning).2 (hother (Or.inr hrunning))
      · exact absurd hcompleted (h.current_completed hcurrent)

theorem RecoveryInv.markPrepared (h : RecoveryInv s) (media : ℕ) (now : ℤ) :
    RecoveryInv (s.markPrepared media now) := by
  unfold RtspState.markPrepared
  split
  · exact { h with }
  · exact h

/-- A media that goes away takes its source along. If it was being recovered, the generation it
had is the one the recovery was started for, and the recovery goes on without it. -/
theorem RecoveryInv.unprepare (h : RecoveryInv s) (media : ℕ) (now : ℤ) :
    RecoveryInv (s.unprepare media now).1 := by
  unfold RtspState.unprepare
  split
  next hmedia =>
    simp only
    split
    next hrecovered =>
      simp only [recoveredFromError, Bool.and_eq_true, decide_eq_true_eq] at hrecovered
      refine { h with
        requested := fun hrequested => ?_
        closed := fun _ => ⟨rfl, (h.closed (Or.inl hrecovered.1)).2⟩
        tearing := by rintro _ ⟨⟩
        gone := fun _ => rfl
        bound := fun hsource => absurd rfl hsource
        configured := fun hcurrent => absurd rfl hcurrent }
      exact absurd (hrecovered.1.symm.trans hrequested) (by rintro ⟨⟩)
    · constructor <;> simp [resetRecovery]
  · exact h

theorem RecoveryInv.targetState (h : RecoveryInv s) (media : ℕ) (toNull : Bool) (now : ℤ) :
    RecoveryInv (s.targetState media toNull now) := by
  unfold RtspState.targetState
  split
  · exact h
  · exact { h with }

theorem RecoveryInv.reportError (h : RecoveryInv s) (media : ℕ) (now : ℤ) :
    RecoveryInv (s.reportError media now).1 := by
  unfold RtspState.reportError
  split
  next hmedia =>
    have hcurrent : s.currentMedia ≠ none := by simp [hmedia]
    exact { h with
      token := iff_of_false (by rintro ⟨⟩) (h.requestToken s.mediaGeneration)
      generation := iff_of_false (by rintro ⟨⟩) (h.configured hcurrent)
      requested := fun _ => ⟨hcurrent, rfl⟩
      closed := by simp
      tearing := by rintro ⟨⟩
      gone := by simp }
  · exact h

theorem RecoveryInv.checkRecovery (h : RecoveryInv s) (now : ℤ) (done : ℕ → Bool) :
    RecoveryInv (s.checkRecovery now done).1 := by
  simp only [RtspState.checkRecovery]
  split
  next hready =>
    simp only [recoveryReady, Bool.and_eq_true, decide_eq_true_eq] at hready
    have hrunning : s.recoveryState = .running := hready.1.1.1.2
    refine { h with
      token := iff_of_false (by rintro ⟨⟩) fun hzero => ?_
      generation := iff_of_false (by rintro ⟨⟩) hready.1.1.2
      requested := by rintro ⟨⟩
      closed := fun _ => h.closed (Or.inl hrunning)
      tearing := by rintro ⟨⟩
      gone := fun _ => h.gone (Or.inl ⟨hrunning, hready.1.2⟩) }
    exact absurd (hrunning.symm.trans (h.token.mpr hzero)) (by rintro ⟨⟩)
  · exact { h with }

theorem RecoveryInv.resume (h : RecoveryInv s) (listener : Option ℕ) (done : ℕ → Bool) :
    RecoveryInv (s.resume listener done).1 := by
  unfold RtspState.resume
  split
  · split
    next hresume =>
      have hcompleted : s.recoveryState = .completed := by
        simp only [mayResume, Bool.and_eq_true, decide_eq_true_eq] at hresume
        exact hresume.1.1.1.1.2
      have hgone := h.gone (Or.inr hcompleted)
      have hsource := (h.closed (Or.inr hcompleted)).1
      constructor <;> simp [resetRecovery, hgone, hsource]
    · exact h
  · split
    · exact { h with }
    · exact h

theorem RecoveryInv.dropRequest (h : RecoveryInv s) : RecoveryInv s.dropRequest := by
  refine ⟨?_, ?_, ?_, ?_, ?_, ?_, h.bound, h.configured⟩ <;> simp [RtspState.dropRequest]

theorem RecoveryInv.publishRunning (h : RecoveryInv s) {expected : ℕ}
    (hmedia : s.currentMedia ≠ none) (hexpected : s.mediaGeneration = expected) (reason : String)
    (now : ℤ) (id : ℕ) : RecoveryInv (s.publishRunning expected reason now id).1 := by
  have hconfigured := h.configured hmedia
  refine { h with
    token := iff_of_false (by rintro ⟨⟩) ?_
    generation := iff_of_false (by rintro ⟨⟩) (hexpected ▸ hconfigured)
    requested := by rintro ⟨⟩
    closed := fun _ => ⟨rfl, rfl, rfl⟩
    tearing := fun _ _ => ⟨hmedia, hexpected.symm⟩
    gone := by simp [RtspState.publishRunning]
    bound := fun hsource => absurd rfl hsource }
  simp only [RtspState.publishRunning]
  split
  · exact Nat.succ_ne_zero _
  next hnonzero => exact hnonzero

/-- How the locked part of `recoverMedia` leaves the state: untouched, without the stale request it
was called for, or with the recovery running. -/
theorem recoverMedia_cases (expected : ℕ) (reason : String) (now : ℤ) (id : ℕ) (accepts : Bool)
    (s : RtspState) :
    ((s.recoverMedia expected reason now id accepts).1 = s ∧
        ∀ job listener,
          (s.recoverMedia expected reason now id accepts).2 ≠ .dispatched job listener) ∨
      ((s.running = false ∨ s.currentMedia = none ∨ s.mediaGeneration ≠ expected) ∧
        s.isRequested expected = true ∧
        s.recoverMedia expected reason now id accepts = (s.dropRequest, .ignored)) ∨
      (s.running = true ∧ s.currentMedia ≠ none ∧ s.mediaGeneration = expected ∧
        (s.recoveryState = .requested ∨ s.recoveryState = .idle) ∧
        s.recoveryWorker = true ∧ accepts = true ∧
        s.recoverMedia expected reason now id accepts =
          ((s.publishRunning expected reason now id).1,
            .dispatched (s.publishRunning expected reason now id).2 s.listenerSource)) := by
  unfold RtspState.recoverMedia
  by_cases hstale : (!s.running || s.currentMedia.isNone ||
      decide (s.mediaGeneration ≠ expected)) = true
  · rw [if_pos hstale]
    simp only [Bool.or_eq_true, Bool.not_eq_true', Option.isNone_iff_eq_none,
      decide_eq_true_eq, or_assoc] at hstale
    by_cases hrequested : s.isRequested expected = true
    · exact Or.inr (Or.inl ⟨hstale, hrequested, by rw [if_pos hrequested]⟩)
    · exact Or.inl ⟨by rw [if_neg hrequested], by simp⟩
  · rw [if_neg hstale]
    simp only [Bool.or_eq_true, Bool.not_eq_true', Option.isNone_iff_eq_none,
      decide_eq_true_eq, not_or, Bool.not_eq_false, Decidable.not_not] at hstale
    obtain ⟨⟨hrunning, hmedia⟩, hexpected⟩ := hstale
    -- `Running` and `Completed` are ignored, a worker that takes no job throws
    cases hstate : s.recoveryState <;> cases hworker : s.recoveryWorker <;> cases accepts <;>
      simp_all

theorem RecoveryInv.recoverMedia (h : RecoveryInv s) (expected : ℕ) (reason : String) (now : ℤ)
    (id : ℕ) (accepts : Bool) :
    RecoveryInv (s.recoverMedia expected reason now id accepts).1 := by
  rcases recoverMedia_cases expected reason now id accepts s with
    ⟨heq, -⟩ | ⟨-, -, heq⟩ | ⟨-, hmedia, hexpected, -, -, -, heq⟩
  · rw [heq]
    exact h
  · rw [heq]
    exact h.dropRequest
  · rw [heq]
    exact h.publishRunning hmedia hexpected reason now id

theorem RecoveryInv.failDispatch (h : RecoveryInv s) (expected : ℕ) :
    RecoveryInv (s.failDispatch expected) := by
  unfold RtspState.failDispatch
  split
  · exact h.dropRequest
  · split
    · exact { h with }
    · exact h

theorem RecoveryInv.recordPush (h : RecoveryInv s) (mediaGeneration : ℕ) (flow : FlowReturn) :
    RecoveryInv (s.recordPush mediaGeneration flow) := by
  unfold RtspState.recordPush
  split
  next hcurrent =>
    simp only [Bool.and_eq_true, Option.isSome_iff_ne_none, decide_eq_true_eq] at hcurrent
    obtain ⟨hmedia, rfl⟩ := hcurrent
    cases flow with
    | ok => exact { h with }
    | flushing => exact { h with }
    | error =>
      simp only
      split
      · exact { h with
          token := iff_of_false (by rintro ⟨⟩) (h.requestToken s.mediaGeneration)
          generation := iff_of_false (by rintro ⟨⟩) (h.configured hmedia)
          requested := fun _ => ⟨hmedia, rfl⟩
          closed := by simp
          tearing := by rintro ⟨⟩
          gone := by simp }
      · exact { h with }
  · exact h

/-! ### All sections under one name -/

/-- A critical section with its arguments. `publishServer` and `publishRecoveryWorker` are the
assignments to the two pointers that `start` and `stopLocked` make without the lock. -/
inductive Section
  | publishStart (now : ℤ)
  | publishServer (present : Bool)
  | publishFactory (factory : ℕ)
  | publishRecoveryWorker
  | publishListener (listener : ℕ)
  | publishWatchdog (watchdog : ℕ)
  | publishStop
  | takeSources (done : ℕ → Bool)
  | reportDelay
  | takeRecoveryWorker
  | retireAll (now : ℤ)
  | configure (factory media : ℕ) (now : ℤ)
  | failSetup (media : ℕ)
  | bind (media source : ℕ)
  | markPrepared (media : ℕ) (now : ℤ)
  | unprepare (media : ℕ) (now : ℤ)
  | targetState (media : ℕ) (toNull : Bool) (now : ℤ)
  | reportError (media : ℕ) (now : ℤ)
  | checkRecovery (now : ℤ) (done : ℕ → Bool)
  | resume (listener : Option ℕ) (done : ℕ → Bool)
  | recoverMedia (expected : ℕ) (reason : String) (now : ℤ) (id : ℕ) (accepts : Bool)
  | failDispatch (expected : ℕ)
  | recordPush (mediaGeneration : ℕ) (flow : FlowReturn)

/-- What a section leaves behind. -/
def Section.apply (s : RtspState) : Section → RtspState
  | .publishStart now => s.publishStart now
  | .publishServer present => { s with server := present }
  | .publishFactory factory => (s.publishFactory factory).1
  | .publishRecoveryWorker => { s with recoveryWorker := true }
  | .publishListener listener => s.publishListener listener
  | .publishWatchdog watchdog => s.publishWatchdog watchdog
  | .publishStop => s.publishStop.1
  | .takeSources done => (s.takeSources done).1
  | .reportDelay => s.reportDelay
  | .takeRecoveryWorker => s.takeRecoveryWorker
  | .retireAll now => s.retireAll now
  | .configure factory media now => (s.configure factory media now).1
  | .failSetup media => s.failSetup media
  | .bind media source => (s.bind media source).1
  | .markPrepared media now => s.markPrepared media now
  | .unprepare media now => (s.unprepare media now).1
  | .targetState media toNull now => s.targetState media toNull now
  | .reportError media now => (s.reportError media now).1
  | .checkRecovery now done => (s.checkRecovery now done).1
  | .resume listener done => (s.resume listener done).1
  | .recoverMedia expected reason now id accepts =>
    (s.recoverMedia expected reason now id accepts).1
  | .failDispatch expected => s.failDispatch expected
  | .recordPush mediaGeneration flow => s.recordPush mediaGeneration flow

/-- The sections of `start` and of `stopLocked`. -/
def Section.byOwner : Section → Bool
  | .publishStart _ | .publishServer _ | .publishFactory _ | .publishRecoveryWorker
  | .publishListener _ | .publishWatchdog _ | .publishStop | .takeSources _ | .reportDelay
  | .takeRecoveryWorker | .retireAll _ => true
  | _ => false

theorem RecoveryInv.apply (h : RecoveryInv s) (sec : Section)
    (hlisten : ∀ listener, sec = .publishListener listener →
      ¬ (s.recoveryState = .running ∨ s.recoveryState = .completed)) :
    RecoveryInv (sec.apply s) := by
  cases sec with
  | publishStart now => exact .publishStart now
  | publishServer present =>
    exact { h with }
  | publishFactory factory => exact h.publishFactory factory
  | publishRecoveryWorker =>
    exact { h with }
  | publishListener listener => exact h.publishListener listener (hlisten listener rfl)
  | publishWatchdog watchdog =>
    exact { h with }
  | publishStop => exact h.publishStop
  | takeSources done => exact h.takeSources done
  | reportDelay =>
    exact { h with }
  | takeRecoveryWorker =>
    exact { h with }
  | retireAll now => exact .retireAll now
  | configure factory media now => exact h.configure factory media now
  | failSetup media => exact h.failSetup media
  | bind media source => exact h.bind media source
  | markPrepared media now => exact h.markPrepared media now
  | unprepare media now => exact h.unprepare media now
  | targetState media toNull now => exact h.targetState media toNull now
  | reportError media now => exact h.reportError media now
  | checkRecovery now done => exact h.checkRecovery now done
  | resume listener done => exact h.resume listener done
  | recoverMedia expected reason now id accepts =>
    exact h.recoverMedia expected reason now id accepts
  | failDispatch expected => exact h.failDispatch expected
  | recordPush mediaGeneration flow => exact h.recordPush mediaGeneration flow

/-- What only `start` and `stopLocked` write is as it was. -/
structure SameEpoch (s s' : RtspState) : Prop where
  running : s'.running = s.running
  server : s'.server = s.server
  recoveryWorker : s'.recoveryWorker = s.recoveryWorker
  factory : s'.currentFactory = s.currentFactory

theorem SameEpoch.refl (s : RtspState) : SameEpoch s s := ⟨rfl, rfl, rfl, rfl⟩

theorem Section.sameEpoch {sec : Section} (h : sec.byOwner = false) (s : RtspState) :
    SameEpoch s (sec.apply s) := by
  have hsame := SameEpoch.refl s
  cases sec with
  | recoverMedia expected reason now id accepts =>
    simp only [Section.apply]
    rcases recoverMedia_cases expected reason now id accepts s with
      ⟨heq, -⟩ | ⟨-, -, heq⟩ | ⟨-, -, -, -, -, -, heq⟩ <;> rw [heq] <;> exact { hsame with }
  | configure factory media now =>
    simp only [Section.apply, RtspState.configure]
    split <;> exact { hsame with }
  | failSetup media =>
    simp only [Section.apply, RtspState.failSetup]
    split <;> exact { hsame with }
  | bind media source =>
    simp only [Section.apply, RtspState.bind]
    split
    · exact hsame
    · split <;> exact { hsame with }
  | markPrepared media now =>
    simp only [Section.apply, RtspState.markPrepared]
    split <;> exact { hsame with }
  | unprepare media now =>
    simp only [Section.apply, RtspState.unprepare]
    split
    · simp only
      split <;> exact { hsame with }
    · exact hsame
  | targetState media toNull now =>
    simp only [Section.apply, RtspState.targetState]
    split <;> exact { hsame with }
  | reportError media now =>
    simp only [Section.apply, RtspState.reportError]
    split <;> exact { hsame with }
  | checkRecovery now done => exact { hsame with }
  | resume listener done =>
    simp only [Section.apply, RtspState.resume]
    split <;> split <;> exact { hsame with }
  | failDispatch expected =>
    simp only [Section.apply, RtspState.failDispatch]
    split
    · exact { hsame with }
    · split <;> exact { hsame with }
  | recordPush mediaGeneration flow =>
    simp only [Section.apply, RtspState.recordPush]
    split
    · cases flow with
      | ok => exact { hsame with }
      | flushing => exact { hsame with }
      | error =>
        simp only
        split <;> exact { hsame with }
    · exact hsame
  | publishStart now => cases h
  | publishServer present => cases h
  | publishFactory factory => cases h
  | publishRecoveryWorker => cases h
  | publishListener listener => cases h
  | publishWatchdog watchdog => cases h
  | publishStop => cases h
  | takeSources done => cases h
  | reportDelay => cases h
  | takeRecoveryWorker => cases h
  | retireAll now => cases h

/-! ### What a section does to a recovery -/

/-- A recovery is what it was, or has completed. -/
structure Carries (s s' : RtspState) : Prop where
  state : s'.recoveryState = s.recoveryState ∨
    s.recoveryState = .running ∧ s'.recoveryState = .completed
  job : s'.recoveryJob = s.recoveryJob
  token : s'.recoveryToken = s.recoveryToken
  generation : s'.recoveryGeneration = s.recoveryGeneration

/-- A recovery goes on, and no push has failed. -/
structure GoesOn (s s' : RtspState) : Prop extends Carries s s' where
  failures : s'.consecutivePushFailures = s.consecutivePushFailures ∨
    s'.consecutivePushFailures = 0

theorem GoesOn.refl (s : RtspState) : GoesOn s s :=
  ⟨⟨Or.inl rfl, rfl, rfl, rfl⟩, Or.inl rfl⟩

theorem Carries.recovering {s' : RtspState} (h : Carries s s')
    (hafter : s'.recoveryState = .running ∨ s'.recoveryState = .completed) :
    s.recoveryState = .running ∨ s.recoveryState = .completed := by
  rcases h.state with hsame | ⟨hrunning, -⟩
  · rwa [hsame] at hafter
  · exact Or.inl hrunning

theorem Carries.running {s' : RtspState} (h : Carries s s') (hafter : s'.recoveryState = .running) :
    s.recoveryState = .running := by
  rcases h.state with hsame | ⟨hrunning, -⟩
  · exact hsame ▸ hafter
  · exact hrunning

theorem GoesOn.checkRecovery (now : ℤ) (done : ℕ → Bool) (s : RtspState) :
    GoesOn s (s.checkRecovery now done).1 := by
  refine ⟨⟨?_, rfl, rfl, rfl⟩, Or.inl rfl⟩
  simp only [RtspState.checkRecovery]
  split
  next hready =>
    simp only [recoveryReady, Bool.and_eq_true, decide_eq_true_eq] at hready
    exact Or.inr ⟨hready.1.1.1.2, rfl⟩
  · exact Or.inl rfl

/-- A push result asks for a recovery, or only counts failures. -/
theorem recordPush_recovery (mediaGeneration : ℕ) (flow : FlowReturn) (s : RtspState) :
    (s.recordPush mediaGeneration flow).recoveryState = .requested ∨
      ∃ failures, s.recordPush mediaGeneration flow =
        { s with consecutivePushFailures := failures } := by
  unfold RtspState.recordPush
  split
  · cases flow with
    | ok => exact Or.inr ⟨_, rfl⟩
    | flushing => exact Or.inr ⟨_, rfl⟩
    | error =>
      simp only
      split
      · exact Or.inl rfl
      · exact Or.inr ⟨_, rfl⟩
  · exact Or.inr ⟨_, rfl⟩

/-- Nothing has happened to the recovery. -/
structure SameRecovery (s s' : RtspState) : Prop where
  state : s'.recoveryState = s.recoveryState
  job : s'.recoveryJob = s.recoveryJob
  token : s'.recoveryToken = s.recoveryToken
  nextToken : s'.nextRecoveryToken = s.nextRecoveryToken
  generation : s'.recoveryGeneration = s.recoveryGeneration
  unprepared : s'.recoveryMediaUnprepared = s.recoveryMediaUnprepared
  failures : s'.consecutivePushFailures = s.consecutivePushFailures ∨
    s'.consecutivePushFailures = 0

theorem SameRecovery.refl (s : RtspState) : SameRecovery s s :=
  ⟨rfl, rfl, rfl, rfl, rfl, rfl, Or.inl rfl⟩

theorem SameRecovery.goesOn {s' : RtspState} (h : SameRecovery s s') : GoesOn s s' :=
  ⟨⟨Or.inl h.state, h.job, h.token, h.generation⟩, h.failures⟩

/-- The sections that have to do with the recovery. -/
def Section.movesRecovery : Section → Bool
  | .publishStart _ | .retireAll _ | .configure .. | .failSetup _ | .unprepare _ _
  | .reportError _ _ | .checkRecovery _ _ | .resume _ _ | .recoverMedia .. | .failDispatch _
  | .recordPush _ _ => true
  | .publishServer _ | .publishFactory _ | .publishRecoveryWorker | .publishListener _
  | .publishWatchdog _ | .publishStop | .takeSources _ | .reportDelay | .takeRecoveryWorker
  | .bind _ _ | .markPrepared _ _ | .targetState .. => false

theorem Section.sameRecovery (sec : Section) (h : sec.movesRecovery = false) (s : RtspState) :
    SameRecovery s (sec.apply s) := by
  have hsame := SameRecovery.refl s
  cases sec with
  | bind media source =>
    simp only [Section.apply, RtspState.bind]
    split
    · exact hsame
    · split <;> exact { hsame with }
  | markPrepared media now =>
    simp only [Section.apply, RtspState.markPrepared]
    split
    · exact { hsame with failures := Or.inr rfl }
    · exact hsame
  | targetState media toNull now =>
    simp only [Section.apply, RtspState.targetState]
    split <;> exact { hsame with }
  | publishFactory factory =>
    simp only [Section.apply, RtspState.publishFactory]
    split <;> exact { hsame with }
  | publishStop =>
    simp only [Section.apply, RtspState.publishStop]
    split <;> exact { hsame with }
  | publishServer | publishRecoveryWorker | publishListener | publishWatchdog | takeSources
  | reportDelay | takeRecoveryWorker => exact { hsame with }
  | _ => cases h

/-- After a section there is no recovery that runs or has completed, or it goes on, or it has just
begun. Only a push result adds to the push failures. -/
theorem Section.recovery_cases (sec : Section) (s : RtspState) :
    ((sec.apply s).recoveryState = .idle ∨ (sec.apply s).recoveryState = .requested) ∨
      GoesOn s (sec.apply s) ∨
      (∃ expected reason now id accepts, sec = .recoverMedia expected reason now id accepts ∧
        sec.apply s = (s.publishRunning expected reason now id).1) ∨
      ∃ mediaGeneration flow, sec = .recordPush mediaGeneration flow := by
  have hsame := GoesOn.refl s
  by_cases hmoves : sec.movesRecovery = false
  · exact Or.inr (Or.inl (sec.sameRecovery hmoves s).goesOn)
  cases sec with
  | recordPush mediaGeneration flow =>
    exact Or.inr (Or.inr (Or.inr ⟨mediaGeneration, flow, rfl⟩))
  | recoverMedia expected reason now id accepts =>
    rcases recoverMedia_cases expected reason now id accepts s with
      ⟨heq, -⟩ | ⟨-, -, heq⟩ | ⟨-, -, -, -, -, -, heq⟩
    · simp only [Section.apply, heq]
      exact Or.inr (Or.inl hsame)
    · simp only [Section.apply, heq]
      exact Or.inl (Or.inl rfl)
    · refine Or.inr (Or.inr (Or.inl ⟨expected, reason, now, id, accepts, rfl, ?_⟩))
      simp only [Section.apply, heq]
  | checkRecovery now done => exact Or.inr (Or.inl (.checkRecovery now done s))
  | publishStart now => exact Or.inl (Or.inl rfl)
  | retireAll now => exact Or.inl (Or.inl rfl)
  | configure factory media now =>
    simp only [Section.apply, RtspState.configure]
    split
    · exact Or.inl (Or.inl rfl)
    · exact Or.inr (Or.inl hsame)
  | failSetup media =>
    simp only [Section.apply, RtspState.failSetup]
    split
    · exact Or.inl (Or.inr rfl)
    · exact Or.inr (Or.inl hsame)
  | reportError media now =>
    simp only [Section.apply, RtspState.reportError]
    split
    · exact Or.inl (Or.inr rfl)
    · exact Or.inr (Or.inl hsame)
  | unprepare media now =>
    simp only [Section.apply, RtspState.unprepare]
    split
    · simp only
      split
      · exact Or.inr (Or.inl { hsame with failures := Or.inr rfl })
      · exact Or.inl (Or.inl rfl)
    · exact Or.inr (Or.inl hsame)
  | resume listener done =>
    simp only [Section.apply, RtspState.resume]
    split
    · split
      · exact Or.inl (Or.inl rfl)
      · exact Or.inr (Or.inl hsame)
    · split <;> exact Or.inr (Or.inl { hsame with })
  | failDispatch expected =>
    simp only [Section.apply, RtspState.failDispatch]
    split
    · exact Or.inl (Or.inl rfl)
    · split <;> exact Or.inr (Or.inl { hsame with })
  | _ => exact absurd rfl hmoves

/-- Only `onMediaUnprepared` finds that the media of a recovery has gone. -/
theorem Section.unprepares {sec : Section}
    (h : (sec.apply s).recoveryMediaUnprepared = true) :
    s.recoveryMediaUnprepared = true ∨
      ∃ media now, sec = .unprepare media now ∧ s.currentMedia = some media ∧
        s.recoveryGeneration = s.mediaGeneration := by
  by_cases hmoves : sec.movesRecovery = false
  · exact Or.inl ((sec.sameRecovery hmoves s).unprepared ▸ h)
  cases sec with
  | publishStart now => cases h
  | retireAll now => cases h
  | recordPush mediaGeneration flow =>
    refine Or.inl ?_
    revert h
    simp only [Section.apply, RtspState.recordPush]
    split
    · cases flow with
      | ok => exact id
      | flushing => exact id
      | error =>
        simp only
        split <;> exact id
    · exact id
  | recoverMedia expected reason now id accepts =>
    simp only [Section.apply] at h
    rcases recoverMedia_cases expected reason now id accepts s with
      ⟨heq, -⟩ | ⟨-, -, heq⟩ | ⟨-, -, -, -, -, -, heq⟩ <;> rw [heq] at h
    · exact Or.inl h
    · exact Or.inl h
    · cases h
  | unprepare media now =>
    simp only [Section.apply, RtspState.unprepare] at h
    split at h
    next hmedia =>
      simp only at h
      split at h
      next hrecovered =>
        simp only [recoveredFromError, Bool.and_eq_true, decide_eq_true_eq] at hrecovered
        exact Or.inr ⟨media, now, rfl, hmedia, hrecovered.2⟩
      · cases h
    · exact Or.inl h
  | resume listener done =>
    simp only [Section.apply, RtspState.resume] at h
    split at h
    · split at h
      · cases h
      · exact Or.inl h
    · split at h <;> exact Or.inl h
  | failDispatch expected =>
    simp only [Section.apply, RtspState.failDispatch] at h
    split at h
    · exact Or.inl h
    · split at h <;> exact Or.inl h
  | configure factory media now =>
    simp only [Section.apply, RtspState.configure] at h
    split at h <;> exact Or.inl h
  | failSetup media =>
    simp only [Section.apply, RtspState.failSetup] at h
    split at h <;> exact Or.inl h
  | reportError media now =>
    simp only [Section.apply, RtspState.reportError] at h
    split at h <;> exact Or.inl h
  | checkRecovery now done => exact Or.inl h
  | _ => exact absurd rfl hmoves

/-- A recovery that runs or has completed belongs to the job with the current token. -/
def HasJob (s : RtspState) : Prop :=
  s.recoveryState = .running ∨ s.recoveryState = .completed →
    ∃ job, s.recoveryJob = some job ∧ job.token = s.recoveryToken

theorem HasJob.apply (h : HasJob s) (sec : Section) : HasJob (sec.apply s) := by
  intro hafter
  rcases sec.recovery_cases s with hnone | hgoes |
    ⟨expected, reason, now, id, accepts, -, heq⟩ | ⟨mediaGeneration, flow, rfl⟩
  · rcases hnone with hnone | hnone <;> simp [hnone] at hafter
  · obtain ⟨job, hjob, htoken⟩ := h (hgoes.recovering hafter)
    exact ⟨job, hgoes.job.trans hjob, htoken.trans hgoes.token.symm⟩
  · rw [heq]
    exact ⟨_, rfl, rfl⟩
  · simp only [Section.apply] at hafter ⊢
    rcases recordPush_recovery mediaGeneration flow s with hnone | ⟨failures, heq⟩
    · simp [hnone] at hafter
    · rw [heq] at hafter ⊢
      exact h hafter

/-- Only the watchdog gets a recovery to run. -/
theorem Section.becomesRunning {sec : Section}
    (hrecover : ∀ expected reason now id accepts,
      sec ≠ .recoverMedia expected reason now id accepts)
    (h : (sec.apply s).recoveryState = .running ∨ (sec.apply s).recoveryState = .completed) :
    s.recoveryState = .running ∨ s.recoveryState = .completed := by
  rcases sec.recovery_cases s with hnone | hgoes |
    ⟨expected, reason, now, id, accepts, hsec, -⟩ | ⟨mediaGeneration, flow, rfl⟩
  · rcases hnone with hnone | hnone <;> simp [hnone] at h
  · exact hgoes.recovering h
  · exact absurd hsec (hrecover expected reason now id accepts)
  · simp only [Section.apply] at h
    rcases recordPush_recovery mediaGeneration flow s with hnone | ⟨failures, heq⟩
    · simp [hnone] at h
    · rwa [heq] at h

/-- A recovery starts without push failures, and while it runs only the feeder adds one. -/
theorem Section.running_failures {sec : Section}
    (hpush : ∀ mediaGeneration flow, sec ≠ .recordPush mediaGeneration flow)
    (h : (sec.apply s).recoveryState = .running) :
    (sec.apply s).consecutivePushFailures = 0 ∨
      s.recoveryState = .running ∧
        (sec.apply s).consecutivePushFailures = s.consecutivePushFailures := by
  rcases sec.recovery_cases s with hnone | hgoes |
    ⟨expected, reason, now, id, accepts, -, heq⟩ | ⟨mediaGeneration, flow, hsec⟩
  · rcases hnone with hnone | hnone <;> simp [hnone] at h
  · rcases hgoes.failures with hsame | hzero
    · exact Or.inr ⟨hgoes.running h, hsame⟩
    · exact Or.inl hzero
  · rw [heq]
    exact Or.inl rfl
  · exact absurd hsec (hpush mediaGeneration flow)

/-! ### The listener -/

/-- Clients are let in, or a recovery is on that will let them in. -/
def Served (s : RtspState) : Prop :=
  (s.listenerSource ≠ none ∧ s.acceptingClients = true) ∨
    s.recoveryState = .running ∨ s.recoveryState = .completed

/-- The section overwrites a recovery that has closed the listener: an error of the media that is
being torn down, a setup of it that failed, or a new media before the listener is back. -/
def Section.overwrites (s : RtspState) : Section → Bool
  | .reportError media _ | .failSetup media =>
    decide (s.currentMedia = some media) && decide (s.recoveryState = .running)
  | .configure factory _ _ =>
    s.acceptsMedia factory &&
      (decide (s.recoveryState = .running) || decide (s.recoveryState = .completed))
  | _ => false

theorem Section.recovering_of_overwrites {sec : Section} (h : sec.overwrites s = true) :
    s.recoveryState = .running ∨ s.recoveryState = .completed := by
  cases sec with
  | reportError media now =>
    simp only [Section.overwrites, Bool.and_eq_true, decide_eq_true_eq] at h
    exact Or.inl h.2
  | failSetup media =>
    simp only [Section.overwrites, Bool.and_eq_true, decide_eq_true_eq] at h
    exact Or.inl h.2
  | configure factory media now =>
    simp only [Section.overwrites, Bool.and_eq_true, Bool.or_eq_true, decide_eq_true_eq] at h
    exact h.2
  | _ => cases h

/-- The sections with which `start` and `stopLocked` give the listener up. -/
def Section.givesUpListener : Section → Bool
  | .publishStart _ | .takeSources _ | .retireAll _ => true
  | _ => false

/-- Clients are let in exactly while there is no recovery to wait for. -/
theorem Served.open_iff (hinv : RecoveryInv s) (h : Served s) :
    (s.listenerSource ≠ none ∧ s.acceptingClients = true) ↔
      ¬ (s.recoveryState = .running ∨ s.recoveryState = .completed) := by
  constructor
  · rintro ⟨hopen, -⟩ hrecovering
    exact hopen (hinv.closed hrecovering).2.1
  · intro hnone
    exact h.resolve_right hnone

/-- A section that leaves no recovery behind, and the listener as it is. -/
theorem Served.dropped_iff (hinv : RecoveryInv s) (h : Served s) {s' : RtspState}
    (hlistener : s'.listenerSource = s.listenerSource)
    (haccepting : s'.acceptingClients = s.acceptingClients)
    (hstate : s'.recoveryState = .idle ∨ s'.recoveryState = .requested) :
    Served s' ↔ ¬ (s.recoveryState = .running ∨ s.recoveryState = .completed) := by
  unfold Served
  rw [hlistener, haccepting, h.open_iff hinv]
  rcases hstate with hstate | hstate <;> simp [hstate]

theorem Served.dropRequest (h : Served s) {generation : ℕ}
    (hrequested : s.isRequested generation = true) : Served s.dropRequest := by
  simp only [isRequested, Bool.and_eq_true, decide_eq_true_eq] at hrequested
  refine Or.inl (h.resolve_right ?_)
  rw [hrequested.1]
  simp

theorem Served.recordPush (h : Served s) {mediaGeneration : ℕ} {flow : FlowReturn}
    (hinv : RecoveryInv s) (hpush : s.recoveryState = .running → s.consecutivePushFailures = 0) :
    Served (s.recordPush mediaGeneration flow) := by
  unfold RtspState.recordPush
  split
  next hcurrent =>
    simp only [Bool.and_eq_true, Option.isSome_iff_ne_none] at hcurrent
    cases flow with
    | ok => exact h
    | flushing => exact h
    | error =>
      simp only
      split
      next hmany =>
        -- a media that is being recovered has too few failures, and one that was has gone
        refine Or.inl ((h.open_iff hinv).mpr ?_)
        rintro (hrunning | hcompleted)
        · have := hpush hrunning
          omega
        · exact hinv.current_completed hcurrent.1 hcompleted
      · exact h
  · exact h

theorem Served.unprepare (hinv : RecoveryInv s) (h : Served s) (media : ℕ) (now : ℤ) :
    Served (s.unprepare media now).1 := by
  unfold RtspState.unprepare
  split
  next hmedia =>
    simp only
    split
    · exact h
    next hother =>
      have hcurrent : s.currentMedia ≠ none := by simp [hmedia]
      refine Or.inl ((h.open_iff hinv).mpr ?_)
      rintro (hrunning | hcompleted)
      · have hgeneration := (hinv.current_running hcurrent hrunning).2
        exact hother (by simp [recoveredFromError, hrunning, hgeneration])
      · exact hinv.current_completed hcurrent hcompleted
  · exact h

theorem Served.apply_iff (hinv : RecoveryInv s) (h : Served s) {sec : Section}
    (howner : sec.givesUpListener = false)
    (hpush : ∀ mediaGeneration flow, sec = .recordPush mediaGeneration flow →
      s.recoveryState = .running → s.consecutivePushFailures = 0) :
    Served (sec.apply s) ↔ sec.overwrites s = false := by
  cases sec with
  | publishStart now => cases howner
  | takeSources done => cases howner
  | retireAll now => cases howner
  | recordPush mediaGeneration flow =>
    exact iff_of_true (h.recordPush hinv (hpush mediaGeneration flow rfl)) rfl
  | unprepare media now => exact iff_of_true (.unprepare hinv h media now) rfl
  | recoverMedia expected reason now id accepts =>
    refine iff_of_true ?_ rfl
    simp only [Section.apply]
    rcases recoverMedia_cases expected reason now id accepts s with
      ⟨heq, -⟩ | ⟨-, hrequested, heq⟩ | ⟨-, -, -, -, -, -, heq⟩ <;> rw [heq]
    · exact h
    · exact h.dropRequest hrequested
    · exact Or.inr (Or.inl rfl)
  | failDispatch expected =>
    refine iff_of_true ?_ rfl
    simp only [Section.apply, RtspState.failDispatch]
    split
    next hrequested => exact h.dropRequest hrequested
    · split <;> exact h
  | checkRecovery now done =>
    refine iff_of_true ?_ rfl
    simp only [Section.apply, RtspState.checkRecovery, Served]
    split
    · exact Or.inr (Or.inr rfl)
    · exact h
  | resume listener done =>
    refine iff_of_true ?_ rfl
    simp only [Section.apply, RtspState.resume]
    split
    · split
      · exact Or.inl ⟨by rintro ⟨⟩, rfl⟩
      · exact h
    · split <;> exact h
  | configure factory media now =>
    simp only [Section.apply, RtspState.configure, Section.overwrites]
    split
    next haccepts =>
      refine Iff.trans (Served.dropped_iff hinv h rfl rfl (Or.inl rfl)) ?_
      simp [haccepts]
    next hrefuses => exact iff_of_true h (by simp [hrefuses])
  | failSetup media =>
    simp only [Section.apply, RtspState.failSetup, Section.overwrites]
    split
    next hmedia =>
      refine Iff.trans (Served.dropped_iff hinv h rfl rfl (Or.inr rfl)) ?_
      simp [hmedia, hinv.current_completed (by simp [hmedia])]
    next hother => exact iff_of_true h (by simp [hother])
  | reportError media now =>
    simp only [Section.apply, RtspState.reportError, Section.overwrites]
    split
    next hmedia =>
      refine Iff.trans (Served.dropped_iff hinv h rfl rfl (Or.inr rfl)) ?_
      simp [hmedia, hinv.current_completed (by simp [hmedia])]
    next hother => exact iff_of_true h (by simp [hother])
  | publishListener listener => exact iff_of_true (Or.inl ⟨by rintro ⟨⟩, rfl⟩) rfl
  | bind media source =>
    refine iff_of_true ?_ rfl
    simp only [Section.apply, RtspState.bind]
    split
    · exact h
    · split <;> exact h
  | markPrepared media now =>
    refine iff_of_true ?_ rfl
    simp only [Section.apply, RtspState.markPrepared]
    split <;> exact h
  | targetState media toNull now =>
    refine iff_of_true ?_ rfl
    simp only [Section.apply, RtspState.targetState]
    split <;> exact h
  | publishFactory factory =>
    refine iff_of_true ?_ rfl
    simp only [Section.apply, RtspState.publishFactory]
    split <;> exact h
  | publishStop =>
    refine iff_of_true ?_ rfl
    simp only [Section.apply, RtspState.publishStop]
    split <;> exact h
  | publishServer present => exact iff_of_true h rfl
  | publishRecoveryWorker => exact iff_of_true h rfl
  | publishWatchdog watchdog => exact iff_of_true h rfl
  | reportDelay => exact iff_of_true h rfl
  | takeRecoveryWorker => exact iff_of_true h rfl

/-- The sections that publish a listener or take it. -/
def Section.movesListener : Section → Bool
  | .publishStart _ | .publishListener _ | .takeSources _ | .resume _ _
  | .recoverMedia _ _ _ _ _ => true
  | _ => false

theorem Section.sameListener (sec : Section) (h : sec.movesListener = false) (s : RtspState) :
    (sec.apply s).listenerSource = s.listenerSource := by
  cases sec with
  | publishStart now => cases h
  | publishListener listener => cases h
  | takeSources done => cases h
  | resume listener done => cases h
  | recoverMedia expected reason now id accepts => cases h
  | publishFactory factory =>
    simp only [Section.apply, RtspState.publishFactory]
    split <;> rfl
  | publishStop =>
    simp only [Section.apply, RtspState.publishStop]
    split <;> rfl
  | configure factory media now =>
    simp only [Section.apply, RtspState.configure]
    split <;> rfl
  | failSetup media =>
    simp only [Section.apply, RtspState.failSetup]
    split <;> rfl
  | bind media source =>
    simp only [Section.apply, RtspState.bind]
    split
    · rfl
    · split <;> rfl
  | markPrepared media now =>
    simp only [Section.apply, RtspState.markPrepared]
    split <;> rfl
  | unprepare media now =>
    simp only [Section.apply, RtspState.unprepare]
    split
    · simp only
      split <;> rfl
    · rfl
  | targetState media toNull now =>
    simp only [Section.apply, RtspState.targetState]
    split <;> rfl
  | reportError media now =>
    simp only [Section.apply, RtspState.reportError]
    split <;> rfl
  | failDispatch expected =>
    simp only [Section.apply, RtspState.failDispatch]
    split
    · rfl
    · split <;> rfl
  | recordPush mediaGeneration flow =>
    simp only [Section.apply, RtspState.recordPush]
    split
    · cases flow with
      | ok => rfl
      | flushing => rfl
      | error =>
        simp only
        split <;> rfl
    · rfl
  | _ => rfl

/-! ### The bound source -/

/-- The generation never goes back, and no source is bound or given up without a new one. -/
structure Rearms (s s' : RtspState) : Prop where
  monotone : s.generation ≤ s'.generation
  source : s'.generation = s.generation → s'.appsrc = s.appsrc

theorem Rearms.refl (s : RtspState) : Rearms s s :=
  ⟨Nat.le_refl _, fun _ => rfl⟩

theorem Rearms.next {s' : RtspState} (h : s'.generation = s.generation + 1) : Rearms s s' :=
  ⟨by omega, fun hsame => by omega⟩

/-- The sections that bind a source, give one up, or change the media. -/
def Section.movesSource : Section → Bool
  | .publishStart _ | .retireAll _ | .configure _ _ _ | .bind _ _ | .unprepare _ _
  | .recoverMedia _ _ _ _ _ => true
  | _ => false

/-- The media and the source are as they were, with their generations. -/
structure SameSource (s s' : RtspState) : Prop where
  generation : s'.generation = s.generation
  source : s'.appsrc = s.appsrc
  mediaGeneration : s'.mediaGeneration = s.mediaGeneration
  media : s'.currentMedia = s.currentMedia

theorem SameSource.refl (s : RtspState) : SameSource s s := ⟨rfl, rfl, rfl, rfl⟩

theorem SameSource.recordPush (mediaGeneration : ℕ) (flow : FlowReturn) (s : RtspState) :
    SameSource s (s.recordPush mediaGeneration flow) := by
  unfold RtspState.recordPush
  split
  · cases flow with
    | ok => exact { SameSource.refl s with }
    | flushing => exact { SameSource.refl s with }
    | error =>
      simp only
      split <;> exact { SameSource.refl s with }
  · exact .refl s

theorem Section.sameSource (sec : Section) (h : sec.movesSource = false) (s : RtspState) :
    SameSource s (sec.apply s) := by
  have hsame := SameSource.refl s
  cases sec with
  | publishStart now => cases h
  | retireAll now => cases h
  | configure factory media now => cases h
  | bind media source => cases h
  | unprepare media now => cases h
  | recoverMedia expected reason now id accepts => cases h
  | recordPush mediaGeneration flow => exact .recordPush mediaGeneration flow s
  | resume listener done =>
    simp only [Section.apply, RtspState.resume]
    split <;> split <;> exact { hsame with }
  | failDispatch expected =>
    simp only [Section.apply, RtspState.failDispatch]
    split
    · exact { hsame with }
    · split <;> exact { hsame with }
  | failSetup media =>
    simp only [Section.apply, RtspState.failSetup]
    split <;> exact { hsame with }
  | markPrepared media now =>
    simp only [Section.apply, RtspState.markPrepared]
    split <;> exact { hsame with }
  | targetState media toNull now =>
    simp only [Section.apply, RtspState.targetState]
    split <;> exact { hsame with }
  | reportError media now =>
    simp only [Section.apply, RtspState.reportError]
    split <;> exact { hsame with }
  | publishFactory factory =>
    simp only [Section.apply, RtspState.publishFactory]
    split <;> exact { hsame with }
  | publishStop =>
    simp only [Section.apply, RtspState.publishStop]
    split <;> exact { hsame with }
  | _ => exact { hsame with }

theorem Section.rearms {sec : Section}
    (hstart : ∀ now, sec = .publishStart now → s.appsrc = none) : Rearms s (sec.apply s) := by
  cases hmoves : sec.movesSource with
  | false =>
    have hkept := sec.sameSource hmoves s
    exact ⟨Nat.le_of_eq hkept.generation.symm, fun _ => hkept.source⟩
  | true =>
    have hsame := Rearms.refl s
    cases sec with
    | publishStart now => exact ⟨Nat.le_refl _, fun _ => (hstart now rfl).symm⟩
    | retireAll now => exact .next rfl
    | recoverMedia expected reason now id accepts =>
      simp only [Section.apply]
      rcases recoverMedia_cases expected reason now id accepts s with
        ⟨heq, -⟩ | ⟨-, -, heq⟩ | ⟨-, -, -, -, -, -, heq⟩ <;> rw [heq]
      · exact hsame
      · exact { hsame with }
      · exact .next rfl
    | configure factory media now =>
      simp only [Section.apply, RtspState.configure]
      split
      · exact .next rfl
      · exact hsame
    | bind media source =>
      simp only [Section.apply, RtspState.bind]
      split
      · exact hsame
      · split
        · exact hsame
        · exact .next rfl
    | unprepare media now =>
      simp only [Section.apply, RtspState.unprepare]
      split
      · simp only
        split <;> exact .next rfl
      · exact hsame
    | _ => cases hmoves

/-- The media generation never goes back, and the media does not change without a new one. -/
structure Renames (s s' : RtspState) : Prop where
  monotone : s.mediaGeneration ≤ s'.mediaGeneration
  media : s'.mediaGeneration = s.mediaGeneration → s'.currentMedia = s.currentMedia

theorem Renames.refl (s : RtspState) : Renames s s :=
  ⟨Nat.le_refl _, fun _ => rfl⟩

theorem Renames.next {s' : RtspState} (h : s'.mediaGeneration = s.mediaGeneration + 1) :
    Renames s s' :=
  ⟨by omega, fun hsame => by omega⟩

theorem Renames.trans {s' s'' : RtspState} (h : Renames s s') (h' : Renames s' s'') :
    Renames s s'' := by
  refine ⟨Nat.le_trans h.monotone h'.monotone, fun hsame => ?_⟩
  have := h.monotone
  have := h'.monotone
  exact (h'.media (by omega)).trans (h.media (by omega))

theorem Section.renames (sec : Section) (s : RtspState) : Renames s (sec.apply s) := by
  cases hmoves : sec.movesSource with
  | false =>
    have hkept := sec.sameSource hmoves s
    exact ⟨Nat.le_of_eq hkept.mediaGeneration.symm, fun _ => hkept.media⟩
  | true =>
    have hsame := Renames.refl s
    cases sec with
    | publishStart now => exact .next rfl
    | retireAll now => exact .next rfl
    | recoverMedia expected reason now id accepts =>
      simp only [Section.apply]
      rcases recoverMedia_cases expected reason now id accepts s with
        ⟨heq, -⟩ | ⟨-, -, heq⟩ | ⟨-, -, -, -, -, -, heq⟩ <;> rw [heq] <;> exact { hsame with }
    | configure factory media now =>
      simp only [Section.apply, RtspState.configure]
      split
      · exact .next rfl
      · exact hsame
    | bind media source =>
      simp only [Section.apply, RtspState.bind]
      split
      · exact hsame
      · split <;> exact { hsame with }
    | unprepare media now =>
      simp only [Section.apply, RtspState.unprepare]
      split
      · simp only
        split <;> exact .next rfl
      · exact hsame
    | _ => cases hmoves

end RtspState

end EggVision
