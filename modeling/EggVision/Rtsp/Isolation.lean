import EggVision.Rtsp.Recovery

/-!
# Stale media

A callback, a push and a decision of the watchdog may each be about a media that a new one has
replaced since. The media generation names the media: no two of them share one. What comes too late
for its media finds that out under the lock, and leaves the media, the source, the listener and the
recovery of the current one alone.

## Main definitions

* `isStale` — a step for a media that is not, or not any more, the current one
* `Isolated` — what such a step must not touch

## Main results

* `stale_media_isolated`
-/

namespace EggVision

open Transition RtspState

namespace RtspState

/-! ### What a late section leaves alone -/

/-- The media, its source, the listener and the recovery are as they were. -/
structure Isolated (s s' : RtspState) : Prop where
  currentMedia : s'.currentMedia = s.currentMedia
  appsrc : s'.appsrc = s.appsrc
  listenerSource : s'.listenerSource = s.listenerSource
  acceptingClients : s'.acceptingClients = s.acceptingClients
  observedStatus : s'.observedStatus = s.observedStatus
  consecutivePushFailures : s'.consecutivePushFailures = s.consecutivePushFailures
  recoveryState : s'.recoveryState = s.recoveryState
  recoveryGeneration : s'.recoveryGeneration = s.recoveryGeneration
  recoveryToken : s'.recoveryToken = s.recoveryToken

variable {s : RtspState}

theorem Isolated.refl (s : RtspState) : Isolated s s :=
  ⟨rfl, rfl, rfl, rfl, rfl, rfl, rfl, rfl, rfl⟩

/-- A request is always one for the current generation, so a late decision has none to drop. -/
theorem RecoveryInv.not_isRequested (h : RecoveryInv s) {expected : ℕ}
    (hstale : s.mediaGeneration ≠ expected) : s.isRequested expected = false := by
  refine Bool.eq_false_iff.mpr fun hrequested => hstale ?_
  simp only [isRequested, Bool.and_eq_true, decide_eq_true_eq] at hrequested
  exact (h.requested hrequested.1).2.symm.trans hrequested.2

theorem RecoveryInv.recoverMedia_stale (h : RecoveryInv s) {expected : ℕ}
    (hstale : s.mediaGeneration ≠ expected) (reason : String) (now : ℤ) (id : ℕ)
    (accepts : Bool) : (s.recoverMedia expected reason now id accepts).1 = s := by
  rcases recoverMedia_cases expected reason now id accepts s with
    ⟨heq, -⟩ | ⟨-, hrequested, -⟩ | ⟨-, -, hcurrent, -⟩
  · exact heq
  · rw [h.not_isRequested hstale] at hrequested
    cases hrequested
  · exact absurd hcurrent hstale

/-- The `catch` of a late decision may note that the recovery of another media was delayed. -/
theorem RecoveryInv.failDispatch_stale (h : RecoveryInv s) {expected : ℕ}
    (hstale : s.mediaGeneration ≠ expected) : Isolated s (s.failDispatch expected) := by
  unfold RtspState.failDispatch
  rw [h.not_isRequested hstale]
  simp only [Bool.false_eq_true, if_false]
  split
  · exact { Isolated.refl s with }
  · exact .refl s

theorem recordPush_stale {mediaGeneration : ℕ} (hstale : s.mediaGeneration ≠ mediaGeneration)
    (flow : FlowReturn) : s.recordPush mediaGeneration flow = s := by
  simp [recordPush, hstale]

end RtspState

/-! ### Late steps -/

/-- The media that a step of a callback checks against the current one. -/
def CallbackTask.media : CallbackTask → Option ℕ
  | .bind media _ | .bound media _ | .failSetup media | .prepared media | .unprepared media
  | .targetState media _ | .handleMessage media _ => some media
  | .configure _ _ | .configured _ | .released => none

namespace RtspServer

variable {t t' : RtspServer} {a : RtspAction} {fps : ℕ}

/-- The step is for a media other than the current one, or for a generation that has passed: a step
of a media callback, the record of a push, and `recoverMedia` with its `catch`. -/
def isStale (t : RtspServer) : RtspAction → Bool
  | .callback index _ =>
    (t.callbacks[index]?.bind CallbackTask.media).any fun media =>
      decide (t.shared.currentMedia ≠ some media)
  | .feeder _ =>
    match t.feeder.phase with
    | .recording mediaGeneration _ => decide (t.shared.mediaGeneration ≠ mediaGeneration)
    | .absent | .starting | .checking | .popping | .popped _ | .offering _ | .exited => false
  | .watchdog _ =>
    match t.watchdog with
    | .recovering expected _ | .failing expected => decide (t.shared.mediaGeneration ≠ expected)
    | .idle | .finishing _ | .resuming _ | .viewing _ | .dispatched => false
  | .call _ _ | .owner _ | .signal _ | .tick _ | .worker | .submit _ | .submitNext => false

/-- A callback for another media changes nothing, however far it has come. -/
theorem callback_stale {s : RtspState} {env : CallbackEnv} {task : CallbackTask} {media : ℕ}
    (hmedia : task.media = some media) (hstale : s.currentMedia ≠ some media) :
    enter (callbackSection env task) s = s := by
  cases task with
  | configure factory media => cases hmedia
  | configured media => cases hmedia
  | released => cases hmedia
  | bound media after => rfl
  | bind media after =>
    cases hmedia
    cases hsource : env.source with
    | none => simp [callbackSection, enter, hsource]
    | some source =>
      simp [callbackSection, enter, hsource, Section.apply, RtspState.bind, refusesBinding,
        hstale]
  | failSetup media =>
    cases hmedia
    exact if_neg hstale
  | prepared media =>
    cases hmedia
    exact if_neg hstale
  | unprepared media =>
    cases hmedia
    simp [callbackSection, enter, Section.apply, unprepare, hstale]
  | targetState media toNull =>
    cases hmedia
    simp [callbackSection, enter, Section.apply, targetState, hstale]
  | handleMessage media isError =>
    cases hmedia
    cases isError with
    | false => rfl
    | true => simp [callbackSection, enter, Section.apply, reportError, hstale]

theorem step_isolated (hinv : RecoveryInv t.shared) (hs : t.step a = some t')
    (hstale : t.isStale a = true) : Isolated t.shared t'.shared := by
  rw [step_shared hs]
  cases a with
  | callback index env =>
    obtain ⟨media, htask, hother⟩ := (Option.any_eq_true _ _).mp hstale
    obtain ⟨task, htask, hmedia⟩ := Option.bind_eq_some_iff.mp htask
    simp only [entered, htask, Option.bind_some]
    rw [callback_stale hmedia (of_decide_eq_true hother)]
    exact .refl _
  | feeder env =>
    simp only [isStale] at hstale
    split at hstale
    next mediaGeneration flow hphase =>
      simp only [entered, hphase, enter, Section.apply]
      rw [recordPush_stale (of_decide_eq_true hstale)]
      exact .refl _
    all_goals cases hstale
  | watchdog env =>
    simp only [isStale] at hstale
    split at hstale
    next expected reason hphase =>
      simp only [entered, watchdogSection, hphase]
      split
      · exact .refl _
      · simp only [enter, Section.apply]
        rw [hinv.recoverMedia_stale (of_decide_eq_true hstale)]
        exact .refl _
    next expected hphase =>
      simp only [entered, watchdogSection, hphase, enter, Section.apply]
      exact hinv.failDispatch_stale (of_decide_eq_true hstale)
    all_goals cases hstale
  | _ => cases hstale

/-! ### The media of a generation -/

theorem step_renames (hs : t.step a = some t') : Renames t.shared t'.shared := by
  rw [step_shared hs]
  cases t.entered a with
  | none => exact .refl _
  | some sec => exact sec.renames t.shared

theorem renames_of_reachable (h : Reachable step t t') : Renames t.shared t'.shared := by
  refine h.invariant (fun t' => Renames t.shared t'.shared) (.refl _) ?_
  intro t₁ a t₂ hbefore hs
  exact hbefore.trans (step_renames hs)

/-- **A generation of the media is one of at most one media, and what comes too late for its media
leaves the current one alone.** -/
theorem stale_media_isolated (h : Reachable step (initial fps) t) :
    (∀ t', Reachable step t t' → t'.shared.mediaGeneration = t.shared.mediaGeneration →
        t'.shared.currentMedia = t.shared.currentMedia) ∧
      ∀ a t', t.step a = some t' → t.isStale a = true → Isolated t.shared t'.shared :=
  ⟨fun _ hlater => (renames_of_reachable hlater).media,
    fun _ _ hs => step_isolated (recoveryInv_of_reachable h) hs⟩

/-- The media before the current one is reported unprepared, after the current one was bound. -/
theorem stale_media_isolated_replaced :
    ∃ t t', Reachable step (initial 30) t ∧
      t.step (.callback 0 {}) = some t' ∧ t.shared.currentMedia = some 11 ∧
      t.callbacks = [.unprepared 10] ∧ Isolated t.shared t'.shared := by
  let actions := startUp ++ configureMedia 10 20 ++
    [.signal (.unprepared 10), .callback 0 {}, .callback 0 {}] ++ configureMedia 11 21 ++
    [.signal (.unprepared 10)]
  have hrun : Run step (initial 30) _ _ := Run.ofExec actions rfl
  exact ⟨_, _, hrun.reachable, rfl, rfl, rfl,
    (stale_media_isolated hrun.reachable).2 (.callback 0 {}) _ rfl rfl⟩

end RtspServer

end EggVision
