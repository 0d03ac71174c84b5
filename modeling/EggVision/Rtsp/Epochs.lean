import EggVision.Rtsp.Server

/-!
# The epochs of the server

From one `start` to the end of the next `stopLocked` the server goes through one epoch. What the
other threads can do depends on how far the owner has come: nothing runs beside it before the epoch
is open, the watchdog not before the loop runs, and no callback once the epoch is closed and empty.

## Main definitions

* `EpochInv` — what holds at each point of an epoch

## Main results

* `EpochInv.reachable`
* `entered_byOwner` — the sections of `start` and `stopLocked` are entered by the owner only
-/

namespace EggVision

open Transition RtspState

/-- `running_`, at each point of `start` and `stopLocked`. -/
def Lifecycle.runs : Lifecycle → Bool
  | .stopped | .starting .publish => false
  | .starting _ | .started | .stopping .publish => true
  | .stopping _ => false

/-- No callback can enter. -/
def Lifecycle.closed : Lifecycle → Bool
  | .stopped | .starting .publish | .stopping .waitCallbacks | .stopping .retire
  | .stopping .release => true
  | .starting _ | .started | .stopping _ => false

/-- No callback can enter, and none is inside. -/
def Lifecycle.sealed : Lifecycle → Bool
  | .stopped | .starting .publish | .stopping .retire | .stopping .release => true
  | .starting _ | .started | .stopping _ => false

/-- The last epoch has given up its source, and the next one has not begun. -/
def Lifecycle.retired : Lifecycle → Bool
  | .stopped | .starting .publish | .stopping .release => true
  | .starting _ | .started | .stopping _ => false

/-- The loop does not run yet, or not any more. -/
def Lifecycle.quiet : Lifecycle → Bool
  | .stopped | .starting _ | .stopping .release => true
  | .started | .stopping _ => false

/-- `start` has opened the listener, and the loop does not run yet. -/
def Lifecycle.listening : Lifecycle → Bool
  | .starting stage =>
    match stage with
    | .sessionCleanup | .watchdog | .publishWatchdog | .feeder | .loop => true
    | .publish | .allocate | .factory | .recoveryWorker | .listener => false
  | .stopped | .started | .stopping _ => false


theorem Lifecycle.quiet_of_listening {phase : Lifecycle} (h : phase.listening = true) :
    phase.quiet = true := by
  unfold Lifecycle.listening at h
  split at h
  · rfl
  all_goals cases h

theorem Lifecycle.closed_of_sealed {phase : Lifecycle} (h : phase.sealed = true) :
    phase.closed = true := by
  unfold sealed at h
  split at h <;> first | rfl | cases h

theorem Lifecycle.sealed_of_retired {phase : Lifecycle} (h : phase.retired = true) :
    phase.sealed = true := by
  unfold retired at h
  split at h <;> first | rfl | cases h

namespace RtspServer

variable {t t' : RtspServer} {a : RtspAction} {sec : Section}

/-- Whose step enters a section: the sections of the callbacks and of the watchdog are in their
tables, and the feeder enters one only to record a push. -/
theorem entered_cases (h : t.entered a = some sec) :
    (∃ env, a = .owner env ∧ sec.byOwner = true) ∨
      (∃ index env task, a = .callback index env ∧ t.callbacks[index]? = some task ∧
        callbackSection env task = some sec) ∨
      (∃ env, a = .watchdog env ∧ t.watchdogSection env = some sec) ∨
      ∃ env mediaGeneration flow, a = .feeder env ∧
        t.feeder.phase = .recording mediaGeneration flow ∧
        sec = .recordPush mediaGeneration flow := by
  cases a with
  | owner env =>
    refine Or.inl ⟨env, rfl, ?_⟩
    simp only [entered] at h
    split at h
    next stage _ =>
      cases stage <;> simp only [startSection, Option.ite_none_right_eq_some, reduceCtorEq,
        Option.some.injEq] at h <;> first | (rw [← h]; rfl) | (rw [← h.2]; rfl)
    next stage _ =>
      cases stage <;> simp only [stopSection, Option.ite_none_left_eq_some, reduceCtorEq,
        Option.some.injEq] at h <;> first | (rw [← h]; rfl) | (rw [← h.2]; rfl)
    · cases h
    · cases h
  | callback index env =>
    obtain ⟨task, htask, hsec⟩ := Option.bind_eq_some_iff.mp h
    exact Or.inr (Or.inl ⟨index, env, task, rfl, htask, hsec⟩)
  | watchdog env => exact Or.inr (Or.inr (Or.inl ⟨env, rfl, h⟩))
  | feeder env =>
    simp only [entered] at h
    split at h
    next mediaGeneration flow hphase =>
      exact Or.inr (Or.inr (Or.inr ⟨env, mediaGeneration, flow, rfl, hphase,
        (Option.some.inj h).symm⟩))
    all_goals cases h
  | _ => cases h

theorem callbackSection_cases {env : CallbackEnv} {task : CallbackTask}
    (h : callbackSection env task = some sec) :
    sec.byOwner = false ∧
      (∀ expected reason now id accepts, sec ≠ .recoverMedia expected reason now id accepts) ∧
      ∀ mediaGeneration flow, sec ≠ .recordPush mediaGeneration flow := by
  cases task with
  | bind media after =>
    obtain ⟨source, -, rfl⟩ := Option.map_eq_some_iff.mp h
    exact ⟨rfl, by simp, by rintro _ _ ⟨⟩⟩
  | handleMessage media isError =>
    obtain ⟨-, ⟨⟩⟩ := Option.ite_none_right_eq_some.mp h
    exact ⟨rfl, by simp, by rintro _ _ ⟨⟩⟩
  | _ => cases h <;> exact ⟨rfl, by simp, by rintro _ _ ⟨⟩⟩

theorem watchdogSection_cases {env : WatchdogEnv} (h : t.watchdogSection env = some sec) :
    sec.byOwner = false ∧
      (∀ expected reason now id accepts, sec = .recoverMedia expected reason now id accepts →
        t.watchdog = .recovering expected reason) ∧
      ∀ mediaGeneration flow, sec ≠ .recordPush mediaGeneration flow := by
  unfold watchdogSection at h
  cases hphase : t.watchdog with
  | recovering expected reason =>
    simp only [hphase] at h
    split at h
    · cases h
    · cases h
      refine ⟨rfl, ?_, by rintro _ _ ⟨⟩⟩
      rintro _ _ _ _ _ ⟨⟩
      rfl
  | _ =>
    simp only [hphase] at h
    cases h <;> exact ⟨rfl, by simp, by rintro _ _ ⟨⟩⟩

theorem entered_byOwner (h : t.entered a = some sec) (hsec : sec.byOwner = true) :
    ∃ env, a = .owner env := by
  rcases entered_cases h with ⟨env, rfl, -⟩ | ⟨index, env, task, -, -, hcallback⟩ |
    ⟨env, -, hwatchdog⟩ | ⟨env, mediaGeneration, flow, -, -, rfl⟩
  · exact ⟨env, rfl⟩
  · rw [(callbackSection_cases hcallback).1] at hsec
    cases hsec
  · rw [(watchdogSection_cases hwatchdog).1] at hsec
    cases hsec
  · cases hsec

/-- The section the owner enters is the one of the step it has come to. -/
theorem entered_owner (h : t.entered a = some sec) (hsec : sec.byOwner = true) :
    (∃ stage env, t.lifecycle = .starting stage ∧ startSection stage env = some sec) ∨
      ∃ stage env, t.lifecycle = .stopping stage ∧ t.stopSection stage env = some sec := by
  obtain ⟨env, rfl⟩ := entered_byOwner h hsec
  simp only [entered] at h
  split at h
  next stage hphase => exact Or.inl ⟨stage, env, hphase, h⟩
  next stage hphase => exact Or.inr ⟨stage, env, hphase, h⟩
  · cases h
  · cases h

theorem entered_publishListener {listener : ℕ}
    (h : t.entered a = some (.publishListener listener)) : t.lifecycle = .starting .listener := by
  rcases entered_owner h rfl with ⟨stage, env, hphase, hsec⟩ | ⟨stage, env, -, hsec⟩
  · cases stage <;> simp only [startSection, Option.ite_none_right_eq_some, reduceCtorEq,
      Option.some.injEq, and_false] at hsec
    exact hphase
  · cases stage <;> simp only [stopSection, Option.ite_none_left_eq_some, reduceCtorEq,
      Option.some.injEq, and_false] at hsec

theorem entered_publishStart {now : ℤ} (h : t.entered a = some (.publishStart now)) :
    t.lifecycle = .starting .publish := by
  rcases entered_owner h rfl with ⟨stage, env, hphase, hsec⟩ | ⟨stage, env, -, hsec⟩
  · cases stage <;> simp only [startSection, Option.ite_none_right_eq_some, reduceCtorEq,
      Option.some.injEq, and_false] at hsec
    exact hphase
  · cases stage <;> simp only [stopSection, Option.ite_none_left_eq_some, reduceCtorEq,
      Option.some.injEq, and_false] at hsec

theorem entered_recordPush {mediaGeneration : ℕ} {flow : FlowReturn}
    (h : t.entered a = some (.recordPush mediaGeneration flow)) :
    (∃ env, a = .feeder env) ∧ t.feeder.phase = .recording mediaGeneration flow := by
  rcases entered_cases h with ⟨env, -, hown⟩ | ⟨index, env, task, -, -, hcallback⟩ |
    ⟨env, -, hwatchdog⟩ | ⟨env, _, _, rfl, hphase, heq⟩
  · cases hown
  · exact absurd rfl ((callbackSection_cases hcallback).2.2 mediaGeneration flow)
  · exact absurd rfl ((watchdogSection_cases hwatchdog).2.2 mediaGeneration flow)
  · cases heq
    exact ⟨⟨env, rfl⟩, hphase⟩

theorem entered_recoverMedia {expected : ℕ} {reason : String} {now : ℤ} {id : ℕ}
    {accepts : Bool} (h : t.entered a = some (.recoverMedia expected reason now id accepts)) :
    ∃ env, a = .watchdog env ∧ t.watchdog = .recovering expected reason := by
  rcases entered_cases h with ⟨env, -, hown⟩ | ⟨index, env, task, -, -, hcallback⟩ |
    ⟨env, rfl, hwatchdog⟩ | ⟨env, _, _, -, -, heq⟩
  · cases hown
  · exact absurd rfl ((callbackSection_cases hcallback).2.1 expected reason now id accepts)
  · exact ⟨env, rfl, (watchdogSection_cases hwatchdog).2.1 expected reason now id accepts rfl⟩
  · cases heq

/-- With nobody inside, the feeder is the only one beside the owner to enter a section. -/
theorem entered_sealed (hcallbacks : t.callbacks = []) (hwatchdog : t.watchdog = .idle)
    (h : t.entered a = some sec) :
    sec.byOwner = true ∨ ∃ mediaGeneration flow, sec = .recordPush mediaGeneration flow := by
  rcases entered_cases h with ⟨env, -, hown⟩ | ⟨index, env, task, -, htask, -⟩ |
    ⟨env, -, hsec⟩ | ⟨env, mediaGeneration, flow, -, -, heq⟩
  · exact Or.inl hown
  · simp [hcallbacks] at htask
  · simp [watchdogSection, hwatchdog] at hsec
  · exact Or.inr ⟨mediaGeneration, flow, heq⟩

/-- A step of any thread but the owner leaves the epoch alone. -/
theorem step_epoch (h : t.step a = some t') (hcall : ∀ call ok, a ≠ .call call ok)
    (howner : ∀ env, a ≠ .owner env) :
    t'.lifecycle = t.lifecycle ∧ t'.callbacksOpen = t.callbacksOpen ∧ t'.loop = t.loop ∧
      t'.latest.closed = t.latest.closed := by
  cases a with
  | call call ok => exact absurd rfl (hcall call ok)
  | owner env => exact absurd rfl (howner env)
  | signal signal =>
    obtain ⟨-, rfl⟩ := step_signal h
    exact ⟨rfl, rfl, rfl, rfl⟩
  | callback index env =>
    obtain ⟨_, _, _, _, rfl, -, -, hclosed⟩ := step_callback h
    exact ⟨rfl, rfl, rfl, hclosed⟩
  | tick now =>
    obtain ⟨-, -, _, _, rfl⟩ := step_tick h
    exact ⟨rfl, rfl, rfl, rfl⟩
  | watchdog env =>
    obtain ⟨_, _, _, _, _, _, rfl, -, -, hclosed⟩ := watchdogStep_frame h
    exact ⟨rfl, rfl, rfl, hclosed⟩
  | worker =>
    obtain ⟨_, rfl⟩ := step_worker h
    exact ⟨rfl, rfl, rfl, rfl⟩
  | feeder env =>
    obtain ⟨_, _, _, _, rfl, hclosed⟩ := feederStep_frame h
    exact ⟨rfl, rfl, rfl, hclosed⟩
  | submit unit =>
    obtain ⟨_, _, _, rfl⟩ := submitStep_frame h
    exact ⟨rfl, rfl, rfl, rfl⟩
  | submitNext =>
    obtain ⟨_, _, _, _, rfl, hclosed⟩ := submitNextStep_frame h
    exact ⟨rfl, rfl, rfl, hclosed⟩

/-- `stopLocked` goes from step to step until the server is stopped. -/
theorem stopStep_lifecycle {stage : StopStage} {env : OwnerEnv}
    (hphase : t.lifecycle = .stopping stage) (h : t.stopStep stage env = some t') :
    t'.lifecycle = .stopped ∨ ∃ next, t'.lifecycle = .stopping next := by
  cases stage with
  | publish =>
    cases h
    simp only
    split
    · exact Or.inr ⟨_, rfl⟩
    · exact Or.inl rfl
  | waitJob waitFor =>
    simp only [stopStep] at h
    split at h
    · cases h
      exact Or.inr ⟨_, rfl⟩
    · split at h <;> cases h
      exact Or.inr ⟨_, hphase⟩
  | joinFeeder =>
    simp only [stopStep] at h
    split at h <;> cases h
    exact Or.inr ⟨_, rfl⟩
  | joinWorker =>
    simp only [stopStep] at h
    split at h <;> cases h
    exact Or.inr ⟨_, rfl⟩
  | waitCallbacks =>
    simp only [stopStep] at h
    split at h <;> cases h
    exact Or.inr ⟨_, rfl⟩
  | release =>
    cases h
    exact Or.inl rfl
  | _ =>
    cases h
    exact Or.inr ⟨_, rfl⟩

/-- Nobody gets inside a closed epoch, and the watchdog ticks only while the loop runs. -/
theorem step_inside (h : t.step a = some t') :
    (t.callbacksOpen = false → t.callbacks = [] → t'.callbacks = []) ∧
      (t.loop = false ∨ t.callbacksOpen = false → t.watchdog = .idle → t'.watchdog = .idle) := by
  cases a with
  | call call ok =>
    rcases callStep_cases h with ⟨-, rfl | rfl | ⟨-, rfl⟩ | ⟨-, rfl⟩⟩ <;>
      exact ⟨fun _ => id, fun _ => id⟩
  | owner env =>
    obtain ⟨_, _, _, _, _, _, _, _, _, rfl, -⟩ := ownerStep_frame h
    exact ⟨fun _ => id, fun _ => id⟩
  | signal signal =>
    obtain ⟨hopen, rfl⟩ := step_signal h
    refine ⟨fun hclosed => ?_, fun _ => id⟩
    rw [hopen] at hclosed
    cases hclosed
  | callback index env =>
    obtain ⟨_, _, _, _, rfl, hinside, -⟩ := step_callback h
    exact ⟨fun _ hempty => absurd hempty hinside, fun _ => id⟩
  | tick now =>
    obtain ⟨hloop, hopen, _, _, rfl⟩ := step_tick h
    refine ⟨fun _ => id, fun hclosed => ?_⟩
    rw [hloop, hopen] at hclosed
    rcases hclosed with hc | hc <;> cases hc
  | watchdog env =>
    obtain ⟨_, _, _, _, _, _, rfl, hinside, -⟩ := watchdogStep_frame h
    exact ⟨fun _ => id, fun _ hidle => absurd hidle hinside⟩
  | worker =>
    obtain ⟨_, rfl⟩ := step_worker h
    exact ⟨fun _ => id, fun _ => id⟩
  | feeder env =>
    obtain ⟨_, _, _, _, rfl, -⟩ := feederStep_frame h
    exact ⟨fun _ => id, fun _ => id⟩
  | submit unit =>
    obtain ⟨_, _, _, rfl⟩ := submitStep_frame h
    exact ⟨fun _ => id, fun _ => id⟩
  | submitNext =>
    obtain ⟨_, _, _, _, rfl, -⟩ := submitNextStep_frame h
    exact ⟨fun _ => id, fun _ => id⟩

/-! ### The epoch invariant -/

/-- What holds at each point of an epoch. -/
structure EpochInv (t : RtspServer) : Prop where
  running : t.shared.running = t.lifecycle.runs
  closed : t.lifecycle.closed = true → t.callbacksOpen = false
  sealed : t.lifecycle.sealed = true → t.callbacks = [] ∧ t.watchdog = .idle
  retired : t.lifecycle.retired = true → t.shared.appsrc = none
  quiet : t.lifecycle.quiet = true → t.watchdog = .idle ∧
    ¬ (t.shared.recoveryState = .running ∨ t.shared.recoveryState = .completed)
  loop : t.lifecycle.quiet = true → t.lifecycle ≠ .stopping .release → t.loop = false
  queue : t.lifecycle.runs = true ∨ t.lifecycle = .starting .publish → t.latest.closed = false

theorem EpochInv.initial (fps : ℕ) : EpochInv (initial fps) := by
  constructor <;> simp [RtspServer.initial, Lifecycle.runs]

theorem EpochInv.callStep (h : EpochInv t) {call : OwnerCall} {ok : Bool}
    (hs : t.callStep call ok = some t') : EpochInv t' := by
  obtain ⟨hphase, rfl | rfl | ⟨hrunning, rfl⟩ | ⟨hrunning, rfl⟩⟩ := callStep_cases hs
  · exact h
  · exact { h with }
  · have hstopped : t.lifecycle = .stopped := hphase.resolve_right fun hstarted => by
      rw [h.running, hstarted] at hrunning
      cases hrunning
    exact {
      running := hrunning
      closed := fun _ => h.closed (by rw [hstopped]; rfl)
      sealed := fun _ => h.sealed (by rw [hstopped]; rfl)
      retired := fun _ => h.retired (by rw [hstopped]; rfl)
      quiet := fun _ => h.quiet (by rw [hstopped]; rfl)
      loop := fun _ _ => h.loop (by rw [hstopped]; rfl) (by rw [hstopped]; rintro ⟨⟩)
      queue := fun _ => rfl }
  · have hstarted : t.lifecycle = .started := hphase.resolve_left fun hstopped => by
      rw [h.running, hstopped] at hrunning
      cases hrunning
    exact {
      running := hrunning
      closed := by rintro ⟨⟩
      sealed := by rintro ⟨⟩
      retired := by rintro ⟨⟩
      quiet := by rintro ⟨⟩
      loop := by rintro ⟨⟩
      queue := fun _ => h.queue (Or.inl (by rw [hstarted]; rfl)) }

/-- `start` goes on, or fails, in an open epoch. -/
theorem EpochInv.onward (h : EpochInv t) {stage : StartStage}
    (hphase : t.lifecycle = .starting stage) (hstage : stage ≠ .publish)
    (hrunning : t'.shared.running = t.shared.running)
    (hrecovery : t'.shared.recoveryState = t.shared.recoveryState)
    (hwatchdog : t'.watchdog = t.watchdog) (hqueue : t'.latest = t.latest)
    (hruns : t'.lifecycle.runs = true) (hclosed : t'.lifecycle.closed = false)
    (hloop : t'.lifecycle.quiet = true → t'.loop = t.loop) : EpochInv t' := by
  have hbefore : t.lifecycle.runs = true := by
    rw [hphase]
    cases stage <;> first | rfl | exact absurd rfl hstage
  have hquiet : t.lifecycle.quiet = true := by rw [hphase]; rfl
  have hsealed : t'.lifecycle.sealed ≠ true := fun hsealed => by
    rw [Lifecycle.closed_of_sealed hsealed] at hclosed
    cases hclosed
  exact {
    running := by rw [hrunning, h.running, hbefore, hruns]
    closed := fun hc => by
      rw [hclosed] at hc
      cases hc
    sealed := fun hc => absurd hc hsealed
    retired := fun hc => absurd (Lifecycle.sealed_of_retired hc) hsealed
    quiet := fun _ => by
      rw [hwatchdog, hrecovery]
      exact h.quiet hquiet
    loop := fun hquiet' _ => by
      rw [hloop hquiet']
      exact h.loop hquiet (by rw [hphase]; rintro ⟨⟩)
    queue := fun _ => by
      rw [hqueue]
      exact h.queue (Or.inl hbefore) }

theorem EpochInv.startStep (h : EpochInv t) {stage : StartStage}
    (hphase : t.lifecycle = .starting stage) (env : OwnerEnv) :
    EpochInv (t.startStep stage env) := by
  obtain ⟨ok, id, now, counted⟩ := env
  cases stage with
  | publish =>
    exact {
      running := rfl
      closed := by rintro ⟨⟩
      sealed := by rintro ⟨⟩
      retired := by rintro ⟨⟩
      quiet := fun _ => ⟨(h.quiet (by rw [hphase]; rfl)).1, by rintro (hc | hc) <;> cases hc⟩
      loop := fun _ _ => h.loop (by rw [hphase]; rfl) (by rw [hphase]; rintro ⟨⟩)
      queue := fun _ => h.queue (Or.inr hphase) }
  | factory =>
    have hsame : (t.shared.publishFactory id).1.running = t.shared.running ∧
        (t.shared.publishFactory id).1.recoveryState = t.shared.recoveryState := by
      unfold publishFactory
      split <;> exact ⟨rfl, rfl⟩
    cases ok with
    | false => exact h.onward hphase (by rintro ⟨⟩) rfl rfl rfl rfl rfl rfl (by rintro ⟨⟩)
    | true =>
      simp only [RtspServer.startStep, Bool.not_true, Bool.false_eq_true, if_false]
      split
      · exact h.onward hphase (by rintro ⟨⟩) hsame.1 hsame.2 rfl rfl rfl rfl fun _ => rfl
      · exact h.onward hphase (by rintro ⟨⟩) rfl rfl rfl rfl rfl rfl (by rintro ⟨⟩)
  | loop => cases ok <;> exact h.onward hphase (by rintro ⟨⟩) rfl rfl rfl rfl rfl rfl (by rintro ⟨⟩)
  | publishWatchdog => exact h.onward hphase (by rintro ⟨⟩) rfl rfl rfl rfl rfl rfl fun _ => rfl
  | _ => cases ok <;> exact h.onward hphase (by rintro ⟨⟩) rfl rfl rfl rfl rfl rfl fun _ => rfl

/-- `stopLocked` goes on with the epoch still open. -/
theorem EpochInv.winding (hrunning : t.shared.running = false)
    (hruns : t.lifecycle.runs = false) (hpublish : t.lifecycle ≠ .starting .publish)
    (hclosed : t.lifecycle.closed = false) (hquiet : t.lifecycle.quiet = false) : EpochInv t := by
  have hsealed : t.lifecycle.sealed ≠ true := fun hsealed => by
    rw [Lifecycle.closed_of_sealed hsealed] at hclosed
    cases hclosed
  exact {
    running := hrunning.trans hruns.symm
    closed := fun hc => by
      rw [hclosed] at hc
      cases hc
    sealed := fun hc => absurd hc hsealed
    retired := fun hc => absurd (Lifecycle.sealed_of_retired hc) hsealed
    quiet := fun hc => by
      rw [hquiet] at hc
      cases hc
    loop := fun hc => by
      rw [hquiet] at hc
      cases hc
    queue := by
      rintro (hc | hc)
      · rw [hruns] at hc
        cases hc
      · exact absurd hc hpublish }

theorem EpochInv.stopStep (h : EpochInv t) {stage : StopStage}
    (hphase : t.lifecycle = .stopping stage) {env : OwnerEnv}
    (hs : t.stopStep stage env = some t') : EpochInv t' := by
  have hstopped : stage ≠ .publish → t.shared.running = false := fun hstage => by
    rw [h.running, hphase]
    cases stage <;> first | rfl | exact absurd rfl hstage
  cases stage with
  | publish =>
    have hrunning : t.shared.running = true := by rw [h.running, hphase]; rfl
    simp only [RtspServer.stopStep, publishStop, hrunning] at hs
    cases hs
    exact .winding rfl rfl (by rintro ⟨⟩) rfl rfl
  | waitJob waitFor =>
    have hrunning := hstopped (by rintro ⟨⟩)
    simp only [RtspServer.stopStep] at hs
    split at hs
    · cases hs
      exact .winding hrunning rfl (by rintro ⟨⟩) rfl rfl
    · split at hs
      · cases hs
      · cases hs
        refine .winding hrunning ?_ ?_ ?_ ?_ <;> simp only [hphase] <;> first | rfl | rintro ⟨⟩
  | joinFeeder =>
    simp only [RtspServer.stopStep] at hs
    split at hs
    · cases hs
      exact .winding (hstopped (by rintro ⟨⟩)) rfl (by rintro ⟨⟩) rfl rfl
    · cases hs
  | joinWorker =>
    simp only [RtspServer.stopStep] at hs
    split at hs
    · cases hs
      exact .winding (hstopped (by rintro ⟨⟩)) rfl (by rintro ⟨⟩) rfl rfl
    · cases hs
  | disableCallbacks =>
    cases hs
    exact {
      running := hstopped (by rintro ⟨⟩)
      closed := fun _ => rfl
      sealed := by rintro ⟨⟩
      retired := by rintro ⟨⟩
      quiet := by rintro ⟨⟩
      loop := by rintro ⟨⟩
      queue := by rintro (hc | hc) <;> cases hc }
  | waitCallbacks =>
    simp only [RtspServer.stopStep] at hs
    split at hs
    next hempty =>
      cases hs
      exact {
        running := hstopped (by rintro ⟨⟩)
        closed := fun _ => h.closed (by rw [hphase]; rfl)
        sealed := fun _ => hempty
        retired := by rintro ⟨⟩
        quiet := by rintro ⟨⟩
        loop := by rintro ⟨⟩
        queue := by rintro (hc | hc) <;> cases hc }
    · cases hs
  | retire =>
    cases hs
    have hsealed := h.sealed (by rw [hphase]; rfl)
    exact {
      running := hstopped (by rintro ⟨⟩)
      closed := fun _ => h.closed (by rw [hphase]; rfl)
      sealed := fun _ => hsealed
      retired := fun _ => rfl
      quiet := fun _ => ⟨hsealed.2, by rintro (hc | hc) <;> cases hc⟩
      loop := fun _ hc => absurd rfl hc
      queue := by rintro (hc | hc) <;> cases hc }
  | release =>
    cases hs
    exact {
      running := hstopped (by rintro ⟨⟩)
      closed := fun _ => h.closed (by rw [hphase]; rfl)
      sealed := fun _ => h.sealed (by rw [hphase]; rfl)
      retired := fun _ => h.retired (by rw [hphase]; rfl)
      quiet := fun _ => h.quiet (by rw [hphase]; rfl)
      loop := fun _ _ => rfl
      queue := by rintro (hc | hc) <;> cases hc }
  | _ =>
    cases hs
    exact .winding (hstopped (by rintro ⟨⟩)) rfl (by rintro ⟨⟩) rfl rfl

/-- **The epoch invariant is kept by every thread.** -/
theorem EpochInv.step (h : EpochInv t) (hs : t.step a = some t') : EpochInv t' := by
  by_cases hcall : ∃ call ok, a = .call call ok
  · obtain ⟨call, ok, rfl⟩ := hcall
    exact h.callStep hs
  by_cases howner : ∃ env, a = .owner env
  · obtain ⟨env, rfl⟩ := howner
    simp only [RtspServer.step, ownerStep] at hs
    cases hphase : t.lifecycle with
    | starting stage =>
      simp only [hphase, Option.some.injEq] at hs
      exact hs ▸ h.startStep hphase env
    | stopping stage =>
      simp only [hphase] at hs
      exact h.stopStep hphase hs
    | stopped => simp [hphase] at hs
    | started => simp [hphase] at hs
  -- the other threads stay within the point of the epoch that the owner has reached
  obtain ⟨hlifecycle, hopen, hloop, hqueue⟩ :=
    step_epoch hs (by simpa using hcall) (by simpa using howner)
  have hshared := step_shared hs
  have hsection : ∀ sec, t.entered a = some sec → sec.byOwner = false := fun sec hsec =>
    Bool.eq_false_iff.mpr fun hown => howner (entered_byOwner hsec hown)
  constructor
  · rw [hlifecycle, hshared, ← h.running]
    cases hsec : t.entered a with
    | none => rfl
    | some sec => exact (Section.sameEpoch (hsection sec hsec) _).running
  · rw [hlifecycle, hopen]
    exact h.closed
  · rw [hlifecycle]
    intro hsealed
    obtain ⟨hcallbacks, hwatchdog⟩ := h.sealed hsealed
    have hclosed := h.closed (Lifecycle.closed_of_sealed hsealed)
    exact ⟨(step_inside hs).1 hclosed hcallbacks, (step_inside hs).2 (Or.inr hclosed) hwatchdog⟩
  · rw [hlifecycle, hshared]
    intro hretired
    obtain ⟨hcallbacks, hwatchdog⟩ := h.sealed (Lifecycle.sealed_of_retired hretired)
    cases hsec : t.entered a with
    | none => exact h.retired hretired
    | some sec =>
      rcases entered_sealed hcallbacks hwatchdog hsec with hown | ⟨mediaGeneration, flow, rfl⟩
      · exact absurd hown (by simp [hsection sec hsec])
      · exact (SameSource.recordPush mediaGeneration flow t.shared).source.trans
          (h.retired hretired)
  · rw [hlifecycle, hshared]
    intro hquiet
    obtain ⟨hidle, hcalm⟩ := h.quiet hquiet
    have hclosed : t.loop = false ∨ t.callbacksOpen = false := by
      by_cases hrelease : t.lifecycle = .stopping .release
      · exact Or.inr (h.closed (by rw [hrelease]; rfl))
      · exact Or.inl (h.loop hquiet hrelease)
    refine ⟨(step_inside hs).2 hclosed hidle, fun hrunning => hcalm ?_⟩
    cases hsec : t.entered a with
    | none => simpa [hsec, enter] using hrunning
    | some sec =>
      rw [hsec] at hrunning
      refine Section.becomesRunning (fun expected reason now id accepts hrecover => ?_) hrunning
      obtain ⟨env, -, hwatchdog⟩ := entered_recoverMedia (hrecover ▸ hsec)
      rw [hidle] at hwatchdog
      cases hwatchdog
  · rw [hlifecycle, hloop]
    exact h.loop
  · rw [hlifecycle, hqueue]
    exact h.queue

/-- A `start` in which nothing fails. -/
def startUp : List RtspAction :=
  .call .start true ::
    [{}, {}, { id := 1 }, {}, { id := 2 }, {}, {}, { id := 3 }, {}, {}].map .owner

/-- A media of the installed factory is configured, and its source is bound. -/
def configureMedia (media source : ℕ) : List RtspAction :=
  [.signal (.configure 1 media), .callback 0 {}, .callback 0 {},
    .callback 0 { source := some source }, .callback 0 {}]

example : ((exec step (initial 30) (startUp ++ configureMedia 10 20)).map fun t =>
    (t.lifecycle, t.shared.currentMedia, t.shared.appsrc, t.callbacks)) =
      some (.started, some 10, some 20, []) := by decide

theorem EpochInv.reachable {fps : ℕ} (h : Reachable RtspServer.step (RtspServer.initial fps) t) :
    EpochInv t :=
  h.invariant EpochInv (.initial fps) fun _ _ _ hinv hs => hinv.step hs

end RtspServer

end EggVision
