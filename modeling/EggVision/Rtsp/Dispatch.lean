import EggVision.Rtsp.Watchdog

/-!
# A recovery is dispatched as a whole or not at all

`recoverMedia` enters `source_mutex_` once, and once more in its `catch`. Whatever throws in it
throws before the first of its assignments, and the job is put into the worker's slot before either
lock is released. So a call that fails leaves the source and the listener with their owner, and a
call that succeeds hands both over together with the job that closes them.

## Main definitions

* `RecoverCall` — a call of `recoverMedia`, with its own steps and its result
* `Kept`, `HandedOver` — what a step of it may do

## Main results

* `recoverMedia_atomic`
* `exists_recoverCall` — a call comes to its end, whatever the state it is entered in
-/

namespace EggVision

open Transition RtspState

namespace RtspServer

variable {t t' : RtspServer} {expected : ℕ} {reason : String}

/-- The threads take steps, the watchdog's own apart. -/
def Beside (t : RtspServer) (others : List (RtspServer × RtspAction)) (t' : RtspServer) : Prop :=
  Run step t others t' ∧ ∀ x ∈ others, ∀ env, x.2 ≠ .watchdog env

/-- A call of `recoverMedia` from the moment it is entered, with the states before and after each of
its own steps and with what it returns. In the `catch`, and between the locked part and the end of
a dispatch, the other threads may come first. -/
inductive RecoverCall (expected : ℕ) (reason : String) :
    RtspServer → List (RtspServer × RtspServer) → Bool → Prop
  | ignored {t t₁ : RtspServer} {env : WatchdogEnv} :
      t.watchdog = .recovering expected reason → t.step (.watchdog env) = some t₁ →
      t₁.watchdog = .idle → RecoverCall expected reason t [(t, t₁)] false
  | failed {t t₁ t₂ t₃ : RtspServer} {env env' : WatchdogEnv}
      {others : List (RtspServer × RtspAction)} :
      t.watchdog = .recovering expected reason → t.step (.watchdog env) = some t₁ →
      t₁.watchdog = .failing expected → Beside t₁ others t₂ →
      t₂.step (.watchdog env') = some t₃ →
      RecoverCall expected reason t [(t, t₁), (t₂, t₃)] false
  | dispatched {t t₁ t₂ t₃ : RtspServer} {env env' : WatchdogEnv}
      {others : List (RtspServer × RtspAction)} :
      t.watchdog = .recovering expected reason → t.step (.watchdog env) = some t₁ →
      t₁.watchdog = .dispatched → Beside t₁ others t₂ →
      t₂.step (.watchdog env') = some t₃ →
      RecoverCall expected reason t [(t, t₁), (t₂, t₃)] true

/-- The recovery fields, as far as they describe a request. -/
def request (s : RtspState) : RecoveryState × ℕ × ℕ × String :=
  (s.recoveryState, s.recoveryGeneration, s.recoveryToken, s.recoveryReason)

/-- The step moves neither source, listener nor job. At most it drops a request of the
generation. -/
structure Kept (expected : ℕ) (t t' : RtspServer) : Prop where
  appsrc : t'.shared.appsrc = t.shared.appsrc
  listenerSource : t'.shared.listenerSource = t.shared.listenerSource
  acceptingClients : t'.shared.acceptingClients = t.shared.acceptingClients
  currentMedia : t'.shared.currentMedia = t.shared.currentMedia
  mediaGeneration : t'.shared.mediaGeneration = t.shared.mediaGeneration
  generation : t'.shared.generation = t.shared.generation
  recoveryJob : t'.shared.recoveryJob = t.shared.recoveryJob
  worker : t'.worker = t.worker
  nextJob : t'.nextJob = t.nextJob
  request : request t'.shared = request t.shared ∨
    t.shared.isRequested expected = true ∧ request t'.shared = (.idle, 0, 0, "")

/-- The step hands everything over: source and listener go, clients are refused, `Running` is
published, and the one job that waits for the worker carries its token. -/
structure HandedOver (expected : ℕ) (reason : String) (t t' : RtspServer) (job : RecoveryJob) :
    Prop where
  appsrc : t'.shared.appsrc = none
  source : job.source = t.shared.appsrc
  listenerSource : t'.shared.listenerSource = none
  listener : ∃ now, t.shared.recoverMedia expected reason now t.nextJob t.worker.accepts =
    (t'.shared, .dispatched job t.shared.listenerSource)
  acceptingClients : t'.shared.acceptingClients = false
  recoveryState : t'.shared.recoveryState = .running
  recoveryGeneration : t'.shared.recoveryGeneration = expected
  token : t'.shared.recoveryToken = job.token ∧ job.token ≠ 0
  recoveryJob : t'.shared.recoveryJob = some job
  room : t.worker.pending = none
  worker : t'.worker = { t.worker with pending := some job }
  nextJob : job.id = t.nextJob ∧ t'.nextJob = t.nextJob + 1

/-! ### The steps of a call -/

theorem Kept.of_shared (hworker : t'.worker = t.worker) (hnext : t'.nextJob = t.nextJob)
    (hshared : t'.shared = t.shared) : Kept expected t t' := by
  refine ⟨?_, ?_, ?_, ?_, ?_, ?_, ?_, hworker, hnext, Or.inl ?_⟩ <;> rw [hshared]

theorem Kept.of_drop (hworker : t'.worker = t.worker) (hnext : t'.nextJob = t.nextJob)
    (hrequested : t.shared.isRequested expected = true)
    (hshared : t'.shared = t.shared.dropRequest) : Kept expected t t' := by
  refine ⟨?_, ?_, ?_, ?_, ?_, ?_, ?_, hworker, hnext, Or.inr ⟨hrequested, ?_⟩⟩ <;>
    rw [hshared] <;> rfl

theorem publishRunning_token_ne_zero (s : RtspState) (now : ℤ) (id : ℕ) :
    (s.publishRunning expected reason now id).2.token ≠ 0 := by
  simp only [publishRunning]
  split
  · exact Nat.succ_ne_zero _
  next hnonzero => exact hnonzero

/-- The first step of a call: it has returned or failed and kept everything, or it has handed
everything over. -/
theorem step_recovering (hphase : t.watchdog = .recovering expected reason) {env : WatchdogEnv}
    (hs : t.step (.watchdog env) = some t') :
    (t'.watchdog = .idle ∨ t'.watchdog = .failing expected) ∧ Kept expected t t' ∨
      t'.watchdog = .dispatched ∧ ∃ job, HandedOver expected reason t t' job := by
  simp only [step, watchdogStep, hphase] at hs
  split at hs
  · cases hs
    exact Or.inl ⟨Or.inr rfl, .of_shared rfl rfl rfl⟩
  · rcases recoverMedia_cases expected reason env.now t.nextJob t.worker.accepts t.shared with
      ⟨hsame, hnone⟩ | ⟨-, hrequested, heq⟩ | ⟨-, -, -, -, -, haccepts, heq⟩
    · split at hs
      next hresult =>
        cases hs
        rw [hresult] at hsame
        exact Or.inl ⟨Or.inl rfl, .of_shared rfl rfl hsame⟩
      next hresult =>
        cases hs
        rw [hresult] at hsame
        exact Or.inl ⟨Or.inr rfl, .of_shared rfl rfl hsame⟩
      next hresult => exact absurd (congrArg Prod.snd hresult) (hnone _ _)
    · rw [heq] at hs
      cases hs
      exact Or.inl ⟨Or.inl rfl, .of_drop rfl rfl hrequested rfl⟩
    · rw [heq] at hs
      cases hs
      simp only [RecoveryWorker.accepts, Bool.and_eq_true, Option.isNone_iff_eq_none] at haccepts
      exact Or.inr ⟨rfl, _, {
        appsrc := rfl
        source := rfl
        listenerSource := rfl
        listener := ⟨env.now, heq⟩
        acceptingClients := rfl
        recoveryState := rfl
        recoveryGeneration := rfl
        token := ⟨rfl, publishRunning_token_ne_zero _ _ _⟩
        recoveryJob := rfl
        room := haccepts.2
        worker := rfl
        nextJob := ⟨rfl, rfl⟩ }⟩

/-- The `catch` finds what it finds: the request is dropped, a recovery that runs is left alone. -/
theorem step_failing (hphase : t.watchdog = .failing expected) {env : WatchdogEnv}
    (hs : t.step (.watchdog env) = some t') : Kept expected t t' := by
  simp only [step, watchdogStep, hphase, Option.some.injEq] at hs
  subst hs
  by_cases hrequested : t.shared.isRequested expected = true
  · exact .of_drop rfl rfl hrequested (if_pos hrequested)
  · by_cases hrunning : t.shared.recoveryState = .running
    · constructor <;> simp [failDispatch, hrequested, hrunning, request]
    · exact .of_shared rfl rfl (by simp [failDispatch, hrequested, hrunning])

/-- The end of a dispatch only clears the queue. -/
theorem step_dispatched (hphase : t.watchdog = .dispatched) {env : WatchdogEnv}
    (hs : t.step (.watchdog env) = some t') :
    t'.shared = t.shared ∧ t'.worker = t.worker ∧ t'.nextJob = t.nextJob := by
  simp only [step, watchdogStep, hphase, Option.some.injEq] at hs
  subst hs
  exact ⟨rfl, rfl, rfl⟩

/-- A watchdog that is inside always has a next step. -/
theorem exists_watchdogStep (hbusy : t.watchdog ≠ .idle) (env : WatchdogEnv) :
    ∃ t', t.step (.watchdog env) = some t' := by
  cases hphase : t.watchdog with
  | idle => exact absurd hphase hbusy
  | recovering expected reason =>
    simp only [step, watchdogStep, hphase]
    split
    · exact ⟨_, rfl⟩
    · split <;> exact ⟨_, rfl⟩
  | _ => simp [step, watchdogStep, hphase]

/-- Nobody else moves a watchdog that is inside. -/
theorem Beside.watchdog {others : List (RtspServer × RtspAction)} (h : Beside t others t')
    (hbusy : t.watchdog ≠ .idle) : t'.watchdog = t.watchdog := by
  obtain ⟨hrun, hothers⟩ := h
  refine (hrun.forall_of (fun s => s.watchdog = t.watchdog) (fun _ a => ∀ env, a ≠ .watchdog env)
    rfl ?_ hothers).2
  intro s a s' _ hsame hbeside hs
  rcases step_watchdog hs hbeside with heq | ⟨hidle, -⟩
  · exact heq.trans hsame
  · exact absurd (hsame.symm.trans hidle) hbusy

/-! ### The whole call -/

/-- **A call of `recoverMedia` that returns false has moved nothing, whatever failed in it, and one
that returns true has handed everything over in its first critical section.** -/
theorem recoverMedia_atomic {own : List (RtspServer × RtspServer)} {result : Bool}
    (h : RecoverCall expected reason t own result) :
    (result = false → ∀ x ∈ own, Kept expected x.1 x.2) ∧
      (result = true → ∃ t₁ rest job, own = (t, t₁) :: rest ∧
        HandedOver expected reason t t₁ job ∧
        ∀ x ∈ rest, x.2.shared = x.1.shared ∧ x.2.worker = x.1.worker ∧
          x.2.nextJob = x.1.nextJob) := by
  cases h with
  | ignored hphase hs hidle =>
    refine ⟨fun _ => ?_, by rintro ⟨⟩⟩
    rcases step_recovering hphase hs with ⟨-, hkept⟩ | ⟨hdispatched, -⟩
    · simpa using hkept
    · rw [hidle] at hdispatched
      cases hdispatched
  | failed hphase hs hfailing hbeside hs' =>
    refine ⟨fun _ => ?_, by rintro ⟨⟩⟩
    have hcatch := (hbeside.watchdog (by simp [hfailing])).trans hfailing
    rcases step_recovering hphase hs with ⟨-, hkept⟩ | ⟨hdispatched, -⟩
    · simpa using ⟨hkept, step_failing hcatch hs'⟩
    · rw [hfailing] at hdispatched
      cases hdispatched
  | dispatched hphase hs hdispatched hbeside hs' =>
    refine ⟨by rintro ⟨⟩, fun _ => ?_⟩
    have hend := (hbeside.watchdog (by simp [hdispatched])).trans hdispatched
    rcases step_recovering hphase hs with ⟨hidle | hfailing, -⟩ | ⟨-, job, hover⟩
    · rw [hdispatched] at hidle
      cases hidle
    · rw [hdispatched] at hfailing
      cases hfailing
    · exact ⟨_, _, job, rfl, hover, by simpa using step_dispatched hend hs'⟩

/-- The watchdog calls `recoverMedia` for a media error. -/
def callRecovery : List RtspAction :=
  startUp ++ configureMedia 10 20 ++ reportMediaError 10 ++ [.tick 0, .watchdog {}, .watchdog {}]

/-- The call when an allocation throws, and when none does. -/
theorem recoverMedia_atomic_error :
    ∃ t t₁ t₂ t₃ reason, Reachable step (initial 30) t ∧
      t.step (.watchdog { throws := true }) = some t₁ ∧ Kept 2 t t₁ ∧
      t₁.step (.watchdog {}) = some t₂ ∧ Kept 2 t₁ t₂ ∧
      t.step (.watchdog {}) = some t₃ ∧ ∃ job, HandedOver 2 reason t t₃ job := by
  obtain ⟨t, hr, hphase, hstep⟩ := exists_reachable step (initial 30) callRecovery
    (fun t => t.watchdog = .recovering 2 "media bus reported an error" ∧
      (t.step (.watchdog {})).any (fun s => decide (s.watchdog = .dispatched)) = true) (by decide)
  obtain ⟨t₃, hs₃, hdispatched⟩ := (Option.any_eq_true _ _).mp hstep
  rw [decide_eq_true_eq] at hdispatched
  obtain ⟨t₄, hs₄⟩ := exists_watchdogStep (t := t₃) (by simp [hdispatched]) {}
  obtain ⟨t₁, hs₁, hfailing⟩ : ∃ t₁, t.step (.watchdog { throws := true }) = some t₁ ∧
      t₁.watchdog = .failing 2 := by simp [step, watchdogStep, hphase]
  obtain ⟨t₂, hs₂⟩ := exists_watchdogStep (t := t₁) (by simp [hfailing]) {}
  have hkept := (recoverMedia_atomic (.failed hphase hs₁ hfailing ⟨.nil, by simp⟩ hs₂)).1 rfl
  obtain ⟨_, _, job, hown, hover, -⟩ := (recoverMedia_atomic (.dispatched hphase hs₃
    hdispatched ⟨.nil, by simp⟩ hs₄)).2 rfl
  cases hown
  exact ⟨t, t₁, t₂, t₃, _, hr, hs₁, hkept _ (.head _), hs₂, hkept _ (.tail _ (.head _)), hs₃, job,
    hover⟩

/-- A call that is entered comes to its end, whatever the state and whatever fails. -/
theorem exists_recoverCall (hphase : t.watchdog = .recovering expected reason) (env : WatchdogEnv) :
    ∃ t₁ rest result, t.step (.watchdog env) = some t₁ ∧
      RecoverCall expected reason t ((t, t₁) :: rest) result := by
  obtain ⟨t₁, hs⟩ := exists_watchdogStep (t := t) (by simp [hphase]) env
  have hstay : Beside t₁ [] t₁ := ⟨.nil, by simp⟩
  rcases step_recovering hphase hs with ⟨hidle | hfailing, -⟩ | ⟨hdispatched, -⟩
  · exact ⟨t₁, _, false, hs, .ignored hphase hs hidle⟩
  · obtain ⟨t₃, hs'⟩ := exists_watchdogStep (t := t₁) (by simp [hfailing]) {}
    exact ⟨t₁, _, false, hs, .failed hphase hs hfailing hstay hs'⟩
  · obtain ⟨t₃, hs'⟩ := exists_watchdogStep (t := t₁) (by simp [hdispatched]) {}
    exact ⟨t₁, _, true, hs, .dispatched hphase hs hdispatched hstay hs'⟩

end RtspServer

end EggVision
