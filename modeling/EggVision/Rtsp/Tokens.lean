import EggVision.Rtsp.Jobs

/-!
# Recovery tokens

A request for a recovery gets a token, and the job that is published for it carries the token on.
Tokens are numbered anew in every epoch. As long as no callback overwrites a recovery that runs, a
token is published with one job only.

## Main definitions

* `RenewsToken` — a token is kept, given up, or the next number
* `KeepsRecovery` — a callback or a feeder step leaves a recovery that runs alone
* `OneJobPerToken` — no token is published twice in an epoch

## Main results

* `one_teardown_run_iff` — when each token stands for one teardown
-/

namespace EggVision

open Transition History RtspState

namespace RtspState

variable {s : RtspState}

/-! ### How sections number requests -/

/-- The token is kept, given up, or the next one. -/
structure RenewsToken (s s' : RtspState) : Prop where
  monotone : s.nextRecoveryToken ≤ s'.nextRecoveryToken
  token : s'.recoveryToken = s.recoveryToken ∨ s'.recoveryToken = 0 ∨
    (s'.recoveryToken = s.nextRecoveryToken + 1 ∧ s'.nextRecoveryToken = s.nextRecoveryToken + 1)

theorem RenewsToken.refl (s : RtspState) : RenewsToken s s := ⟨Nat.le_refl _, Or.inl rfl⟩

theorem RenewsToken.drop {s' : RtspState} (hnext : s'.nextRecoveryToken = s.nextRecoveryToken)
    (htoken : s'.recoveryToken = 0) : RenewsToken s s' :=
  ⟨Nat.le_of_eq hnext.symm, Or.inr (Or.inl htoken)⟩

theorem RenewsToken.next {s' : RtspState} (hnext : s'.nextRecoveryToken = s.nextRecoveryToken + 1)
    (htoken : s'.recoveryToken = s.nextRecoveryToken + 1) : RenewsToken s s' :=
  ⟨by omega, Or.inr (Or.inr ⟨htoken, hnext⟩)⟩

/-- A first request takes the next token, another one keeps the token it finds. -/
theorem RenewsToken.ofRequest {s' : RtspState} {first : Bool}
    (hnext : s'.nextRecoveryToken = if first then s.nextRecoveryToken + 1 else s.nextRecoveryToken)
    (htoken : s'.recoveryToken = if first then s.nextRecoveryToken + 1 else s.recoveryToken) :
    RenewsToken s s' := by
  cases first with
  | true => exact .next hnext htoken
  | false => exact ⟨Nat.le_of_eq hnext.symm, Or.inl htoken⟩

theorem Section.renewsToken {sec : Section} (hstart : ∀ now, sec ≠ .publishStart now)
    (s : RtspState) : RenewsToken s (sec.apply s) := by
  have hsame := RenewsToken.refl s
  by_cases hmoves : sec.movesRecovery = false
  · have hrecovery := sec.sameRecovery hmoves s
    exact ⟨Nat.le_of_eq hrecovery.nextToken.symm, Or.inl hrecovery.token⟩
  cases sec with
  | publishStart now => exact absurd rfl (hstart now)
  | retireAll now => exact .drop rfl rfl
  | configure factory media now =>
    simp only [Section.apply, RtspState.configure]
    split
    · exact .drop rfl rfl
    · exact hsame
  | failSetup media =>
    simp only [Section.apply, RtspState.failSetup]
    split
    · exact .next rfl rfl
    · exact hsame
  | unprepare media now =>
    simp only [Section.apply, RtspState.unprepare]
    split
    · simp only
      split
      · exact { hsame with }
      · exact .drop rfl rfl
    · exact hsame
  | reportError media now =>
    simp only [Section.apply, RtspState.reportError]
    split
    · exact .ofRequest rfl rfl
    · exact hsame
  | resume listener done =>
    simp only [Section.apply, RtspState.resume]
    split
    · split
      · exact .drop rfl rfl
      · exact hsame
    · split <;> exact { hsame with }
  | recoverMedia expected reason now id accepts =>
    simp only [Section.apply]
    rcases recoverMedia_cases expected reason now id accepts s with
      ⟨heq, -⟩ | ⟨-, -, heq⟩ | ⟨-, -, -, -, -, -, heq⟩ <;> rw [heq]
    · exact hsame
    · exact .drop rfl rfl
    · simp only [RtspState.publishRunning]
      by_cases hzero : s.recoveryToken = 0
      · exact .next (if_pos hzero) (if_pos hzero)
      · exact ⟨Nat.le_of_eq (if_neg hzero).symm, Or.inl (if_neg hzero)⟩
  | failDispatch expected =>
    simp only [Section.apply, RtspState.failDispatch]
    split
    · exact .drop rfl rfl
    · split <;> exact { hsame with }
  | recordPush mediaGeneration flow =>
    simp only [Section.apply, RtspState.recordPush]
    split
    · cases flow with
      | ok => exact { hsame with }
      | flushing => exact { hsame with }
      | error =>
        simp only
        split
        · exact .ofRequest rfl rfl
        · exact { hsame with }
    · exact hsame
  | checkRecovery now done => exact { hsame with }
  | _ => exact absurd rfl hmoves

/-- Who requests a recovery: the setup of the current media that failed, its bus, or the third push
to it that failed. -/
theorem Section.becomesRequested (sec : Section)
    (h : (sec.apply s).recoveryState = .requested) :
    s.recoveryState = .requested ∨
      (∃ media, s.currentMedia = some media ∧
        (sec = .failSetup media ∨ ∃ now, sec = .reportError media now)) ∨
      ∃ mediaGeneration flow, sec = .recordPush mediaGeneration flow ∧ s.currentMedia ≠ none ∧
        3 ≤ s.consecutivePushFailures + 1 := by
  by_cases hmoves : sec.movesRecovery = false
  · exact Or.inl ((sec.sameRecovery hmoves s).state ▸ h)
  cases sec with
  | publishStart now => cases h
  | retireAll now => cases h
  | failSetup media =>
    simp only [Section.apply, RtspState.failSetup] at h
    split at h
    next hmedia => exact Or.inr (Or.inl ⟨media, hmedia, Or.inl rfl⟩)
    · exact Or.inl h
  | reportError media now =>
    simp only [Section.apply, RtspState.reportError] at h
    split at h
    next hmedia => exact Or.inr (Or.inl ⟨media, hmedia, Or.inr ⟨now, rfl⟩⟩)
    · exact Or.inl h
  | recordPush mediaGeneration flow =>
    simp only [Section.apply, RtspState.recordPush] at h
    split at h
    next hcurrent =>
      simp only [Bool.and_eq_true, Option.isSome_iff_ne_none] at hcurrent
      cases flow with
      | ok => exact Or.inl h
      | flushing => exact Or.inl h
      | error =>
        simp only at h
        split at h
        next hmany => exact Or.inr (Or.inr ⟨mediaGeneration, .error, rfl, hcurrent.1, hmany⟩)
        · exact Or.inl h
    · exact Or.inl h
  | configure factory media now =>
    simp only [Section.apply, RtspState.configure] at h
    split at h
    · cases h
    · exact Or.inl h
  | unprepare media now =>
    simp only [Section.apply, RtspState.unprepare] at h
    split at h
    · simp only at h
      split at h
      · exact Or.inl h
      · cases h
    · exact Or.inl h
  | checkRecovery now done =>
    simp only [Section.apply, RtspState.checkRecovery] at h
    split at h
    · cases h
    · exact Or.inl h
  | resume listener done =>
    simp only [Section.apply, RtspState.resume] at h
    split at h
    · split at h
      · cases h
      · exact Or.inl h
    · split at h <;> exact Or.inl h
  | recoverMedia expected reason now id accepts =>
    simp only [Section.apply] at h
    rcases recoverMedia_cases expected reason now id accepts s with
      ⟨heq, -⟩ | ⟨-, -, heq⟩ | ⟨-, -, -, -, -, -, heq⟩ <;> rw [heq] at h
    · exact Or.inl h
    · cases h
    · cases h
  | failDispatch expected =>
    simp only [Section.apply, RtspState.failDispatch] at h
    split at h
    · cases h
    · split at h <;> exact Or.inl h
  | _ => exact absurd rfl hmoves

/-- The section overwrites a recovery that runs. -/
def Section.overwritesRunning (s : RtspState) (sec : Section) : Bool :=
  decide (s.recoveryState = .running) && sec.overwrites s

/-- A request takes the place of no recovery, or overwrites the one that runs. -/
theorem Section.requests (hinv : RecoveryInv s) {sec : Section}
    (hpush : ∀ mediaGeneration flow, sec = .recordPush mediaGeneration flow →
      s.recoveryState = .running → s.consecutivePushFailures = 0)
    (hkept : sec.overwritesRunning s = false)
    (hrequested : (sec.apply s).recoveryState = .requested) :
    s.recoveryState = .requested ∨ s.recoveryState = .idle := by
  cases hstate : s.recoveryState with
  | requested => exact Or.inl rfl
  | idle => exact Or.inr rfl
  | running =>
    rcases Section.becomesRequested _ hrequested with hc | ⟨media, hmedia, rfl | ⟨now, rfl⟩⟩ |
      ⟨mediaGeneration, flow, rfl, -, hmany⟩
    · rw [hstate] at hc
      cases hc
    · simp [Section.overwritesRunning, Section.overwrites, hstate, hmedia] at hkept
    · simp [Section.overwritesRunning, Section.overwrites, hstate, hmedia] at hkept
    · have := hpush mediaGeneration flow rfl hstate
      omega
  | completed =>
    have hgone := hinv.gone (Or.inr hstate)
    rcases Section.becomesRequested _ hrequested with hc | ⟨media, hmedia, -⟩ |
      ⟨mediaGeneration, flow, -, hmedia, -⟩
    · rw [hstate] at hc
      cases hc
    · rw [hgone] at hmedia
      cases hmedia
    · exact absurd hgone hmedia

end RtspState

namespace RtspServer

variable {t t' : RtspServer} {a : RtspAction} {fps : ℕ}

/-! ### Steps that leave a running recovery alone -/

/-- The step overwrites a recovery that runs. -/
def overwritesRunning (t : RtspServer) (a : RtspAction) : Bool :=
  match t.entered a with
  | some sec => sec.overwritesRunning t.shared
  | none => false

/-- A step of a media callback or of the feeder. -/
def fromMedia : RtspAction → Bool
  | .callback _ _ | .feeder _ => true
  | .call _ _ | .owner _ | .signal _ | .tick _ | .watchdog _ | .worker | .submit _
  | .submitNext => false

/-- A recovery that runs, and its token, are left alone by a media callback or a feeder step. -/
def KeepsRecovery (x : RtspServer × RtspAction) : Prop :=
  x.1.shared.recoveryState = .running → fromMedia x.2 = true →
    ∀ t', x.1.step x.2 = some t' → t'.shared.recoveryState = .running ∧
      t'.shared.recoveryToken = x.1.shared.recoveryToken

/-- A callback leaves a running recovery alone, unless it overwrites it. -/
theorem callback_keeps {s : RtspState} (hinv : RecoveryInv s)
    (hrunning : s.recoveryState = .running) {env : CallbackEnv} {task : CallbackTask}
    {sec : Section} (hsec : callbackSection env task = some sec)
    (hkept : sec.overwrites s = false) :
    (sec.apply s).recoveryState = .running ∧ (sec.apply s).recoveryToken = s.recoveryToken := by
  cases task with
  | configure factory media =>
    cases hsec
    simp only [Section.overwrites, hrunning, decide_true, Bool.true_or, Bool.and_true] at hkept
    simp only [Section.apply, RtspState.configure, hkept]
    exact ⟨hrunning, rfl⟩
  | bind media after =>
    obtain ⟨source, -, rfl⟩ := Option.map_eq_some_iff.mp hsec
    simp only [Section.apply, RtspState.bind]
    split
    · exact ⟨hrunning, rfl⟩
    · split <;> exact ⟨hrunning, rfl⟩
  | failSetup media =>
    cases hsec
    simp only [Section.apply, RtspState.failSetup]
    split
    next hmedia => simp [Section.overwrites, hmedia, hrunning] at hkept
    · exact ⟨hrunning, rfl⟩
  | prepared media =>
    cases hsec
    simp only [Section.apply, RtspState.markPrepared]
    split <;> exact ⟨hrunning, rfl⟩
  | unprepared media =>
    cases hsec
    simp only [Section.apply, RtspState.unprepare]
    split
    next hmedia =>
      have hgeneration := (hinv.current_running (by simp [hmedia]) hrunning).2
      have hrecovered : s.recoveredFromError = true := by
        simp [recoveredFromError, hrunning, hgeneration]
      simp only [hrecovered, if_true]
      exact ⟨hrunning, trivial⟩
    · exact ⟨hrunning, rfl⟩
  | targetState media toNull =>
    cases hsec
    simp only [Section.apply, RtspState.targetState]
    split <;> exact ⟨hrunning, rfl⟩
  | handleMessage media isError =>
    obtain ⟨-, ⟨⟩⟩ := Option.ite_none_right_eq_some.mp hsec
    simp only [Section.apply, RtspState.reportError]
    split
    next hmedia => simp [Section.overwrites, hmedia, hrunning] at hkept
    · exact ⟨hrunning, rfl⟩
  | configured media => cases hsec
  | bound media after => cases hsec
  | released => cases hsec

/-- A push result leaves a running recovery alone. -/
theorem recordPush_keeps {s : RtspState} {mediaGeneration : ℕ} {flow : FlowReturn}
    (hrunning : s.recoveryState = .running) (hfew : s.consecutivePushFailures = 0) :
    (s.recordPush mediaGeneration flow).recoveryState = .running ∧
      (s.recordPush mediaGeneration flow).recoveryToken = s.recoveryToken := by
  rcases recordPush_recovery mediaGeneration flow s with hrequested | ⟨_, heq⟩
  · rcases Section.becomesRequested (.recordPush mediaGeneration flow) hrequested with
      hc | ⟨_, _, hc | ⟨_, hc⟩⟩ | ⟨_, _, -, -, hmany⟩
    · rw [hrunning] at hc
      cases hc
    · cases hc
    · cases hc
    · omega
  · rw [heq]
    exact ⟨hrunning, rfl⟩

theorem overwritesRunning_eq_false (h : t.overwritesRunning a = false) {sec : Section}
    (hsec : t.entered a = some sec) : sec.overwritesRunning t.shared = false := by
  simpa only [overwritesRunning, hsec] using h

theorem keepsRecovery_of_kept (hr : Reachable step (initial fps) t)
    (hkept : t.overwritesRunning a = false) : KeepsRecovery (t, a) := by
  intro hrunning hmedia t' hs
  replace hrunning : t.shared.recoveryState = .running := hrunning
  have hshared : t'.shared = enter (t.entered a) t.shared := step_shared hs
  simp only [hshared]
  cases hsec : t.entered a with
  | none => exact ⟨hrunning, rfl⟩
  | some sec =>
    have hnot : sec.overwrites t.shared = false := by
      simpa [Section.overwritesRunning, hrunning] using overwritesRunning_eq_false hkept hsec
    rcases entered_cases hsec with ⟨env, rfl, -⟩ | ⟨index, env, task, -, -, hcallback⟩ |
      ⟨env, rfl, -⟩ | ⟨env, mediaGeneration, flow, -, -, rfl⟩
    · cases hmedia
    · exact callback_keeps (recoveryInv_of_reachable hr) hrunning hcallback hnot
    · cases hmedia
    · exact recordPush_keeps hrunning (recordPush_few (.reachable hr) hsec hrunning)

/-- Only callbacks overwrite a recovery, and one that they have overwritten does not run. -/
theorem overwrites_spec {s : RtspState} {sec : Section} (h : sec.overwrites s = true) :
    sec.byOwner = false ∧ (∀ g flow, sec ≠ .recordPush g flow) ∧
      (∀ env, t.watchdogSection env ≠ some sec) ∧ (sec.apply s).recoveryState ≠ .running := by
  have hwatchdog : ∀ env, t.watchdogSection env ≠ some sec := by
    intro env hsec
    unfold watchdogSection at hsec
    split at hsec
    · cases hsec
      cases h
    · cases hsec
      cases h
    · split at hsec <;> cases hsec
      cases h
    · cases hsec
      cases h
    all_goals cases hsec
  cases sec with
  | reportError media now =>
    simp only [Section.overwrites, Bool.and_eq_true, decide_eq_true_eq] at h
    refine ⟨rfl, by rintro _ _ ⟨⟩, hwatchdog, ?_⟩
    simp [Section.apply, RtspState.reportError, h.1]
  | failSetup media =>
    simp only [Section.overwrites, Bool.and_eq_true, decide_eq_true_eq] at h
    refine ⟨rfl, by rintro _ _ ⟨⟩, hwatchdog, ?_⟩
    simp [Section.apply, RtspState.failSetup, h.1]
  | configure factory media now =>
    simp only [Section.overwrites, Bool.and_eq_true] at h
    refine ⟨rfl, by rintro _ _ ⟨⟩, hwatchdog, ?_⟩
    simp [Section.apply, RtspState.configure, h.1]
  | _ => cases h

theorem kept_of_keepsRecovery (hs : t.step a = some t') (h : KeepsRecovery (t, a)) :
    t.overwritesRunning a = false := by
  refine Bool.eq_false_iff.mpr fun hover => ?_
  unfold overwritesRunning at hover
  split at hover
  next sec hsec =>
    simp only [Section.overwritesRunning, Bool.and_eq_true, decide_eq_true_eq] at hover
    obtain ⟨hown, hpush, hwatchdog, hafter⟩ := overwrites_spec (t := t) hover.2
    rcases entered_cases hsec with ⟨env, -, hc⟩ | ⟨index, env, task, rfl, -, -⟩ |
      ⟨env, -, hc⟩ | ⟨_, g, flow, -, -, hc⟩
    · rw [hown] at hc
      cases hc
    · refine hafter ?_
      have hshared := step_shared hs
      rw [hsec] at hshared
      rw [show sec.apply t.shared = t'.shared from hshared.symm]
      exact (h hover.1 rfl t' hs).1
    · exact absurd hc (hwatchdog env)
    · exact absurd hc (hpush g flow)
  · cases hover

/-! ### One job for a token -/

/-- The step begins an epoch; tokens are numbered anew. -/
def opensEpoch (x : RtspServer × RtspAction) : Bool :=
  match x.1.lifecycle, x.2 with
  | .starting .publish, .owner _ => true
  | _, _ => false

/-- Two jobs with one token are of different epochs. -/
def OneJobPerToken (history : List (RtspServer × RtspAction)) : Prop :=
  ∀ before x between y after, history = before ++ x :: (between ++ y :: after) →
    ∀ job job', x.1.publishes x.2 = some job → y.1.publishes y.2 = some job' →
      job.token = job'.token → ∃ z ∈ between, opensEpoch z = true

/-- The tokens of a run: those of this epoch's jobs have been given out, and a request has none of
them. -/
structure TokenInv (history : List (RtspServer × RtspAction)) (t : RtspServer) : Prop where
  bounded : t.shared.recoveryToken ≤ t.shared.nextRecoveryToken
  published : ∀ before x between, history = before ++ x :: between →
    (∀ z ∈ between, opensEpoch z = false) → ∀ job, x.1.publishes x.2 = some job →
      job.token ≤ t.shared.nextRecoveryToken ∧
        (t.shared.recoveryState = .requested → job.token ≠ t.shared.recoveryToken)
  once : OneJobPerToken history

/-- The token of a job is that of the request, or the next one. -/
theorem publishes_token {job : RecoveryJob} (h : t.publishes a = some job)
    (hinv : RecoveryInv t.shared) :
    (t.shared.recoveryState = .requested ∧ job.token = t.shared.recoveryToken) ∨
      job.token = t.shared.nextRecoveryToken + 1 := by
  obtain ⟨env, expected, reason, -, -, -, -, -, hstate, -, -, rfl, -⟩ := publishes_spec h
  by_cases hzero : t.shared.recoveryToken = 0
  · exact Or.inr (if_pos hzero)
  · refine Or.inl ⟨hstate.resolve_right fun hidle => hzero (hinv.token.mp hidle), if_neg hzero⟩

theorem entered_opensEpoch {now : ℤ} (h : t.entered a = some (.publishStart now)) :
    opensEpoch (t, a) = true := by
  obtain ⟨env, rfl⟩ := entered_byOwner h rfl
  simp only [opensEpoch, entered_publishStart h]

theorem publishes_opensEpoch (h : opensEpoch (t, a) = true) : t.publishes a = none := by
  unfold opensEpoch at h
  split at h
  next env _ heq =>
    replace heq : a = .owner env := heq
    rw [heq]
    rfl
  · cases h

/-- The two entries of a cut that has a new entry at its end. -/
theorem OneJobPerToken.snoc {history : List (RtspServer × RtspAction)}
    (h : OneJobPerToken history)
    (hnew : ∀ before x between, history = before ++ x :: between → ∀ job job',
      x.1.publishes x.2 = some job → t.publishes a = some job' → job.token = job'.token →
        ∃ z ∈ between, opensEpoch z = true) : OneJobPerToken (history ++ [(t, a)]) := by
  intro before x between y after hsplit job job' hx hy htoken
  rcases append_cons_eq_snoc hsplit with ⟨hnil, -, -⟩ | ⟨rest, hrest, hcut⟩
  · simp at hnil
  · rcases append_cons_eq_snoc hrest.symm with ⟨-, rfl, rfl⟩ | ⟨more, -, rfl⟩
    · exact hnew before x between hcut job job' hx hy htoken
    · exact h before x between y more hcut job job' hx hy htoken

theorem TokenInv.opened {history : List (RtspServer × RtspAction)}
    (h : TokenInv history t) (hopen : opensEpoch (t, a) = true)
    (hsec : ∃ now, t.entered a = some (.publishStart now)) (hs : t.step a = some t') :
    TokenInv (history ++ [(t, a)]) t' := by
  obtain ⟨now, hsec⟩ := hsec
  have hshared := step_shared hs
  rw [hsec] at hshared
  have hnone := publishes_opensEpoch hopen
  refine ⟨?_, ?_, ?_⟩
  · rw [hshared]
    exact Nat.le_refl 0
  · intro before x between hsplit hbetween job hjob
    rcases append_cons_eq_snoc hsplit with ⟨-, rfl, -⟩ | ⟨rest, rfl, -⟩
    · rw [hnone] at hjob
      cases hjob
    · have := hbetween (t, a) (by simp)
      rw [hopen] at this
      cases this
  · refine h.once.snoc fun before x between _ job job' _ hjob' => ?_
    rw [hnone] at hjob'
    cases hjob'

theorem TokenInv.step {history : List (RtspServer × RtspAction)} (h : TokenInv history t)
    (hr : Reachable RtspServer.step (RtspServer.initial fps) t) (hs : t.step a = some t')
    (hkept : t.overwritesRunning a = false)
    (hstart : ∀ now, t.entered a ≠ some (.publishStart now)) :
    TokenInv (history ++ [(t, a)]) t' := by
  have hinv := recoveryInv_of_reachable hr
  have hinv' := recoveryInv_of_reachable (hr.tail hs)
  have hrenews : RenewsToken t.shared t'.shared := by
    rw [step_shared hs]
    cases hsec : t.entered a with
    | none => exact .refl _
    | some sec => exact Section.renewsToken (fun now heq => hstart now (heq ▸ hsec)) _
  have hbounded : t'.shared.recoveryToken ≤ t'.shared.nextRecoveryToken := by
    have := h.bounded
    have := hrenews.monotone
    rcases hrenews.token with hsame | hzero | ⟨hnext, hnext'⟩ <;> omega
  refine ⟨hbounded, ?_, ?_⟩
  · intro before x between hsplit hbetween job hjob
    rcases append_cons_eq_snoc hsplit with ⟨-, rfl, -⟩ | ⟨rest, rfl, hcut⟩
    · -- the job of this step has the token of the recovery that now runs
      obtain ⟨env, expected, reason, rfl, -, -, -, -, -, -, -, rfl, heq⟩ := publishes_spec hjob
      rw [hs, Option.some.injEq] at heq
      subst heq
      exact ⟨hbounded, by rintro ⟨⟩⟩
    · obtain ⟨hle, hfresh⟩ := h.published before x rest hcut
        (fun z hz => hbetween z (List.mem_append_left _ hz)) job hjob
      refine ⟨Nat.le_trans hle hrenews.monotone, fun hrequested => ?_⟩
      rcases hrenews.token with hsame | hzero | ⟨hnext, -⟩
      · rw [hsame]
        refine hfresh ?_
        have hbefore : t.shared.recoveryState = .requested ∨ t.shared.recoveryState = .idle := by
          rw [step_shared hs] at hrequested
          cases hsec : t.entered a with
          | none =>
            rw [hsec] at hrequested
            exact Or.inl hrequested
          | some sec =>
            rw [hsec] at hrequested
            refine Section.requests hinv ?_ (overwritesRunning_eq_false hkept hsec) hrequested
            rintro mediaGeneration flow rfl hrunning
            exact recordPush_few (.reachable hr) hsec hrunning
        refine hbefore.resolve_right fun hidle => ?_
        have hc := hinv'.token.mpr (hsame.trans (hinv.token.mp hidle))
        rw [hrequested] at hc
        cases hc
      · have hc := hinv'.token.mpr hzero
        rw [hrequested] at hc
        cases hc
      · omega
  · refine h.once.snoc fun before x between hcut job job' hjob hjob' htoken => ?_
    by_contra hnone
    obtain ⟨hle, hfresh⟩ := h.published before x between hcut
      (fun z hz => Bool.eq_false_iff.mpr fun hopen => hnone ⟨z, hz, hopen⟩) job hjob
    rcases publishes_token hjob' hinv with ⟨hrequested, hsame⟩ | hnext
    · exact hfresh hrequested (htoken.trans hsame)
    · omega

theorem tokenInv_of_run {history : List (RtspServer × RtspAction)}
    (h : Run step (initial fps) history t)
    (hkept : ∀ x ∈ history, x.1.overwritesRunning x.2 = false) : TokenInv history t := by
  induction h with
  | nil =>
    refine ⟨Nat.le_refl 0, ?_, ?_⟩
    · intro before x between hsplit
      simp at hsplit
    · intro before x between y after hsplit
      simp at hsplit
  | @snoc history t t' a hrun hs ih =>
    have hinv := ih fun x hx => hkept x (List.mem_append_left _ hx)
    by_cases hstart : ∃ now, t.entered a = some (.publishStart now)
    · obtain ⟨now, hsec⟩ := hstart
      exact hinv.opened (entered_opensEpoch hsec) ⟨now, hsec⟩ hs
    · exact hinv.step hrun.reachable hs (hkept (t, a) (by simp)) fun now hsec =>
        hstart ⟨now, hsec⟩

/-- **When each recovery token stands for one teardown that nothing disturbs**: exactly in the runs
in which no media error, no failed setup and no new media overwrites a recovery that runs. -/
theorem one_teardown_run_iff {history : List (RtspServer × RtspAction)}
    (h : Run step (initial fps) history t) :
    (OneJobPerToken history ∧ ∀ x ∈ history, KeepsRecovery x) ↔
      ∀ x ∈ history, x.1.overwritesRunning x.2 = false := by
  constructor
  · rintro ⟨-, hkeeps⟩ x hx
    obtain ⟨_, hs, -⟩ := h.step_of_mem x hx
    exact kept_of_keepsRecovery hs (hkeeps x hx)
  · intro hkept
    exact ⟨(tokenInv_of_run h hkept).once, fun x hx =>
      keepsRecovery_of_kept (h.reachable_of_mem x hx) (hkept x hx)⟩

/-- A recovery from its request to its end, with one job. -/
theorem one_teardown_run_iff_finished :
    ∃ history t, Run step (initial 30) history t ∧ (∃ x ∈ history, (x.1.publishes x.2).isSome) ∧
      OneJobPerToken history ∧ ∀ x ∈ history, KeepsRecovery x := by
  let actions := startUp ++ configureMedia 10 20 ++ reportMediaError 10 ++ dispatchRecovery ++
    finishRecovery 10 ++ [.watchdog { listener := some 5 }]
  have hrun : Run step (initial 30) _ _ := Run.ofExec actions rfl
  exact ⟨_, _, hrun, by decide, (one_teardown_run_iff hrun).mpr (by decide)⟩

/-- In a part of a run within one epoch, no token is published twice. -/
theorem OneJobPerToken.nodup {first second : List (RtspServer × RtspAction)}
    (h : OneJobPerToken (first ++ second)) (hepoch : ∀ z ∈ second, opensEpoch z = false) :
    (second.filterMap fun x => (x.1.publishes x.2).map RecoveryJob.token).Nodup := by
  induction second generalizing first with
  | nil => exact List.nodup_nil
  | cons x rest ih =>
    have hsplit : OneJobPerToken ((first ++ [x]) ++ rest) := by simpa using h
    have hrest := ih hsplit
      fun z hz => hepoch z (List.mem_cons_of_mem x hz)
    cases hjob : x.1.publishes x.2 with
    | none => simpa [List.filterMap_cons, hjob] using hrest
    | some job =>
      simp only [List.filterMap_cons, hjob, Option.map_some]
      refine List.nodup_cons.mpr ⟨fun hmem => ?_, hrest⟩
      obtain ⟨y, hy, htoken⟩ := List.mem_filterMap.mp hmem
      obtain ⟨job', hjob', heq⟩ := Option.map_eq_some_iff.mp htoken
      obtain ⟨between, after, rfl⟩ := List.append_of_mem hy
      obtain ⟨z, hz, hopen⟩ := h first x between y after rfl job job' hjob hjob' heq.symm
      rw [hepoch z (by simp [hz])] at hopen
      cases hopen

/-- A media whose bus has reported an error is being torn down. -/
def tearingDown : List RtspAction :=
  startUp ++ configureMedia 10 20 ++ reportMediaError 10 ++ [.tick 0]

/-- From the first job of a recovery to a second error, and to the job for that. -/
def errorAgain : List RtspAction :=
  [.watchdog {}, .watchdog {}, .watchdog {}, .watchdog {}, .worker] ++ reportMediaError 10 ++
    dispatchRecovery

/-- A second error, of the media that is being torn down, takes the recovery back to a request with
the same token, and the next tick publishes a second job for it. -/
theorem not_one_teardown :
    (¬ ∀ fps history t, Run step (initial fps) history t → OneJobPerToken history) ∧
      ¬ ∀ fps history t, Run step (initial fps) history t → ∀ x ∈ history, KeepsRecovery x := by
  constructor
  · intro honce
    obtain ⟨s, hs, htwice⟩ := (Option.any_eq_true _ _).mp
      (show (exec step (initial 30) tearingDown).any (fun s =>
        (exec step s errorAgain).isSome &&
          decide ((∀ z ∈ trace step s errorAgain, opensEpoch z = false) ∧
            ¬ ((trace step s errorAgain).filterMap fun x =>
              (x.1.publishes x.2).map RecoveryJob.token).Nodup)) = true by decide)
    simp only [Bool.and_eq_true, decide_eq_true_eq] at htwice
    obtain ⟨hgoes, hepoch, htokens⟩ := htwice
    obtain ⟨s', hs'⟩ := Option.isSome_iff_exists.mp hgoes
    exact htokens ((honce 30 _ s' ((Run.ofExec tearingDown hs).exec errorAgain hs')).nodup hepoch)
  · intro hkeeps
    obtain ⟨s, hr, hover, hnext⟩ := exists_reachable step (initial 30)
      (tearingDown ++ [.watchdog {}, .watchdog {}, .watchdog {}, .watchdog {},
        .signal (.handleMessage 10 true)])
      (fun s => s.overwritesRunning (.callback 0 {}) = true ∧
        (s.step (.callback 0 {})).isSome = true) (by decide)
    obtain ⟨history, hrun⟩ := hr
    obtain ⟨s', hs'⟩ := Option.isSome_iff_exists.mp hnext
    have hkept := kept_of_keepsRecovery hs'
      (hkeeps 30 _ s' (hrun.snoc hs') (s, .callback 0 {}) (by simp))
    rw [hover] at hkept
    cases hkept

end RtspServer

end EggVision
