import EggVision.Rtsp.Isolation
import EggVision.Rtsp.Stream
import EggVision.Lib.History

/-!
# Push failures in a row

The feeder pushes outside the lock and records the result later, for the media generation that it
read with the source. In between the media may have been replaced, or its recovery dispatched. What
is recorded too late for its media is not counted; what comes after the dispatch is, but at most one
push was under way then, and without a source no other follows.

## Main definitions

* `Section.endsFailures`, `RtspServer.endsFailures` — what starts the count over
* `failuresOf` — the errors recorded for a media generation since then

## Main results

* `Section.failures_cases` — what the sections do to the count
* `PushInv.reachable` — the generation that the feeder has read is not ahead of the current one
* `pushFailures_exact` — the count is that of the errors since it started over, and only three of
  them make the feeder ask for a recovery
-/

namespace EggVision

open Transition History RtspState

namespace RtspState

variable {s : RtspState}

/-! ### What the sections do to the count -/

/-- The section starts the count over: a push to the current media that is no error, the media
prepared, configured or unprepared, or its recovery dispatched. -/
def Section.endsFailures (s : RtspState) : Section → Bool
  | .recordPush mediaGeneration flow =>
    decide (flow ≠ .error) && decide (mediaGeneration = s.mediaGeneration)
  | .markPrepared media _ | .unprepare media _ => decide (s.currentMedia = some media)
  | .configure factory _ _ => s.acceptsMedia factory
  | .recoverMedia expected reason now id accepts =>
    match (s.recoverMedia expected reason now id accepts).2 with
    | .dispatched _ _ => true
    | .ignored | .thrown _ => false
  | _ => false

/-- The section records an error for the media generation. -/
def Section.recordsError (mediaGeneration : ℕ) : Section → Bool
  | .recordPush recorded .error => decide (recorded = mediaGeneration)
  | _ => false

/-- The count is as it was, and for the same media generation. -/
structure SameFailures (s s' : RtspState) : Prop where
  failures : s'.consecutivePushFailures = s.consecutivePushFailures
  mediaGeneration : s'.mediaGeneration = s.mediaGeneration

theorem SameFailures.refl (s : RtspState) : SameFailures s s := ⟨rfl, rfl⟩

/-- A section starts the count over, leaves it alone, or goes to a new media generation without
errors. -/
theorem Section.failures_cases {sec : Section} (s : RtspState)
    (hpush : ∀ mediaGeneration flow, sec ≠ .recordPush mediaGeneration flow) :
    (sec.endsFailures s = true ∧ (sec.apply s).consecutivePushFailures = 0) ∨
      sec.endsFailures s = false ∧ (SameFailures s (sec.apply s) ∨
        (sec.apply s).consecutivePushFailures = 0 ∧
          (sec.apply s).mediaGeneration = s.mediaGeneration + 1) := by
  have hsame := SameFailures.refl s
  cases sec with
  | publishStart now => exact .inr ⟨rfl, .inr ⟨rfl, rfl⟩⟩
  | retireAll now => exact .inr ⟨rfl, .inr ⟨rfl, rfl⟩⟩
  | configure factory media now =>
    simp only [endsFailures, Section.apply, RtspState.configure]
    split
    next haccepts => exact .inl ⟨haccepts, rfl⟩
    next hrefuses => exact .inr ⟨by simpa using hrefuses, .inl hsame⟩
  | markPrepared media now =>
    simp only [endsFailures, Section.apply, RtspState.markPrepared]
    split
    next hcurrent => exact .inl ⟨decide_eq_true hcurrent, rfl⟩
    next hother => exact .inr ⟨decide_eq_false hother, .inl hsame⟩
  | unprepare media now =>
    simp only [endsFailures, Section.apply, RtspState.unprepare]
    split
    next hcurrent =>
      refine .inl ⟨decide_eq_true hcurrent, ?_⟩
      simp only
      split <;> rfl
    next hother => exact .inr ⟨decide_eq_false hother, .inl hsame⟩
  | recoverMedia expected reason now id accepts =>
    simp only [endsFailures, Section.apply]
    rcases recoverMedia_cases expected reason now id accepts s with
      ⟨heq, hnot⟩ | ⟨-, -, heq⟩ | ⟨-, -, -, -, -, -, heq⟩
    · rw [heq]
      refine .inr ⟨?_, .inl hsame⟩
      split
      next hdispatched => exact absurd hdispatched (hnot _ _)
      · rfl
      · rfl
    · rw [heq]
      exact .inr ⟨rfl, .inl { hsame with }⟩
    · rw [heq]
      exact .inl ⟨rfl, rfl⟩
  | recordPush mediaGeneration flow => exact absurd rfl (hpush mediaGeneration flow)
  | publishFactory factory =>
    simp only [Section.apply, RtspState.publishFactory]
    split <;> exact .inr ⟨rfl, .inl { hsame with }⟩
  | publishStop =>
    simp only [Section.apply, RtspState.publishStop]
    split <;> exact .inr ⟨rfl, .inl { hsame with }⟩
  | failSetup media =>
    simp only [Section.apply, RtspState.failSetup]
    split <;> exact .inr ⟨rfl, .inl { hsame with }⟩
  | bind media source =>
    simp only [Section.apply, RtspState.bind]
    split
    · exact .inr ⟨rfl, .inl hsame⟩
    · split <;> exact .inr ⟨rfl, .inl { hsame with }⟩
  | targetState media toNull now =>
    simp only [Section.apply, RtspState.targetState]
    split <;> exact .inr ⟨rfl, .inl { hsame with }⟩
  | reportError media now =>
    simp only [Section.apply, RtspState.reportError]
    split <;> exact .inr ⟨rfl, .inl { hsame with }⟩
  | checkRecovery now done => exact .inr ⟨rfl, .inl { hsame with }⟩
  | resume listener done =>
    simp only [Section.apply, RtspState.resume]
    split
    · split <;> exact .inr ⟨rfl, .inl { hsame with }⟩
    · split <;> exact .inr ⟨rfl, .inl { hsame with }⟩
  | failDispatch expected =>
    simp only [Section.apply, RtspState.failDispatch]
    split
    · exact .inr ⟨rfl, .inl { hsame with }⟩
    · split <;> exact .inr ⟨rfl, .inl { hsame with }⟩
  | publishServer | publishRecoveryWorker | publishListener | publishWatchdog | takeSources
  | reportDelay | takeRecoveryWorker => exact .inr ⟨rfl, .inl { hsame with }⟩

/-- What a push result does to the count of a media that is there. -/
theorem recordPush_count {mediaGeneration : ℕ} (flow : FlowReturn)
    (hmedia : mediaGeneration = s.mediaGeneration → s.currentMedia ≠ none) :
    (s.recordPush mediaGeneration flow).consecutivePushFailures =
      if (Section.recordPush mediaGeneration flow).endsFailures s then 0
      else s.consecutivePushFailures +
        ((Section.recordPush mediaGeneration flow).recordsError s.mediaGeneration).toNat := by
  by_cases hcurrent : mediaGeneration = s.mediaGeneration
  · subst hcurrent
    have hthere : s.currentMedia.isSome = true := Option.isSome_iff_ne_none.mpr (hmedia rfl)
    cases flow with
    | ok => simp [recordPush, Section.endsFailures, hthere]
    | flushing => simp [recordPush, Section.endsFailures, hthere]
    | error =>
      simp only [recordPush, Section.endsFailures, Section.recordsError, hthere, decide_true,
        Bool.and_self, if_true, ne_eq, not_true_eq_false, decide_false, Bool.false_and,
        Bool.false_eq_true, if_false, Bool.toNat_true]
      split <;> rfl
  · have hstale : s.recordPush mediaGeneration flow = s := recordPush_stale (Ne.symm hcurrent) flow
    cases flow <;> simp [hstale, Section.endsFailures, Section.recordsError, hcurrent]

/-- A push result asks for a recovery after three failures, or changes the count only. -/
theorem recordPush_requested (mediaGeneration : ℕ) (flow : FlowReturn) (s : RtspState) :
    (∃ failures, s.recordPush mediaGeneration flow =
        { s with consecutivePushFailures := failures }) ∨
      s.currentMedia ≠ none ∧
        (s.recordPush mediaGeneration flow).recoveryState = .requested ∧
        3 ≤ (s.recordPush mediaGeneration flow).consecutivePushFailures ∧
        (s.recordPush mediaGeneration flow).consecutivePushFailures =
          s.consecutivePushFailures + 1 := by
  unfold recordPush
  split
  next hcurrent =>
    simp only [Bool.and_eq_true, Option.isSome_iff_ne_none] at hcurrent
    cases flow with
    | ok => exact .inl ⟨_, rfl⟩
    | flushing => exact .inl ⟨_, rfl⟩
    | error =>
      simp only
      split
      next hthree => exact .inr ⟨hcurrent.1, rfl, hthree, rfl⟩
      · exact .inl ⟨_, rfl⟩
  · exact .inl ⟨_, rfl⟩

end RtspState

/-! ### The media generation that the feeder has read -/

/-- The generation for which a push is under way, or still to be recorded. -/
def Feeder.pushGeneration (f : Feeder) : Option ℕ :=
  match f.phase with
  | .offering item => some item.mediaGeneration
  | .recording mediaGeneration _ => some mediaGeneration
  | .absent | .starting | .checking | .popping | .popped _ | .exited => none

theorem Feeder.pushGeneration_eq_none {f : Feeder} (h : f.phase.between = true) :
    f.pushGeneration = none := by
  unfold pushGeneration
  split
  next hphase =>
    rw [hphase] at h
    cases h
  next hphase =>
    rw [hphase] at h
    cases h
  all_goals rfl

namespace RtspServer

variable {t t' : RtspServer} {a : RtspAction} {fps : ℕ}

/-- A push is for a generation that has been, and if that is the current one, its media is there. -/
def PushInv (t : RtspServer) : Prop :=
  ∀ mediaGeneration, t.feeder.pushGeneration = some mediaGeneration →
    mediaGeneration ≤ t.shared.mediaGeneration ∧
      (mediaGeneration = t.shared.mediaGeneration → t.shared.currentMedia ≠ none)

theorem PushInv.feederStep (h : PushInv t) (hinv : RecoveryInv t.shared) {env : FeederEnv}
    (hs : t.feederStep env = some t') : PushInv t' := by
  rcases feederStep_cases hs with ⟨-, -, heq⟩ | ⟨phase, -, hphase, -, heq⟩ |
      ⟨mediaGeneration, flow, -, -, heq⟩ | ⟨submitted, source, -, hsource, hshared, heq⟩ |
      ⟨item, hphase, hshared, heq⟩
  · intro _ hpush
    rw [heq] at hpush
    cases hpush
  · intro _ hpush
    rw [heq, Feeder.pushGeneration_eq_none hphase] at hpush
    cases hpush
  · intro _ hpush
    rw [heq] at hpush
    cases hpush
  · -- the source and the generation are read together
    intro mediaGeneration hpush
    rw [heq, Feeder.screen] at hpush
    simp only at hpush
    rw [hshared]
    split at hpush
    · cases hpush
    · cases hpush
      exact ⟨Nat.le_refl _, fun _ => hinv.bound (by simp [hsource])⟩
  · intro mediaGeneration hpush
    rw [heq, Feeder.offer] at hpush
    simp only at hpush
    rw [hshared]
    split at hpush
    · cases hpush
      exact h _ (by simp [Feeder.pushGeneration, hphase])
    · cases hpush

theorem PushInv.step (h : PushInv t) (hinv : RecoveryInv t.shared) (hs : t.step a = some t') :
    PushInv t' := by
  by_cases hfeeder : ∃ env, a = .feeder env
  · obtain ⟨env, rfl⟩ := hfeeder
    exact h.feederStep hinv hs
  have hrenames := step_renames hs
  intro mediaGeneration hpush
  rcases step_feeder hs (by simpa using hfeeder) with heq | ⟨-, -, heq⟩ | ⟨-, heq, -⟩
  · rw [heq] at hpush
    obtain ⟨hle, hmedia⟩ := h mediaGeneration hpush
    refine ⟨Nat.le_trans hle hrenames.monotone, fun hcurrent => ?_⟩
    have hmono := hrenames.monotone
    rw [hrenames.media (by omega)]
    exact hmedia (by omega)
  · rw [heq] at hpush
    cases hpush
  · rw [heq] at hpush
    cases hpush

theorem PushInv.reachable (h : Reachable RtspServer.step (initial fps) t) : PushInv t := by
  suffices h' : Reachable RtspServer.step (initial fps) t ∧ PushInv t from h'.2
  refine h.invariant (fun t => Reachable RtspServer.step (initial fps) t ∧ PushInv t)
    ⟨.refl, by rintro _ ⟨⟩⟩ ?_
  rintro t a t' ⟨hr, hpush⟩ hs
  exact ⟨hr.tail hs, hpush.step (recoveryInv_of_reachable hr) hs⟩

/-! ### The count over a run -/

/-- The step starts the count of push failures over. -/
def endsFailures (t : RtspServer) (a : RtspAction) : Bool :=
  (t.entered a).any (Section.endsFailures t.shared)

/-- The step records an error for the media generation. -/
def recordsError (mediaGeneration : ℕ) (t : RtspServer) (a : RtspAction) : Bool :=
  (t.entered a).any (Section.recordsError mediaGeneration)

/-- The number of errors that have been recorded for the media generation since the count was
started over. -/
def failuresOf (mediaGeneration : ℕ) (history : List (RtspServer × RtspAction)) : ℕ :=
  countSince (fun x => x.1.endsFailures x.2) (fun x => x.1.recordsError mediaGeneration x.2) history

/-- No error is recorded for a generation that has not been. -/
theorem recordsError_le (h : PushInv t) {mediaGeneration : ℕ}
    (herror : t.recordsError mediaGeneration a = true) :
    mediaGeneration ≤ t.shared.mediaGeneration := by
  obtain ⟨sec, hsec, hrecords⟩ := (Option.any_eq_true _ _).mp herror
  cases sec with
  | recordPush recorded flow =>
    cases flow with
    | error =>
      obtain rfl := of_decide_eq_true hrecords
      refine (h recorded ?_).1
      simp [Feeder.pushGeneration, (entered_recordPush hsec).2]
    | ok => cases hrecords
    | flushing => cases hrecords
  | _ => cases hrecords

/-- What a step does to the count. -/
theorem failures_step (h : PushInv t) (hs : t.step a = some t') :
    (t.endsFailures a = true ∧ t'.shared.consecutivePushFailures = 0) ∨
      t.endsFailures a = false ∧
        ((t'.shared.mediaGeneration = t.shared.mediaGeneration ∧
          t'.shared.consecutivePushFailures = t.shared.consecutivePushFailures +
            (t.recordsError t.shared.mediaGeneration a).toNat) ∨
        t'.shared.consecutivePushFailures = 0 ∧
          t'.shared.mediaGeneration = t.shared.mediaGeneration + 1) := by
  rw [step_shared hs]
  unfold endsFailures recordsError
  cases hsec : t.entered a with
  | none => exact .inr ⟨rfl, .inl ⟨rfl, rfl⟩⟩
  | some sec =>
    simp only [enter, Option.any_some]
    by_cases hpush : ∃ mediaGeneration flow, sec = .recordPush mediaGeneration flow
    · obtain ⟨mediaGeneration, flow, rfl⟩ := hpush
      have hmedia := (h mediaGeneration (by
        simp [Feeder.pushGeneration, (entered_recordPush hsec).2])).2
      have hcount := recordPush_count flow hmedia
      have hsame := (SameSource.recordPush mediaGeneration flow t.shared).mediaGeneration
      cases hends : (Section.recordPush mediaGeneration flow).endsFailures t.shared with
      | true =>
        rw [hends, if_pos rfl] at hcount
        exact .inl ⟨rfl, hcount⟩
      | false =>
        rw [hends, if_neg Bool.false_ne_true] at hcount
        exact .inr ⟨rfl, .inl ⟨hsame, hcount⟩⟩
    · have hnot : ∀ mediaGeneration flow, sec ≠ .recordPush mediaGeneration flow := by
        simpa using hpush
      have hnone : sec.recordsError t.shared.mediaGeneration = false := by
        cases sec <;> first | rfl | exact absurd rfl (hnot _ _)
      rcases Section.failures_cases t.shared hnot with hends | ⟨hends, hkept | hnext⟩
      · exact .inl hends
      · refine .inr ⟨hends, .inl ⟨hkept.mediaGeneration, ?_⟩⟩
        rw [hnone, hkept.failures]
        rfl
      · exact .inr ⟨hends, .inr hnext⟩

/-- The count is that of the errors, and none of them is of a generation to come. -/
theorem failures_of_run {history : List (RtspServer × RtspAction)}
    (h : Run step (initial fps) history t) :
    t.shared.consecutivePushFailures = failuresOf t.shared.mediaGeneration history ∧
      ∀ x ∈ history, ∀ mediaGeneration, x.1.recordsError mediaGeneration x.2 = true →
        mediaGeneration ≤ t.shared.mediaGeneration := by
  induction h with
  | nil => exact ⟨rfl, by rintro _ ⟨⟩⟩
  | @snoc history t t' a hrun hs ih =>
    obtain ⟨hcount, hpast⟩ := ih
    have hpush := PushInv.reachable hrun.reachable
    have hpast' : ∀ x ∈ history ++ [(t, a)], ∀ mediaGeneration,
        x.1.recordsError mediaGeneration x.2 = true →
          mediaGeneration ≤ t.shared.mediaGeneration := by
      intro x hx mediaGeneration herror
      rcases List.mem_append.mp hx with hx | hx
      · exact hpast x hx mediaGeneration herror
      · rw [List.mem_singleton.mp hx] at herror
        exact recordsError_le hpush herror
    refine ⟨?_, fun x hx mediaGeneration herror =>
      Nat.le_trans (hpast' x hx mediaGeneration herror) (step_renames hs).monotone⟩
    rcases failures_step hpush hs with ⟨hends, hzero⟩ | ⟨hends, ⟨hsame, hnext⟩ | ⟨hzero, hnew⟩⟩
    · rw [hzero, failuresOf, countSince_snoc, if_pos hends]
    · rw [hnext, hsame, failuresOf, countSince_snoc, hends, if_neg Bool.false_ne_true, hcount]
      rfl
    · -- a new generation has no errors yet
      rw [hzero]
      refine (countSince_eq_zero fun x hx => Bool.eq_false_iff.mpr fun herror => ?_).symm
      have := hpast' x hx _ herror
      omega

/-! ### The feeder and the recovery -/

/-- A step of the feeder asks for a recovery, or changes the count only. -/
theorem feeder_shared (h : Reachable step (initial fps) t) {env : FeederEnv}
    (hs : t.step (.feeder env) = some t') :
    (∃ failures, t'.shared = { t.shared with consecutivePushFailures := failures }) ∨
      t'.shared.recoveryState = .requested ∧ 3 ≤ t'.shared.consecutivePushFailures ∧
        t'.shared.mediaGeneration = t.shared.mediaGeneration ∧
        t.shared.recoveryState ≠ .running ∧ t.shared.recoveryState ≠ .completed := by
  rw [step_shared hs]
  cases hsec : t.entered (.feeder env) with
  | none => exact .inl ⟨_, rfl⟩
  | some sec =>
    rcases entered_cases hsec with ⟨_, ⟨⟩, -⟩ | ⟨_, _, _, ⟨⟩, -⟩ | ⟨_, ⟨⟩, -⟩ |
      ⟨_, mediaGeneration, flow, -, -, rfl⟩
    rcases recordPush_requested mediaGeneration flow t.shared with hcount |
      ⟨hmedia, hrequested, hthree, hnext⟩
    · exact .inl hcount
    · refine .inr ⟨hrequested, hthree,
        (SameSource.recordPush mediaGeneration flow t.shared).mediaGeneration, fun hrunning => ?_,
        (recoveryInv_of_reachable h).current_completed hmedia⟩
      -- one push was under way when the recovery was dispatched, and this is its result
      have := recordPush_few (.reachable h) hsec hrunning
      omega

/-- **Push failures are counted exactly**, whatever the threads do: the count is the number of
errors recorded for the current media generation since it was last started over. A step of the
feeder that does more than count asks for a recovery after three of them, and takes nothing from a
recovery that runs or has completed. -/
theorem pushFailures_exact {history : List (RtspServer × RtspAction)}
    (h : Run step (initial fps) history t) :
    t.shared.consecutivePushFailures = failuresOf t.shared.mediaGeneration history ∧
      ∀ env t', t.step (.feeder env) = some t' →
        ((∃ failures, t'.shared = { t.shared with consecutivePushFailures := failures }) ∨
          t'.shared.recoveryState = .requested ∧
            3 ≤ failuresOf t.shared.mediaGeneration (history ++ [(t, .feeder env)])) ∧
        (t.shared.recoveryState = .running ∨ t.shared.recoveryState = .completed →
          t'.shared.recoveryState = t.shared.recoveryState) := by
  refine ⟨(failures_of_run h).1, fun env t' hs => ?_⟩
  rcases feeder_shared h.reachable hs with ⟨failures, heq⟩ |
    ⟨hrequested, hthree, hsame, hrunning, hcompleted⟩
  · exact ⟨.inl ⟨failures, heq⟩, fun _ => by rw [heq]⟩
  · refine ⟨.inr ⟨hrequested, ?_⟩, fun hstate => ?_⟩
    · rwa [(failures_of_run (h.snoc hs)).1, hsame] at hthree
    · rcases hstate with hstate | hstate
      · exact absurd hstate hrunning
      · exact absurd hstate hcompleted

/-- The third push in a row that fails is still to be recorded. -/
def thirdFailure : List RtspAction :=
  readyToFeed ++ feedOne keyUnit .error ++ feedOne keyUnit .error ++
    (feedOne keyUnit .error).dropLast

/-- With the record of the third error the feeder asks for a recovery. -/
theorem pushFailures_exact_third :
    ∃ history t t', Run step (initial 30) history t ∧ t.step (.feeder {}) = some t' ∧
      t.shared.recoveryState = .idle ∧ failuresOf t.shared.mediaGeneration history = 2 ∧
      t'.shared.recoveryState = .requested ∧
      3 ≤ failuresOf t.shared.mediaGeneration (history ++ [(t, .feeder {})]) := by
  have hrun : (exec step (initial 30) thirdFailure).any (fun t =>
      decide (t.shared.recoveryState = .idle ∧ t.shared.consecutivePushFailures = 2) &&
        (t.step (.feeder {})).any fun t' =>
          decide (t'.shared.recoveryState = .requested)) = true := by decide
  obtain ⟨t, ht, hthird⟩ := (Option.any_eq_true _ _).mp hrun
  simp only [Bool.and_eq_true, decide_eq_true_eq] at hthird
  obtain ⟨⟨hidle, htwo⟩, hrecord⟩ := hthird
  obtain ⟨t', hs, hrequested⟩ := (Option.any_eq_true _ _).mp hrecord
  have hstate := of_decide_eq_true hrequested
  obtain ⟨hcount, hfeeder⟩ := pushFailures_exact (.ofExec thirdFailure ht)
  refine ⟨_, t, t', .ofExec thirdFailure ht, hs, hidle, hcount.symm.trans htwo, hstate, ?_⟩
  rcases (hfeeder {} t' hs).1 with ⟨failures, heq⟩ | ⟨-, hthree⟩
  · rw [heq, hidle] at hstate
    cases hstate
  · exact hthree

end RtspServer

end EggVision
