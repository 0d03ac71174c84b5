import EggVision.Event.Publish
import EggVision.Lib.History

/-!
# The counters of the event directories

`EventRecorder.writeEvent` is one step, and says what an event adds to the counters. Here the same
event is a call of the file system after the other, and a process counts for itself. The two agree:
what a process has counted is what `writeEvent` gives for the events it has taken, one after the
other; and the events it counts as completed are the directories that have got their names.

## Main definitions

* `takenSince` — the jobs a process has taken
* `Stage.Counted` — what an event has added to the counters at each stage

## Main results

* `counters_refine`
-/

namespace EggVision

open FileTree Transition History EventRecorder

/-! ### What an event has added so far -/

/-- The counters at a stage of an event, given those from before it. -/
def Stage.Counted (job : EventJob) (before metrics : EventMetrics) : Stage → Prop
  | .snapshot | .snapshotName =>
    EventWriter.refusedSnapshot job.snapshot = none ∧ metrics = before
  | .clip shot | .clipName shot =>
    EventWriter.refusedClip job = none ∧
      ∃ encoded, shot = writeSnapshot job.snapshot encoded ∧ metrics = countSnapshot shot before
  | .metadata shot video =>
    ∃ encoded muxed, shot = writeSnapshot job.snapshot encoded ∧ video = muxVideo job muxed ∧
      metrics = countVideo video (countSnapshot shot before)
  | .metadataName shot video | .publish shot video =>
    Publishable shot video ∧
      ∃ encoded muxed, shot = writeSnapshot job.snapshot encoded ∧ video = muxVideo job muxed ∧
        metrics = countVideo video (countSnapshot shot before)

/-- The counters of a worker that was given the event, given those from before. -/
def EventWriter.Counted (event : QueuedEvent) (before : EventMetrics) (writer : EventWriter) :
    Prop :=
  match writer.writing with
  | none => ∃ outcome, writer.metrics = writeEvent outcome event.job before
  | some w => event.Like w.event ∧ w.stage.Counted event.job before writer.metrics

namespace EventWriter

variable {event event' : QueuedEvent} {job : EventJob} {before metrics : EventMetrics}
  {shot video : ArtifactResult}

/-- The checks of `muxVideo` do not look at the errors. -/
theorem refusedClip_like (h : event.Like event') :
    refusedClip event'.job = refusedClip event.job := by
  obtain ⟨errors, hjob⟩ := h.job
  rw [hjob]
  rfl

theorem finishClip_counted (hlike : event.Like event')
    (hshot : ∃ encoded, shot = writeSnapshot event.job.snapshot encoded)
    (hclip : ∃ muxed, video = muxVideo event.job muxed)
    (hmetrics : metrics = countSnapshot shot before) :
    (finishClip event' metrics shot video).Counted event before := by
  obtain ⟨encoded, hshot⟩ := hshot
  obtain ⟨muxed, hclip⟩ := hclip
  refine ⟨?_, encoded, muxed, hshot, hclip, by rw [hmetrics]; rfl⟩
  dsimp only
  split
  · exact hlike.trans (event'.note_like _)
  · exact hlike

theorem finishSnapshot_counted (hlike : event.Like event')
    (hshot : ∃ encoded, shot = writeSnapshot event.job.snapshot encoded) :
    (finishSnapshot event' before shot).Counted event before := by
  unfold finishSnapshot
  dsimp only
  set event'' := if shot.status = .complete then event' else event'.note shot.error with hevent''
  have hlike' : event.Like event'' := by
    rw [hevent'']
    split
    · exact hlike
    · exact hlike.trans (event'.note_like _)
  rw [refusedClip_like hlike']
  rcases muxVideo_cases event.job with ⟨video, -, hvideo, hmux⟩ | ⟨hnone, -⟩
  · rw [hvideo]
    exact finishClip_counted hlike' hshot ⟨.ok 0, (hmux _).symm⟩ rfl
  · rw [hnone]
    obtain ⟨encoded, hshot⟩ := hshot
    exact ⟨hlike', hnone, encoded, hshot, rfl⟩

theorem begin_counted (event : QueuedEvent) (before : EventMetrics) :
    (begin event before).Counted event before := by
  unfold begin
  rcases writeSnapshot_cases event.job.snapshot with ⟨shot, -, hrefused, hwrite⟩ | ⟨hrefused, -⟩
  · rw [hrefused]
    exact finishSnapshot_counted (.refl event) ⟨.ok 0, (hwrite _).symm⟩
  · rw [hrefused]
    exact ⟨.refl event, hrefused, rfl⟩

theorem publishable_iff {shot video : ArtifactResult} : Publishable shot video ↔
    ¬ (decide (video.status = .failed) ||
      (!decide (shot.status = .complete) && !decide (video.status = .complete))) = true := by
  simp [Publishable, Classical.or_iff_not_imp_left]

/-- An event fails if its metadata is not written, if there is nothing to publish, or if it does
not get its name. -/
theorem writeEvent_failed (outcome : WriteOutcome) (hcreated : outcome.directoryCreated = true)
    (h : outcome.metadataWritten = false ∨
      ¬ Publishable (writeSnapshot job.snapshot outcome.encoded) (muxVideo job outcome.muxed) ∨
      outcome.published = false) :
    writeEvent outcome job before = (countVideo (muxVideo job outcome.muxed)
      (countSnapshot (writeSnapshot job.snapshot outcome.encoded) before)).fail := by
  unfold writeEvent
  rw [if_neg (by simp [hcreated])]
  dsimp only
  split_ifs with hwritten hfatal hpublished
  · rfl
  · rfl
  · rfl
  · rcases h with h | h | h
    · simp [h] at hwritten
    · exact absurd (publishable_iff.mpr hfatal) h
    · simp [h] at hpublished

theorem writeEvent_completed (outcome : WriteOutcome) (hcreated : outcome.directoryCreated = true)
    (hwritten : outcome.metadataWritten = true)
    (hfine : Publishable (writeSnapshot job.snapshot outcome.encoded) (muxVideo job outcome.muxed))
    (hpublished : outcome.published = true) :
    let metrics := countVideo (muxVideo job outcome.muxed)
      (countSnapshot (writeSnapshot job.snapshot outcome.encoded) before)
    writeEvent outcome job before =
      { metrics with eventsCompleted := metrics.eventsCompleted + 1 } := by
  unfold writeEvent
  rw [if_neg (by simp [hcreated])]
  dsimp only
  rw [if_neg (by simp [hwritten]), if_neg (publishable_iff.mp hfine), if_neg (by simp [hpublished])]

end EventWriter

/-- A call leads from what is counted at one stage to what is counted at the next, or at the end. -/
theorem Writing.answer_counted {config : StoreConfig} {disk disk' : EventDisk} {a : Answer}
    {event : QueuedEvent} {before metrics : EventMetrics} {writer : EventWriter} {w : Writing}
    (hw : EventWriter.Counted event before ⟨metrics, some w⟩)
    (h : w.answer config a metrics disk = some (disk', writer)) : writer.Counted event before := by
  obtain ⟨hlike, hcounted⟩ := hw
  unfold answer at h
  dsimp only at h hcounted
  rcases hstage : w.stage with
      _ | _ | shot | shot | ⟨shot, video⟩ | ⟨shot, video⟩ | ⟨shot, video⟩ <;>
    rcases hresult : a.result with error | bytes <;>
    simp only [hstage, hresult, Option.map_eq_some_iff, Option.some.injEq, Prod.mk.injEq] at h <;>
    rw [hstage] at hcounted
  case snapshot.error =>
    obtain ⟨-, rfl⟩ := h
    obtain ⟨hrefused, rfl⟩ := hcounted
    refine EventWriter.finishSnapshot_counted hlike ⟨.error error, ?_⟩
    rw [EventWriter.writeSnapshot_of_refused_none hrefused]
    rfl
  case snapshot.ok =>
    obtain ⟨_, -, -, rfl⟩ := h
    exact ⟨hlike, hcounted⟩
  case snapshotName.error =>
    obtain ⟨-, rfl⟩ := h
    obtain ⟨hrefused, rfl⟩ := hcounted
    refine EventWriter.finishSnapshot_counted hlike ⟨.error error, ?_⟩
    rw [EventWriter.writeSnapshot_of_refused_none hrefused]
    rfl
  case snapshotName.ok =>
    obtain ⟨_, -, -, rfl⟩ := h
    obtain ⟨hrefused, rfl⟩ := hcounted
    refine EventWriter.finishSnapshot_counted hlike ⟨.ok bytes, ?_⟩
    rw [EventWriter.writeSnapshot_of_refused_none hrefused]
    rfl
  case clip.error =>
    obtain ⟨-, rfl⟩ := h
    obtain ⟨hrefused, encoded, hshot, hmetrics⟩ := hcounted
    refine EventWriter.finishClip_counted hlike ⟨encoded, hshot⟩ ⟨.error error, ?_⟩ hmetrics
    rw [EventWriter.muxVideo_of_refused_none hrefused]
    rfl
  case clip.ok =>
    obtain ⟨_, -, -, rfl⟩ := h
    exact ⟨hlike, hcounted⟩
  case clipName.error =>
    obtain ⟨-, rfl⟩ := h
    obtain ⟨hrefused, encoded, hshot, hmetrics⟩ := hcounted
    refine EventWriter.finishClip_counted hlike ⟨encoded, hshot⟩ ⟨.error error, ?_⟩ hmetrics
    rw [EventWriter.muxVideo_of_refused_none hrefused]
    rfl
  case clipName.ok =>
    obtain ⟨_, -, -, rfl⟩ := h
    obtain ⟨hrefused, encoded, hshot, hmetrics⟩ := hcounted
    refine EventWriter.finishClip_counted hlike ⟨encoded, hshot⟩ ⟨.ok bytes, ?_⟩ hmetrics
    rw [EventWriter.muxVideo_of_refused_none hrefused]
    rfl
  case metadata.error =>
    obtain ⟨-, rfl⟩ := h
    obtain ⟨encoded, muxed, rfl, rfl, rfl⟩ := hcounted
    exact ⟨_,
      (EventWriter.writeEvent_failed ⟨true, encoded, muxed, false, false⟩ rfl (.inl rfl)).symm⟩
  case metadata.ok =>
    obtain ⟨_, -, -, rfl⟩ := h
    obtain ⟨encoded, muxed, rfl, rfl, rfl⟩ := hcounted
    split
    next hfatal =>
      exact ⟨_, (EventWriter.writeEvent_failed ⟨true, encoded, muxed, true, false⟩ rfl
        (.inr (.inr rfl))).symm⟩
    next hfine =>
      exact ⟨hlike, EventWriter.publishable_iff.mpr hfine, encoded, muxed, rfl, rfl, rfl⟩
  case metadataName.error =>
    obtain ⟨-, rfl⟩ := h
    obtain ⟨-, encoded, muxed, rfl, rfl, rfl⟩ := hcounted
    exact ⟨_, (EventWriter.writeEvent_failed ⟨true, encoded, muxed, true, false⟩ rfl
      (.inr (.inr rfl))).symm⟩
  case metadataName.ok =>
    obtain ⟨_, -, -, rfl⟩ := h
    exact ⟨hlike, hcounted⟩
  case publish.error =>
    obtain ⟨-, rfl⟩ := h
    obtain ⟨-, encoded, muxed, rfl, rfl, rfl⟩ := hcounted
    exact ⟨_, (EventWriter.writeEvent_failed ⟨true, encoded, muxed, true, false⟩ rfl
      (.inr (.inr rfl))).symm⟩
  case publish.ok =>
    obtain ⟨_, -, -, rfl⟩ := h
    obtain ⟨hfine, encoded, muxed, rfl, rfl, rfl⟩ := hcounted
    exact ⟨_, (EventWriter.writeEvent_completed ⟨true, encoded, muxed, true, true⟩ rfl rfl hfine
      rfl).symm⟩

/-! ### The completed events -/

namespace EventWriter

variable (event : QueuedEvent) (metrics : EventMetrics) (shot video : ArtifactResult)

theorem countVideo_completed :
    (countVideo video metrics).eventsCompleted = metrics.eventsCompleted := by
  unfold countVideo
  split <;> rfl

theorem countSnapshot_completed :
    (countSnapshot shot metrics).eventsCompleted = metrics.eventsCompleted := by
  unfold countSnapshot
  split <;> rfl

theorem finishClip_completed :
    (finishClip event metrics shot video).metrics.eventsCompleted = metrics.eventsCompleted :=
  countVideo_completed metrics video

theorem finishSnapshot_completed :
    (finishSnapshot event metrics shot).metrics.eventsCompleted = metrics.eventsCompleted := by
  unfold finishSnapshot
  dsimp only
  split
  · rw [finishClip_completed, countSnapshot_completed]
  · exact countSnapshot_completed metrics shot

theorem begin_completed :
    (begin event metrics).metrics.eventsCompleted = metrics.eventsCompleted := by
  unfold begin
  split
  · exact finishSnapshot_completed event metrics _
  · rfl

end EventWriter

/-- The event of a step gets its name. -/
def completes (x : EventStore × StoreAction) : Bool :=
  match x.1.current, x.2 with
  | some ⟨_, .publish _ _⟩, .answer ⟨.ok _, _⟩ => true
  | _, _ => false

theorem Writing.answer_completed {config : StoreConfig} {disk disk' : EventDisk} {a : Answer}
    {metrics : EventMetrics} {writer : EventWriter} {w : Writing}
    (h : w.answer config a metrics disk = some (disk', writer)) :
    writer.metrics.eventsCompleted = metrics.eventsCompleted +
      (completes (⟨disk, some ⟨metrics, some w⟩⟩, .answer a)).toNat := by
  obtain ⟨event, stage⟩ := w
  obtain ⟨result, debris⟩ := a
  unfold answer at h
  dsimp only at h
  rcases stage with _ | _ | shot | shot | ⟨shot, video⟩ | ⟨shot, video⟩ | ⟨shot, video⟩ <;>
    rcases result with error | bytes <;>
    simp only [Option.map_eq_some_iff, Option.some.injEq, Prod.mk.injEq] at h
  all_goals first
    | obtain ⟨-, rfl⟩ := h
    | obtain ⟨_, -, -, rfl⟩ := h
  all_goals first
    | rfl
    | exact EventWriter.finishSnapshot_completed _ _ _
    | exact EventWriter.finishClip_completed _ _ _ _
    | split <;> rfl

/-! ### Every run -/

def isStart (x : EventStore × StoreAction) : Bool :=
  match x.2 with
  | .start _ _ => true
  | .take _ _ _ | .answer _ | .crash _ => false

def takenBy (x : EventStore × StoreAction) : Option EventJob :=
  match x.2 with
  | .take event _ _ => some event.job
  | .start _ _ | .answer _ | .crash _ => none

/-- The jobs that have been taken since the last start. -/
def takenSince (history : List (EventStore × StoreAction)) : List EventJob :=
  (history.rtakeWhile fun x => !isStart x).filterMap takenBy

theorem takenSince_snoc (history : List (EventStore × StoreAction)) (x : EventStore × StoreAction) :
    takenSince (history ++ [x]) =
      if isStart x then [] else takenSince history ++ (takenBy x).toList := by
  unfold takenSince
  rw [List.rtakeWhile_concat]
  cases isStart x with
  | true => rfl
  | false =>
    simp only [Bool.not_false, if_true, List.filterMap_append, Bool.false_eq_true, if_false]
    cases hx : takenBy x <;> simp [hx]

/-- The counters after one event after the other. -/
def countEvents (done : List (WriteOutcome × EventJob)) : EventMetrics :=
  done.foldl (fun metrics x => writeEvent x.1 x.2 metrics) {}

/-- The worker has counted the events it has taken, but perhaps for the last. -/
def Accounted (taken : List EventJob) (writer : EventWriter) : Prop :=
  ∃ done, (writer.writing = none ∧ done.map Prod.snd = taken ∧ writer.metrics = countEvents done) ∨
    ∃ event : QueuedEvent, done.map Prod.snd ++ [event.job] = taken ∧
      writer.Counted event (countEvents done)

/-- A worker that is at no event has counted all of them. -/
theorem Accounted.done {taken : List EventJob} {writer : EventWriter} (h : Accounted taken writer)
    (hidle : writer.writing = none) :
    ∃ done : List (WriteOutcome × EventJob),
      done.map Prod.snd = taken ∧ writer.metrics = countEvents done := by
  obtain ⟨done, ⟨-, htaken, hmetrics⟩ | ⟨event, htaken, hcounted⟩⟩ := h
  · exact ⟨done, htaken, hmetrics⟩
  · unfold EventWriter.Counted at hcounted
    rw [hidle] at hcounted
    obtain ⟨outcome, hmetrics⟩ := hcounted
    refine ⟨done ++ [(outcome, event.job)], by simpa using htaken, ?_⟩
    rw [hmetrics]
    simp [countEvents]

namespace EventStore

variable {config : StoreConfig} {start s s' : EventStore} {action : StoreAction}
  {history : List (EventStore × StoreAction)}

theorem step_accounted (h : s.step config action = some s')
    (hs : ∀ writer, s.writer = some writer → Accounted (takenSince history) writer ∧
      writer.metrics.eventsCompleted = countSince isStart completes history) :
    ∀ writer, s'.writer = some writer →
      Accounted (takenSince (history ++ [(s, action)])) writer ∧
      writer.metrics.eventsCompleted = countSince isStart completes (history ++ [(s, action)]) := by
  rcases s with ⟨disk, writer⟩
  rw [takenSince_snoc, countSince_snoc]
  intro writer' hwriter'
  cases action with
  | start pid a =>
    rcases writer with _ | writer
    · simp only [step] at h
      rcases hinit : initializeStore pid a disk with ⟨disk', _ | _⟩ <;>
        rw [hinit] at h <;> obtain rfl := Option.some.inj h
      · cases hwriter'
      · cases hwriter'
        exact ⟨⟨[], .inl ⟨rfl, rfl, rfl⟩⟩, rfl⟩
    · cases h
  | take event dateCreated dirCreated =>
    rcases writer with _ | ⟨metrics, _ | w⟩
    · cases h
    · obtain ⟨haccounted, hcompleted⟩ := hs _ rfl
      obtain ⟨done, htaken, hmetrics⟩ := Accounted.done haccounted rfl
      dsimp only at hmetrics hcompleted
      subst hmetrics
      simp only [step] at h
      split at h <;> obtain rfl := Option.some.inj h <;> cases hwriter'
      · refine ⟨⟨done, .inr ⟨event, ?_, ⟨false, .ok 0, .ok 0, false, false⟩, rfl⟩⟩, hcompleted⟩
        rw [← htaken]
        rfl
      · refine ⟨⟨done, .inr ⟨event, ?_, EventWriter.begin_counted event _⟩⟩, ?_⟩
        · rw [← htaken]
          rfl
        · rw [EventWriter.begin_completed]
          exact hcompleted
    · cases h
  | answer a =>
    rcases writer with _ | ⟨metrics, _ | w⟩
    · cases h
    · cases h
    · obtain ⟨⟨disk', writer''⟩, hanswer, rfl⟩ := Option.map_eq_some_iff.mp h
      cases hwriter'
      obtain ⟨⟨done, ⟨hidle, -, -⟩ | ⟨event, htaken, hcounted⟩⟩, hcompleted⟩ := hs _ rfl
      · cases hidle
      · refine ⟨⟨done, .inr ⟨event, ?_, w.answer_counted hcounted hanswer⟩⟩, ?_⟩
        · rw [htaken]
          exact (List.append_nil _).symm
        · rw [w.answer_completed hanswer]
          exact congrArg (· + _) hcompleted
  | crash debris =>
    rcases writer with _ | writer
    · cases h
    · obtain rfl := Option.some.inj h
      cases hwriter'

/-- **The counters of a process are those of its events**, one `writeEvent` after the other; and it
has completed as many events as it has given names to directories. -/
theorem counters_refine {writer : EventWriter} (hstart : start.writer = none)
    (h : Run (step config) start history s) (hwriter : s.writer = some writer) :
    (writer.writing = none → ∃ done : List (WriteOutcome × EventJob),
      done.map Prod.snd = takenSince history ∧ writer.metrics = countEvents done) ∧
    writer.metrics.eventsCompleted = countSince isStart completes history := by
  suffices hinv : ∀ writer, s.writer = some writer → Accounted (takenSince history) writer ∧
      writer.metrics.eventsCompleted = countSince isStart completes history from
    ⟨(hinv writer hwriter).1.done, (hinv writer hwriter).2⟩
  clear hwriter
  induction h with
  | nil => simp [hstart]
  | snoc _ hstep ih => exact step_accounted hstep ih

theorem counters_refine_one : ∃ s writer,
    Run (step {}) ⟨Tree.empty, none⟩ (trace (step {}) ⟨Tree.empty, none⟩ publishing) s ∧
      s.writer = some writer ∧ writer.metrics.eventsCompleted = 1 ∧
      ∃ done : List (WriteOutcome × EventJob),
        done.map Prod.snd = [someQueuedEvent.job] ∧ writer.metrics = countEvents done := by
  obtain ⟨s, hexec, hidle⟩ := (Option.any_eq_true (fun s : EventStore =>
    s.writer.any fun writer => writer.writing.isNone) _).mp (by rfl :
      (exec (step {}) ⟨Tree.empty, none⟩ publishing).any _ = true)
  obtain ⟨writer, hwriter, hidle⟩ := (Option.any_eq_true _ _).mp hidle
  have hrun := Run.ofExec publishing hexec
  obtain ⟨hdone, hcompleted⟩ := counters_refine rfl hrun hwriter
  exact ⟨s, writer, hrun, hwriter, hcompleted, hdone (Option.isNone_iff_eq_none.mp hidle)⟩

end EventStore

end EggVision
