import EggVision.Event.Threads

/-!
# The gate under exceptions

`tryBegin` closes the gate long before `trigger` sets `active`, and `finishLocked` opens it again
before the job is queued. An exception in between leaves the gate and the active event in
disagreement; an exception anywhere else does not. With the gate closed and no active event nothing
ever calls `complete`, and every later event is suppressed.

## Main definitions

* `GateAgrees` — the gate collects iff there is an active event
* `breaksGate` — the step throws at one of the two places

## Main results

* `gateAgrees_run_iff` — a run keeps the two in agreement iff no step of it throws there
-/

namespace EggVision

open Transition

namespace EventRecorder

variable {r : EventRecorder} {throws : AllocStep → Bool}

/-- The gate collects iff there is an active event. -/
def GateAgrees (r : EventRecorder) : Prop := r.gate.collecting = r.active.isSome

instance (r : EventRecorder) : Decidable r.GateAgrees :=
  inferInstanceAs (Decidable (r.gate.collecting = r.active.isSome))

/-- `finishLocked` reaches `jobs.push_back`, which throws. -/
def queueThrows (throws : AllocStep → Bool) (error : String) (r : EventRecorder) : Bool :=
  !(!error.isEmpty && throws .recordError) &&
    decide (r.jobs.length < kWorkerQueueCapacity) && throws .queueJob

/-- The selection lets `trigger` close its event at once: it has no start, or it already reaches
the requested end. -/
def endsAtOnce (throws : AllocStep → Bool) (requestedEnd : ℕ) (selection : EncodedRingSelection) :
    Bool :=
  if !selection.hasIndependentStart || selection.units.isEmpty then !throws .recordNoPreRoll
  else selection.units.any fun unit => decide (unit.sensorTimestampNs ≥ requestedEnd)

/-- `trigger` gets past the gate, and throws before `active` is set or at the queue. -/
def triggerBreaks (throws : AllocStep → Bool) (call : TriggerCall) (history : EncodedRingBuffer)
    (r : EventRecorder) : Bool :=
  call.frame.any fun frame =>
    r.admits call frame &&
      (call.localSteps.any throws ||
        (endsAtOnce throws (saturatingAdd frame.sensorTimestampNs r.config.eventPostNs)
            (history.selectPreRoll frame.sensorTimestampNs r.config.eventPreNs) &&
          queueThrows throws "" r))

/-- `observeEncoded` closes the event, and throws at the queue. -/
def observeBreaks (throws : AllocStep → Bool) (unit : Option EncodedAccessUnit)
    (r : EventRecorder) : Bool :=
  r.config.eventRecordingEnabled && unit.any fun unit => r.active.any fun event =>
    if unit.generation ≠ event.generation then
      queueThrows throws "encoder generation changed during post-roll" r
    else
      (event.units.getLast?.all fun back =>
          decide (back.sensorTimestampNs < unit.sensorTimestampNs)) &&
        !throws .appendUnit &&
        decide (event.requestedEndSensorTimestampNs ≤ unit.sensorTimestampNs) &&
        queueThrows throws "" r

/-- `stop` closes the event, and throws at the queue. -/
def stopBreaks (throws : AllocStep → Bool) (r : EventRecorder) : Bool :=
  r.active.isSome && queueThrows throws "shutdown interrupted event post-roll" r

/-! ### One call -/

/-- `finishLocked` on a collecting gate: the agreement is lost exactly at the queue. -/
theorem finishLocked_gateAgrees_iff {event : EventJob} (hactive : r.active = some event)
    (hgate : r.gate.collecting = true) (postComplete : Bool) (error : String) :
    (r.finishLocked throws postComplete error).1.GateAgrees ↔
      queueThrows throws error r = false := by
  unfold GateAgrees queueThrows
  rcases finishLocked_cases hactive throws postComplete error with
    ⟨hrecord, hf⟩ | ⟨hrecord, ⟨hfull, hf⟩ | ⟨hroom, hthrow, hf⟩ | ⟨hroom, hthrow, hf⟩⟩
  · rw [hf, hrecord]
    simpa using hgate
  · rw [hf]
    simp [Nat.not_lt.mpr hfull, closeActive, EventGate.complete]
  · rw [hf, hrecord]
    simp [hroom, hthrow, closeActive, EventGate.complete]
  · rw [hf]
    simp [hthrow, closeActive, EventGate.complete]

/-- Whether the copied units reach the requested end. -/
theorem copyUnits_complete (requestedEnd : ℕ) (units : List EncodedAccessUnit) :
    (copyUnits requestedEnd units).2 =
      units.any fun unit => decide (unit.sensorTimestampNs ≥ requestedEnd) := by
  induction units with
  | nil => rfl
  | cons unit rest ih =>
    rw [copyUnits, List.any_cons]
    split
    next hend => simp [hend]
    next hend => simp [hend, ih]

theorem copyUnits_isEmpty (requestedEnd : ℕ) (units : List EncodedAccessUnit) :
    (copyUnits requestedEnd units).1.isEmpty = units.isEmpty := by
  cases units with
  | nil => rfl
  | cons unit rest =>
    rw [copyUnits]
    split <;> rfl

theorem startCollecting_gateAgrees_iff {event : EventJob} {hasIndependentStart : Bool}
    (hgate : r.gate.collecting = true) :
    (r.startCollecting throws hasIndependentStart event).1.GateAgrees ↔
      ((if !hasIndependentStart || event.units.isEmpty then !throws .recordNoPreRoll
          else event.postRollComplete) && queueThrows throws "" r) = false := by
  have hgate' : (r.openEvent event).gate.collecting = true := hgate
  rcases startCollecting_cases throws hasIndependentStart event r with
    ⟨hstart, hthrow, hc⟩ | ⟨hstart, hthrow, hc⟩ | ⟨hstart, hpost, hc⟩ | ⟨hstart, hpost, hc⟩
  · rw [hc, if_pos hstart, hthrow]
    simpa [GateAgrees, openEvent] using hgate
  · rw [hc, if_pos hstart, hthrow]
    exact finishLocked_gateAgrees_iff (by rfl) (by exact hgate') _ _
  · rw [hc, if_neg (by simp [hstart]), hpost]
    exact finishLocked_gateAgrees_iff (by rfl) (by exact hgate') _ _
  · rw [hc, if_neg (by simp [hstart]), hpost]
    simpa [GateAgrees, openEvent] using hgate

theorem trigger_gateAgrees_iff (h : r.GateAgrees) (call : TriggerCall)
    (history : EncodedRingBuffer) :
    (r.trigger throws call history).1.GateAgrees ↔
      triggerBreaks throws call history r = false := by
  rcases trigger_cases throws call history r with
    ⟨hno, hc⟩ | ⟨-, hno, latest, rejections, ⟨hc, -⟩ | hc⟩ |
      ⟨frame, hframe, hadmits, ⟨failed, hlocal, hc⟩ | ⟨hlocal, hc⟩⟩
  · rw [hc]
    simp only [triggerBreaks, admits, hno, Bool.false_and, Option.any_false]
    simpa using h
  · rw [hc]
    refine ⟨fun _ => ?_, fun _ => h⟩
    cases hframe : call.frame with
    | none => simp [triggerBreaks, hframe]
    | some frame => simp [triggerBreaks, hframe, hno frame hframe]
  · rw [hc]
    refine ⟨fun _ => ?_, fun _ => h⟩
    cases hframe : call.frame with
    | none => simp [triggerBreaks, hframe]
    | some frame => simp [triggerBreaks, hframe, hno frame hframe]
  · have hany : call.localSteps.any throws = true :=
      List.any_eq_true.mpr ⟨failed, List.mem_of_find?_eq_some hlocal, List.find?_some hlocal⟩
    have hidle : r.active.isSome = false := by
      rw [← h]
      simp only [admits, Bool.and_eq_true, Bool.not_eq_true'] at hadmits
      exact hadmits.1.2
    rw [hc]
    simp [triggerBreaks, hframe, hadmits, hany, GateAgrees, begun, see, hidle]
  · have hany : call.localSteps.any throws = false := by
      rw [List.find?_eq_none] at hlocal
      simpa using hlocal
    rw [hc]
    refine (startCollecting_gateAgrees_iff rfl).trans ?_
    simp only [triggerBreaks, hframe, Option.any_some, hadmits, hany, Bool.true_and,
      Bool.false_or, endsAtOnce, eventOf, TriggerCall.event, copyUnits_complete,
      copyUnits_isEmpty]
    rfl

theorem observeEncoded_gateAgrees_iff (h : r.GateAgrees) (unit : Option EncodedAccessUnit) :
    (r.observeEncoded throws unit).1.GateAgrees ↔ observeBreaks throws unit r = false := by
  by_cases hidle : r.config.eventRecordingEnabled = false ∨ r.active = none
  · obtain ⟨latest, hc⟩ := observeEncoded_idle hidle throws unit
    rw [hc]
    refine ⟨fun _ => ?_, fun _ => h⟩
    rcases hidle with hidle | hidle <;> simp [observeBreaks, hidle]
  cases unit with
  | none => simpa [observeBreaks, EventRecorder.observeEncoded] using h
  | some unit =>
    obtain ⟨henabled, event, hactive⟩ : r.config.eventRecordingEnabled = true ∧
        ∃ event, r.active = some event := by
      simpa [Option.ne_none_iff_exists'] using hidle
    have hgate : r.gate.collecting = true := by rw [h, hactive]; rfl
    have hsee : (r.see unit.sensorTimestampNs).GateAgrees := h
    rcases observeEncoded_cases henabled hactive throws unit with
      ⟨hgen, hc⟩ | ⟨hgen, ⟨back, hback, hle⟩, hc⟩ |
        ⟨hgen, hnew, ⟨hthrow, hc⟩ | ⟨hthrow, hend, hc⟩ | ⟨hthrow, hend, hc⟩⟩
    · rw [hc]
      refine Iff.trans
        (finishLocked_gateAgrees_iff (by exact hactive) (by exact hgate) _ _) ?_
      simp [observeBreaks, henabled, hactive, hgen, queueThrows, see]
    · rw [hc]
      simpa [observeBreaks, henabled, hactive, hgen, hback, Nat.not_lt.mpr hle] using hsee
    · rw [hc]
      simpa [observeBreaks, henabled, hactive, hgen, hthrow] using hsee
    · have hall : (event.units.getLast?.all fun back =>
          decide (back.sensorTimestampNs < unit.sensorTimestampNs)) = true := by
        cases hlast : event.units.getLast? with
        | none => rfl
        | some back => simpa using hnew back hlast
      rw [hc]
      refine Iff.trans (finishLocked_gateAgrees_iff (by rfl) (by exact hgate) _ _) ?_
      simp [observeBreaks, henabled, hactive, hgen, hall, hthrow, hend, queueThrows, see]
    · rw [hc]
      simpa [observeBreaks, henabled, hactive, hgen, hthrow, Nat.not_le.mpr hend, GateAgrees, see]
        using hgate

theorem stop_gateAgrees_iff (h : r.GateAgrees) :
    (r.stop throws).1.GateAgrees ↔ stopBreaks throws r = false := by
  obtain ⟨running, hstop, -⟩ := stop_cases throws r
  have hsame : (r.stop throws).1.GateAgrees ↔ (r.interrupt throws).1.GateAgrees := by
    rw [hstop]
    rfl
  refine hsame.trans ?_
  unfold interrupt
  dsimp only
  cases hactive : r.active with
  | none =>
    refine ⟨fun _ => by simp [stopBreaks, hactive], fun _ => ?_⟩
    unfold GateAgrees at h ⊢
    rw [hactive] at h
    exact h
  | some event =>
    have hgate : r.gate.collecting = true := by rw [h, hactive]; rfl
    rw [if_pos (by simp)]
    refine Iff.trans (finishLocked_gateAgrees_iff (by rfl) (by exact hgate) _ _) ?_
    simp [stopBreaks, hactive, queueThrows]

end EventRecorder

namespace RecorderThreads

/-- The step throws where the gate and the active event do not agree. -/
def breaksGate (t : RecorderThreads) : RecorderAction → Bool
  | .trigger throws call history => EventRecorder.triggerBreaks throws call history t.recorder
  | .observe throws unit => EventRecorder.observeBreaks throws unit t.recorder
  | .stop throws => EventRecorder.stopBreaks throws t.recorder
  | .setup _ | .start _ | .joined | .takeJob | .exit | .write _ => false

/-- One step, exceptions included. -/
theorem step_gateAgrees_iff {t t' : RecorderThreads} {a : RecorderAction}
    (h : t.recorder.GateAgrees) (hs : t.step a = some t') :
    t'.recorder.GateAgrees ↔ t.breaksGate a = false := by
  cases a with
  | trigger throws call history =>
    cases hs
    exact EventRecorder.trigger_gateAgrees_iff h call history
  | observe throws unit =>
    cases hs
    exact EventRecorder.observeEncoded_gateAgrees_iff h unit
  | stop throws =>
    have hrecorder : t'.recorder = (t.recorder.stop throws).1 := by
      simp only [step] at hs
      split at hs
      · cases hs
      · rcases hstop : t.recorder.stop throws with ⟨recorder, failed | joins⟩
        · rw [hstop] at hs
          cases hs
          rfl
        · rw [hstop] at hs
          cases joins <;> cases hs <;> rfl
    rw [hrecorder]
    exact EventRecorder.stop_gateAgrees_iff h
  | setup usable =>
    refine iff_of_true ?_ rfl
    simp only [step] at hs
    split at hs
    · cases hs
    · cases hs
      unfold EventRecorder.initializeWith
      split <;> exact h
  | start spawned =>
    refine iff_of_true ?_ rfl
    simp only [step] at hs
    split at hs
    · cases hs
    · cases hs
      rcases EventRecorder.start_cases spawned t.recorder with ⟨_, -, hstart⟩ | ⟨-, hstart⟩ <;>
        (simp only [hstart]; exact h)
  | joined =>
    refine iff_of_true ?_ rfl
    simp only [step] at hs
    split at hs
    · cases hs
      exact h
    · cases hs
  | takeJob =>
    refine iff_of_true ?_ rfl
    simp only [step] at hs
    split at hs
    next job recorder hworker htake =>
      cases hs
      unfold EventRecorder.takeJob at htake
      split at htake
      · cases htake
      · cases htake
        exact h
    · cases hs
  | exit =>
    refine iff_of_true ?_ rfl
    simp only [step] at hs
    split at hs
    · cases hs
      exact h
    · cases hs
  | write outcome =>
    refine iff_of_true ?_ rfl
    simp only [step] at hs
    split at hs
    · cases hs
      exact h
    · cases hs

/-- **The gate under exceptions.** In a run from the constructor, with any exceptions, the gate
agrees with the active event in every state iff no step of the run throws between the gate and
`active`, or at the queue. -/
theorem gateAgrees_run_iff {config : EventConfig}
    {history : List (RecorderThreads × RecorderAction)} {t : RecorderThreads}
    (h : Run step (initial config) history t) :
    ((∀ x ∈ history, x.1.recorder.GateAgrees) ∧ t.recorder.GateAgrees) ↔
      ∀ x ∈ history, x.1.breaksGate x.2 = false :=
  h.forall_iff (fun t => t.recorder.GateAgrees) (fun t a => t.breaksGate a = false) rfl
    (fun _ _ _ _ hp hgood hs => (step_gateAgrees_iff hp hs).mpr hgood)
    fun _ _ _ _ hp hbad hs hp' => hbad ((step_gateAgrees_iff hp hs).mp hp')

/-- A started recorder, before its first event. -/
def started : RecorderThreads :=
  { recorder := { EventRecorder.new ⟨true, 5, 10, 3⟩ with
      initialized := true, running := true, accepting := true }
    worker := .waiting }

/-- A trigger whose copy of the snapshot runs out of memory. -/
def failedTrigger : RecorderAction :=
  .trigger (fun failed => decide (failed = .stageMainSnapshot)) (detectionAt 10) (keyframeAt 10)

theorem reachable_started : Reachable step (initial ⟨true, 5, 10, 3⟩) started :=
  Reachable.refl.exec [.setup true, .start true] rfl

/-- With nothing thrown the third step of such a run starts an event, and the two agree. -/
theorem gateAgrees_run_iff_oneEvent :
    ∃ history t, Run step (initial ⟨true, 5, 10, 3⟩) history t ∧ history.length = 3 ∧
      t.recorder.active.isSome = true ∧
      (∀ x ∈ history, x.1.recorder.GateAgrees) ∧ t.recorder.GateAgrees := by
  let actions : List RecorderAction :=
    [.setup true, .start true, .trigger (fun _ => false) (detectionAt 10) (keyframeAt 10)]
  have hrun : Run step (initial ⟨true, 5, 10, 3⟩) _ _ := Run.ofExec actions rfl
  exact ⟨_, _, hrun, rfl, by decide, (gateAgrees_run_iff hrun).mpr (by decide)⟩

/-- The failed trigger leaves the gate closed with nothing to collect, and the next detection is
suppressed, however much later it comes. -/
theorem gateAgrees_lost :
    ¬ (∀ (config : EventConfig) (t t' : RecorderThreads) (a : RecorderAction),
        Reachable step (initial config) t → t.step a = some t' → (t.leftBy a).isSome = true →
        t'.recorder.GateAgrees) ∧
      ∃ t', started.step failedTrigger = some t' ∧ ∃ t'',
        t'.step (.trigger (fun _ => false) (detectionAt 1000000) (keyframeAt 1000000)) = some t'' ∧
        t''.recorder.metrics.eventsTriggered = 0 ∧ t''.recorder.metrics.eventsSuppressed = 1 := by
  refine ⟨fun h => ?_, _, rfl, _, rfl, by decide, by decide⟩
  have := h _ started _ failedTrigger reachable_started rfl (by decide)
  revert this
  decide

end RecorderThreads

end EggVision
