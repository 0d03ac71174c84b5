import EggVision.Event.Clip
import EggVision.Event.Gate
import EggVision.Ring.Selection

/-!
# Well-formed clips

A clip starts where the ring's selection starts, grows by the units that `observeEncoded` accepts,
and ends in `trigger`, in `observeEncoded` or in `stop`. On each of these ways the flags and times
of the job tell the truth about its units, and the muxer's local timestamps run forward from zero.

An exception may leave `finishLocked` after the event is over and before it is queued. The event is
then still the active one and goes on collecting: past its requested end, or from a unit that
nothing can decode if it had none. The rules below take such steps as what they are, and the main
result excludes exactly these two kinds.

## Main definitions

* `SameClip` — two events with the same units and the same requests
* `strandsEmpty`, `strandsComplete` — the step leaves an event behind that is already over
* `WellFormed`, `StampsForward` — what a clip promises

## Main results

* `trigger_events`, `observeEncoded_events`, `stop_events` — the rules of the three calls
* `wellFormed_of_calm`, `finished_wellFormed` — every finished clip is well formed
* `not_wellFormed` — a clip that goes on behind its end
-/

namespace EggVision

open Transition

/-! ### The start of a selection -/

namespace EncodedRingBuffer

/-- A selection without an independent start is empty. One with a start begins with a decodable
unit, and its flag says whether that unit reaches back to the requested start. -/
theorem selectPreRoll_cases {ring : EncodedRingBuffer} (hordered : TimeOrdered ring.units)
    (trigger preRollNs : ℕ) :
    let selection := ring.selectPreRoll trigger preRollNs
    (selection.hasIndependentStart = false ∧ selection.units = []) ∨
      (selection.hasIndependentStart = true ∧ selection.generation = ring.generation ∧
        ∃ first rest, selection.units = first :: rest ∧ first.independentlyDecodable = true ∧
          (selection.preRollComplete = true ↔ first.sensorTimestampNs ≤
            if trigger > preRollNs then trigger - preRollNs else 0)) := by
  dsimp only
  rw [requested_eq]
  rcases preRollStart_cases hordered (trigger - preRollNs) trigger with
    ⟨before, first, rest, hunits, hfirst, -, hstart⟩ |
    ⟨before, first, rest, hunits, hfirst, -, -, hstart⟩ | ⟨-, hstart⟩
  · rw [selectPreRoll_of_start hunits hstart]
    exact Or.inr ⟨rfl, rfl, first, rest, rfl, hfirst.1, decide_eq_true_iff⟩
  · rw [selectPreRoll_of_start hunits hstart]
    exact Or.inr ⟨rfl, rfl, first, rest, rfl, hfirst.1, decide_eq_true_iff⟩
  · obtain ⟨-, hnil, hnone, -⟩ := selectPreRoll_of_none hstart
    exact Or.inl ⟨hnone, hnil⟩

end EncodedRingBuffer

/-- The copied units lie before the requested end, up to the last one if the copy is complete. -/
theorem copyUnits_inside (requestedEnd : ℕ) (units : List EncodedAccessUnit) :
    ((copyUnits requestedEnd units).2 = false →
      ∀ unit ∈ (copyUnits requestedEnd units).1, unit.sensorTimestampNs < requestedEnd) ∧
    ((copyUnits requestedEnd units).2 = true →
      ∃ front back, (copyUnits requestedEnd units).1 = front ++ [back] ∧
        requestedEnd ≤ back.sensorTimestampNs ∧
        ∀ unit ∈ front, unit.sensorTimestampNs < requestedEnd) := by
  induction units with
  | nil => exact ⟨fun _ => by simp [copyUnits], by rintro ⟨⟩⟩
  | cons unit rest ih =>
    rw [copyUnits]
    split
    next hend => exact ⟨by rintro ⟨⟩, fun _ => ⟨[], unit, rfl, hend, by simp⟩⟩
    next hend =>
      obtain ⟨hbefore, hreached⟩ := ih
      have hunit : unit.sensorTimestampNs < requestedEnd := Nat.lt_of_not_le hend
      refine ⟨fun hpost => ?_, fun hpost => ?_⟩
      · exact List.forall_mem_cons.mpr ⟨hunit, hbefore hpost⟩
      · obtain ⟨front, back, heq, hback, hfront⟩ := hreached hpost
        exact ⟨unit :: front, back, congrArg (unit :: ·) heq, hback,
          List.forall_mem_cons.mpr ⟨hunit, hfront⟩⟩

theorem copyUnits_head? (requestedEnd : ℕ) (units : List EncodedAccessUnit) :
    (copyUnits requestedEnd units).1.head? = units.head? := by
  cases units with
  | nil => rfl
  | cons unit rest =>
    rw [copyUnits]
    split <;> rfl

/-! ### What an exception leaves behind -/

/-- The two events have the same units and ask for the same. -/
structure SameClip (event event' : EventJob) : Prop where
  units : event'.units = event.units
  generation : event'.generation = event.generation
  requestedStart :
    event'.requestedStartSensorTimestampNs = event.requestedStartSensorTimestampNs
  requestedEnd : event'.requestedEndSensorTimestampNs = event.requestedEndSensorTimestampNs
  preRollComplete : event'.preRollComplete = event.preRollComplete

theorem SameClip.refl (event : EventJob) : SameClip event event := ⟨rfl, rfl, rfl, rfl, rfl⟩

theorem SameClip.trans {e₁ e₂ e₃ : EventJob} (h : SameClip e₁ e₂) (h' : SameClip e₂ e₃) :
    SameClip e₁ e₃ :=
  ⟨h'.units.trans h.units, h'.generation.trans h.generation,
    h'.requestedStart.trans h.requestedStart, h'.requestedEnd.trans h.requestedEnd,
    h'.preRollComplete.trans h.preRollComplete⟩

theorem SameClip.close (event : EventJob) (postComplete : Bool) (error : String) :
    SameClip event (event.close postComplete error) := by
  unfold EventJob.close
  dsimp only
  split <;> exact ⟨rfl, rfl, rfl, rfl, rfl⟩

namespace EventRecorder

variable {r : EventRecorder} {throws : AllocStep → Bool} {C F : EventJob → Prop}

/-- The collected event satisfies `C`, and every queued job `F`. -/
def Events (C F : EventJob → Prop) (r : EventRecorder) : Prop :=
  (∀ event, r.active = some event → C event) ∧ ∀ job ∈ r.jobs, F job

/-- The rule of `finishLocked`: the event is queued or dropped, or an exception leaves it behind. -/
theorem finishLocked_events {event : EventJob} {postComplete : Bool} {error : String}
    (hjobs : ∀ job ∈ r.jobs, F job) (hactive : r.active = some event)
    (hclose : F (event.close postComplete error))
    (hleft : (!error.isEmpty && throws .recordError) = true ∨ queueThrows throws error r = true →
      ∀ left, SameClip event left → C left) :
    (r.finishLocked throws postComplete error).1.Events C F := by
  rcases finishLocked_cases hactive throws postComplete error with
    ⟨hrecord, hf⟩ | ⟨hrecord, ⟨-, hf⟩ | ⟨hroom, hthrow, hf⟩ | ⟨-, -, hf⟩⟩
  · rw [hf]
    refine ⟨fun left hevent => ?_, hjobs⟩
    cases hevent
    exact hleft (Or.inl hrecord) _ ⟨rfl, rfl, rfl, rfl, rfl⟩
  · rw [hf]
    exact ⟨by rintro _ ⟨⟩, hjobs⟩
  · rw [hf]
    refine ⟨fun left hevent => ?_, hjobs⟩
    cases hevent
    exact hleft (Or.inr (by simp only [queueThrows, hrecord]; simp [hroom, hthrow])) _
      (.close event postComplete error)
  · rw [hf]
    refine ⟨by rintro _ ⟨⟩, fun job hjob => ?_⟩
    rcases List.mem_append.mp hjob with hjob | hjob
    · exact hjobs job hjob
    · rw [List.mem_singleton.mp hjob]
      exact hclose

/-! ### The rules of the calls -/

/-- `trigger` gets to the point where it sets its event. -/
def opens (throws : AllocStep → Bool) (call : TriggerCall) (frame : FrameLease)
    (r : EventRecorder) : Bool :=
  r.admits call frame && !call.localSteps.any throws

/-- `trigger` finds nothing to start the clip with, and an exception leaves the event behind. -/
def strandsEmpty (throws : AllocStep → Bool) (call : TriggerCall) (history : EncodedRingBuffer)
    (r : EventRecorder) : Bool :=
  call.frame.any fun frame =>
    let selection := history.selectPreRoll frame.sensorTimestampNs r.config.eventPreNs
    r.opens throws call frame && (!selection.hasIndependentStart || selection.units.isEmpty) &&
      (throws .recordNoPreRoll || queueThrows throws "" r)

/-- The selection of `trigger` reaches the requested end, and an exception leaves the event
behind. -/
def triggerStrands (throws : AllocStep → Bool) (call : TriggerCall) (history : EncodedRingBuffer)
    (r : EventRecorder) : Bool :=
  call.frame.any fun frame =>
    let requestedEnd := saturatingAdd frame.sensorTimestampNs r.config.eventPostNs
    let selection := history.selectPreRoll frame.sensorTimestampNs r.config.eventPreNs
    r.opens throws call frame &&
      selection.units.any (fun unit => decide (unit.sensorTimestampNs ≥ requestedEnd)) &&
      queueThrows throws "" r

/-- `observeEncoded` appends the unit to the event. -/
def extends? (throws : AllocStep → Bool) (unit : EncodedAccessUnit) (event : EventJob)
    (r : EventRecorder) : Bool :=
  r.config.eventRecordingEnabled && decide (unit.generation = event.generation) &&
    (event.units.getLast?.all fun back =>
      decide (back.sensorTimestampNs < unit.sensorTimestampNs)) &&
    !throws .appendUnit

/-- `observeEncoded` appends the unit that reaches the requested end, and an exception leaves the
event behind. -/
def observeStrands (throws : AllocStep → Bool) (unit : EncodedAccessUnit) (r : EventRecorder) :
    Bool :=
  r.active.any fun event =>
    r.extends? throws unit event &&
      decide (event.requestedEndSensorTimestampNs ≤ unit.sensorTimestampNs) &&
      queueThrows throws "" r

/-- Both kinds of leaving an event behind are ways to be left by an exception. -/
theorem finishLocked_of_queueThrows {event : EventJob} {postComplete : Bool} {error : String}
    (hactive : r.active = some event) (hthrow : queueThrows throws error r = true) :
    (r.finishLocked throws postComplete error).2 = .error .queueJob := by
  simp only [queueThrows, Bool.and_eq_true, decide_eq_true_eq, Bool.not_eq_true'] at hthrow
  obtain ⟨⟨hrecord, hroom⟩, hqueue⟩ := hthrow
  rcases finishLocked_cases hactive throws postComplete error with
    ⟨hrecord', -⟩ | ⟨-, ⟨hfull, -⟩ | ⟨-, -, hf⟩ | ⟨-, hqueue', -⟩⟩
  · rw [hrecord] at hrecord'
    cases hrecord'
  · exact absurd hroom (Nat.not_lt.mpr hfull)
  · rw [hf]
  · rw [hqueue] at hqueue'
    cases hqueue'

theorem trigger_throws {call : TriggerCall} {history : EncodedRingBuffer}
    (h : strandsEmpty throws call history r = true ∨ triggerStrands throws call history r = true) :
    ∃ failed, (r.trigger throws call history).2 = .error failed := by
  obtain ⟨frame, hframe, hopens, hclose⟩ : ∃ frame, call.frame = some frame ∧
      r.opens throws call frame = true ∧
      let selection := history.selectPreRoll frame.sensorTimestampNs r.config.eventPreNs
      (((!selection.hasIndependentStart || selection.units.isEmpty) = true ∧
          (throws .recordNoPreRoll || queueThrows throws "" r) = true) ∨
        selection.units.any (fun unit => decide (unit.sensorTimestampNs ≥
            saturatingAdd frame.sensorTimestampNs r.config.eventPostNs)) = true ∧
          queueThrows throws "" r = true) := by
    rcases h with h | h
    · obtain ⟨frame, hframe, h⟩ := (Option.any_eq_true _ _).mp h
      simp only [Bool.and_eq_true] at h
      exact ⟨frame, hframe, h.1.1, Or.inl ⟨h.1.2, h.2⟩⟩
    · obtain ⟨frame, hframe, h⟩ := (Option.any_eq_true _ _).mp h
      simp only [Bool.and_eq_true] at h
      exact ⟨frame, hframe, h.1.1, Or.inr ⟨h.1.2, h.2⟩⟩
  simp only [opens, Bool.and_eq_true, Bool.not_eq_true'] at hopens
  rcases trigger_cases throws call history r with
    ⟨hno, -⟩ | ⟨-, hno, -⟩ | ⟨frame', hframe', -, ⟨failed, -, hc⟩ | ⟨-, hc⟩⟩
  · have hrecords := hopens.1
    simp [admits, hno] at hrecords
  · rw [hno frame hframe] at hopens
    cases hopens.1
  · exact ⟨failed, by rw [hc]⟩
  cases hframe.symm.trans hframe'
  have hunits := copyUnits_isEmpty (saturatingAdd frame.sensorTimestampNs r.config.eventPostNs)
    (history.selectPreRoll frame.sensorTimestampNs r.config.eventPreNs).units
  have hpost := copyUnits_complete (saturatingAdd frame.sensorTimestampNs r.config.eventPostNs)
    (history.selectPreRoll frame.sensorTimestampNs r.config.eventPreNs).units
  rw [hc]
  dsimp only at hclose ⊢
  rcases startCollecting_cases throws
      (history.selectPreRoll frame.sensorTimestampNs r.config.eventPreNs).hasIndependentStart
      (r.eventOf call frame history) (r.begun frame) with
    ⟨-, -, hs⟩ | ⟨-, hthrow, hs⟩ | ⟨hsome, -, hs⟩ | ⟨hsome, hcomplete, hs⟩
  · exact ⟨_, by rw [hs]; rfl⟩
  · have hqueue : queueThrows throws "" r = true := by
      rcases hclose with ⟨-, hclose⟩ | ⟨-, hclose⟩
      · simpa [hthrow] using hclose
      · exact hclose
    exact ⟨_, by rw [hs, finishLocked_of_queueThrows rfl (by exact hqueue)]; rfl⟩
  · have hqueue : queueThrows throws "" r = true := by
      rcases hclose with ⟨hnone, -⟩ | ⟨-, hclose⟩
      · rw [← hunits] at hnone
        exact absurd hnone (by rw [Bool.not_eq_true]; exact hsome)
      · exact hclose
    exact ⟨_, by rw [hs, finishLocked_of_queueThrows rfl (by exact hqueue)]; rfl⟩
  · rcases hclose with ⟨hnone, -⟩ | ⟨hreached, -⟩
    · rw [← hunits] at hnone
      exact absurd hnone (by rw [Bool.not_eq_true]; exact hsome)
    · exact absurd (hpost.trans hreached) (by rw [Bool.not_eq_true]; exact hcomplete)

theorem observeEncoded_throws {unit : EncodedAccessUnit}
    (h : observeStrands throws unit r = true) :
    ∃ failed, (r.observeEncoded throws (some unit)).2 = .error failed := by
  obtain ⟨event, hactive, h⟩ := (Option.any_eq_true _ _).mp h
  simp only [extends?, Bool.and_eq_true, decide_eq_true_eq, Bool.not_eq_true',
    Option.all_eq_true] at h
  obtain ⟨⟨⟨⟨⟨henabled, hgen⟩, hnew⟩, hthrow⟩, hend⟩, hqueue⟩ := h
  rcases observeEncoded_cases henabled hactive throws unit with
    ⟨hgen', -⟩ | ⟨-, ⟨back, hback, hold⟩, -⟩ |
      ⟨-, -, ⟨hthrow', -⟩ | ⟨-, -, hc⟩ | ⟨-, hbefore, -⟩⟩
  · exact absurd hgen hgen'
  · exact absurd (hnew back hback) (Nat.not_lt.mpr hold)
  · rw [hthrow] at hthrow'
    cases hthrow'
  · exact ⟨_, by rw [hc, finishLocked_of_queueThrows rfl (by exact hqueue)]⟩
  · exact absurd hend (Nat.not_le.mpr hbefore)

/-- The rule of `trigger`. -/
theorem trigger_events {call : TriggerCall} {history : EncodedRingBuffer}
    (hgood : strandsEmpty throws call history r = false) (h : r.Events C F)
    (hempty : ∀ job : EventJob, job.units = [] → F job)
    (hopen : ∀ frame, (r.eventOf call frame history).units ≠ [] →
      (r.eventOf call frame history).postRollComplete = false → C (r.eventOf call frame history))
    (hdone : ∀ frame, (r.eventOf call frame history).units ≠ [] →
      (r.eventOf call frame history).postRollComplete = true →
        F ((r.eventOf call frame history).close true "") ∧
          (triggerStrands throws call history r = true →
            ∀ left, SameClip (r.eventOf call frame history) left → C left)) :
    (r.trigger throws call history).1.Events C F := by
  rcases trigger_cases throws call history r with
    ⟨-, hc⟩ | ⟨-, -, latest, rejections, ⟨hc, -⟩ | hc⟩ |
      ⟨frame, hframe, hadmits, ⟨failed, -, hc⟩ | ⟨hlocal, hc⟩⟩
  · rw [hc]
    exact h
  · rw [hc]
    exact h
  · rw [hc]
    exact h
  · rw [hc]
    exact h
  have hopens : r.opens throws call frame = true := by
    rw [List.find?_eq_none] at hlocal
    simpa [opens, hadmits] using hlocal
  rw [hc]
  dsimp only
  have hunits : (r.eventOf call frame history).units.isEmpty =
      (history.selectPreRoll frame.sensorTimestampNs r.config.eventPreNs).units.isEmpty :=
    copyUnits_isEmpty _ _
  have hpost : (r.eventOf call frame history).postRollComplete =
      (history.selectPreRoll frame.sensorTimestampNs r.config.eventPreNs).units.any
        fun unit => decide (unit.sensorTimestampNs ≥
          saturatingAdd frame.sensorTimestampNs r.config.eventPostNs) :=
    copyUnits_complete _ _
  rcases startCollecting_cases throws
      (history.selectPreRoll frame.sensorTimestampNs r.config.eventPreNs).hasIndependentStart
      (r.eventOf call frame history) (r.begun frame) with
    ⟨hnone, hthrow, -⟩ | ⟨hnone, -, hs⟩ | ⟨hsome, hcomplete, hs⟩ | ⟨hsome, hcomplete, hs⟩
  · rw [hunits] at hnone
    simp [strandsEmpty, hframe, hopens, hnone, hthrow] at hgood
  · rw [hs]
    have hnil : (r.eventOf call frame history).units = [] := by
      rw [← List.isEmpty_iff, hunits]
      rw [hunits, Bool.or_eq_true, Bool.not_eq_true'] at hnone
      refine hnone.elim (fun hstart => ?_) id
      rw [EncodedRingBuffer.selectPreRoll_noStart hstart]
      rfl
    refine finishLocked_events (by exact h.2) rfl (hempty _ (by simpa using hnil)) fun hthrow => ?_
    have hthrow : queueThrows throws "" r = true := hthrow.resolve_left (by simp)
    rw [hunits] at hnone
    simp [strandsEmpty, hframe, hopens, hnone, hthrow] at hgood
  · rw [hs]
    obtain ⟨hclose, hleft⟩ := hdone frame
      (by simpa using (Bool.or_eq_false_iff.mp hsome).2) hcomplete
    refine finishLocked_events (by exact h.2) rfl hclose fun hthrow => hleft ?_
    have hthrow : queueThrows throws "" r = true := hthrow.resolve_left (by simp)
    rw [hpost] at hcomplete
    simp only [triggerStrands, hframe, Option.any_some, hopens, hcomplete, hthrow, Bool.and_self]
  · rw [hs]
    refine ⟨fun event hevent => ?_, h.2⟩
    cases hevent
    exact hopen frame (by simpa using (Bool.or_eq_false_iff.mp hsome).2) hcomplete

/-- The rule of `observeEncoded`. The event is kept, or it ends with the encoder's generation, or
the unit is appended and may then complete it. -/
theorem observeEncoded_events {C' F' : EventJob → Prop} {unit : EncodedAccessUnit}
    (h : r.Events C F) (hF : ∀ job, F job → F' job)
    (hkeep : ∀ event left, C event → SameClip event left → C' left)
    (hchanged : ∀ event error, C event → F' (event.close false error))
    (happend : ∀ event, C event → r.active = some event → r.extends? throws unit event = true →
      let extended := { event with units := event.units ++ [unit] }
      (unit.sensorTimestampNs < event.requestedEndSensorTimestampNs → C' extended) ∧
        (event.requestedEndSensorTimestampNs ≤ unit.sensorTimestampNs →
          F' (extended.close true "") ∧
            (observeStrands throws unit r = true →
              ∀ left, SameClip extended left → C' left))) :
    (r.observeEncoded throws (some unit)).1.Events C' F' := by
  have hjobs : ∀ job ∈ r.jobs, F' job := fun job hjob => hF job (h.2 job hjob)
  by_cases hidle : r.config.eventRecordingEnabled = false ∨ r.active = none
  · obtain ⟨latest, hc⟩ := observeEncoded_idle hidle throws (some unit)
    rw [hc]
    exact ⟨fun event hevent => hkeep event event (h.1 event hevent) (.refl event), hjobs⟩
  obtain ⟨henabled, event, hactive⟩ : r.config.eventRecordingEnabled = true ∧
      ∃ event, r.active = some event := by
    simpa [Option.ne_none_iff_exists'] using hidle
  have hevent := h.1 event hactive
  have hsame : (r.see unit.sensorTimestampNs).Events C' F' := by
    refine ⟨fun other hother => ?_, hjobs⟩
    cases hactive.symm.trans hother
    exact hkeep event event hevent (.refl event)
  rcases observeEncoded_cases henabled hactive throws unit with
    ⟨-, hc⟩ | ⟨-, -, hc⟩ | ⟨hgen, hnew, ⟨-, hc⟩ | ⟨hthrow, hend, hc⟩ | ⟨hthrow, hend, hc⟩⟩
  · rw [hc]
    exact finishLocked_events (by exact hjobs) hactive (hchanged event _ hevent)
      fun _ left hleft => hkeep event left hevent hleft
  · rw [hc]
    exact hsame
  · rw [hc]
    exact hsame
  all_goals
    have hall : (event.units.getLast?.all fun back =>
        decide (back.sensorTimestampNs < unit.sensorTimestampNs)) = true := by
      cases hlast : event.units.getLast? with
      | none => rfl
      | some back => simpa using hnew back hlast
    have hextends : r.extends? throws unit event = true := by
      simp [extends?, henabled, hgen, hall, hthrow]
    obtain ⟨hopen, hdone⟩ := happend event hevent hactive hextends
    rw [hc]
  · obtain ⟨hclose, hleft⟩ := hdone hend
    refine finishLocked_events (by exact hjobs) rfl hclose fun hqueue => hleft ?_
    have hqueue : queueThrows throws "" r = true := hqueue.resolve_left (by simp)
    simp [observeStrands, hactive, hextends, hend, hqueue]
  · refine ⟨fun other hother => ?_, hjobs⟩
    cases hother
    exact hopen hend

/-- The rule of `stop`. -/
theorem stop_events (h : r.Events C F)
    (hkeep : ∀ event left, C event → SameClip event left → C left)
    (hchanged : ∀ event error, C event → F (event.close false error)) :
    (r.stop throws).1.Events C F := by
  obtain ⟨running, hstop, -⟩ := stop_cases throws r
  rw [hstop]
  have hinterrupt : (r.interrupt throws).1.Events C F := by
    unfold interrupt
    dsimp only
    split
    next hsome =>
      obtain ⟨event, hactive⟩ := Option.isSome_iff_exists.mp hsome
      exact finishLocked_events (by exact h.2) (by exact hactive)
        (hchanged event _ (h.1 event hactive))
        fun _ left hleft => hkeep event left (h.1 event hactive) hleft
    next => exact h
  exact hinterrupt

end EventRecorder

namespace RecorderThreads

variable {t t' : RecorderThreads} {C F C' F' : EventJob → Prop}

/-- The collected event satisfies `C`, and every finished job `F`. -/
def Events (C F : EventJob → Prop) (t : RecorderThreads) : Prop :=
  (∀ event, t.recorder.active = some event → C event) ∧ ∀ job ∈ t.finished, F job

theorem Events.recorder (h : t.Events C F) : t.recorder.Events C F :=
  ⟨h.1, fun job hjob => h.2 job (List.mem_append_left _ hjob)⟩

theorem Events.of_recorder (h : t.Events C F) (hF : ∀ job, F job → F' job)
    {recorder : EventRecorder} (hrecorder : recorder.Events C' F') :
    Events C' F' { t with recorder } := by
  refine ⟨hrecorder.1, fun job hjob => ?_⟩
  rcases List.mem_append.mp hjob with hjob | hjob
  · exact hrecorder.2 job hjob
  · exact hF job (h.2 job (List.mem_append_right _ hjob))

/-- The rule of the owner and the worker. -/
theorem own_events {a : RecorderAction} (ha : a.isOwn = true) (hs : t.step a = some t')
    (h : t.Events C F) (hkeep : ∀ event left, C event → SameClip event left → C left)
    (hchanged : ∀ event error, C event → F (event.close false error)) : t'.Events C F := by
  by_cases hstop : ∃ throws, a = .stop throws
  · obtain ⟨throws, rfl⟩ := hstop
    have hevents : (t.recorder.stop throws).1.Events C F :=
      EventRecorder.stop_events h.recorder hkeep hchanged
    simp only [step] at hs
    split at hs
    · cases hs
    · rcases hresult : t.recorder.stop throws with ⟨recorder, failed | joins⟩
      · rw [hresult] at hs hevents
        cases hs
        exact h.of_recorder (fun _ => id) hevents
      · rw [hresult] at hs hevents
        cases joins <;> cases hs <;> exact h.of_recorder (fun _ => id) hevents
  · push Not at hstop
    obtain ⟨-, hactive, hfinished⟩ := step_own ha hstop hs
    exact ⟨fun event hevent => h.1 event (hactive ▸ hevent),
      fun job hjob => h.2 job (hfinished job hjob)⟩

end RecorderThreads

/-! ### What a clip promises -/

/-- `local_timestamp` in the loop of `muxVideo`. -/
def EventJob.localTimestamp (baseTimestamp : ℕ) (unit : EncodedAccessUnit) : ℕ :=
  if unit.sensorTimestampNs ≥ baseTimestamp then unit.sensorTimestampNs - baseTimestamp else 0

/-- The local timestamps of the buffers that `muxVideo` pushes. -/
def EventJob.localTimestamps (job : EventJob) : List ℕ :=
  match job.units with
  | [] => []
  | front :: _ => job.units.map (localTimestamp front.sensorTimestampNs)

/-- What is settled when the clip starts, and kept while it grows. -/
structure Opened (event : EventJob) : Prop where
  independent : ∀ front ∈ event.units.head?, front.independentlyDecodable = true
  generation : ∀ unit ∈ event.units, unit.generation = event.generation
  ordered : EncodedRingBuffer.TimeOrdered event.units
  preRoll : ∀ front ∈ event.units.head?, (event.preRollComplete = true ↔
    front.sensorTimestampNs ≤ event.requestedStartSensorTimestampNs)

/-- A clip starts with a decodable unit, holds one generation, repeats nothing and goes back
nowhere, in the order of delivery and in sensor time; its times and its two flags are those of its
first and last unit; and only the last unit may reach the requested end. -/
structure WellFormed (delivered : List EncodedAccessUnit) (job : EventJob) : Prop
    extends Opened job where
  sublist : job.units.Sublist delivered
  actualStart : ∀ front ∈ job.units.head?,
    job.actualStartSensorTimestampNs = front.sensorTimestampNs
  actualEnd : ∀ back ∈ job.units.getLast?, job.actualEndSensorTimestampNs = back.sensorTimestampNs
  postRoll : ∀ back ∈ job.units.getLast?, (job.postRollComplete = true ↔
    job.requestedEndSensorTimestampNs ≤ back.sensorTimestampNs)
  inside : ∀ unit ∈ job.units.dropLast,
    unit.sensorTimestampNs < job.requestedEndSensorTimestampNs

/-- The muxer's timestamps start at zero and do not go back, and none of them is clamped. -/
structure StampsForward (job : EventJob) : Prop where
  start : ∀ stamp ∈ job.localTimestamps.head?, stamp = 0
  forward : job.localTimestamps.Pairwise (· ≤ ·)
  unclamped : ∀ front ∈ job.units.head?, ∀ unit ∈ job.units,
    front.sensorTimestampNs ≤ unit.sensorTimestampNs

theorem Opened.stampsForward {job : EventJob} (h : Opened job) : StampsForward job := by
  cases hunits : job.units with
  | nil => exact ⟨by simp [EventJob.localTimestamps, hunits],
      by simp [EventJob.localTimestamps, hunits], by simp [hunits]⟩
  | cons front rest =>
    have hordered := h.ordered
    rw [hunits] at hordered
    have hle : ∀ unit ∈ front :: rest, front.sensorTimestampNs ≤ unit.sensorTimestampNs :=
      fun unit hunit => hordered.le_of_mem hunit
    have hstamps : job.localTimestamps =
        (front :: rest).map fun unit => unit.sensorTimestampNs - front.sensorTimestampNs := by
      simp only [EventJob.localTimestamps, hunits]
      exact List.map_congr_left fun unit hunit => if_pos (hle unit hunit)
    refine ⟨?_, ?_, ?_⟩
    · simp [hstamps]
    · rw [hstamps, List.pairwise_map]
      exact hordered.imp fun h => Nat.sub_le_sub_right h _
    · intro other hother unit hunit
      rw [hunits, List.head?_cons, Option.mem_some_iff] at hother
      exact hother ▸ hle unit (hunits ▸ hunit)

theorem Opened.of_sameClip {event left : EventJob} (h : Opened event)
    (hleft : SameClip event left) : Opened left where
  independent := by rw [hleft.units]; exact h.independent
  generation := by rw [hleft.units, hleft.generation]; exact h.generation
  ordered := by rw [hleft.units]; exact h.ordered
  preRoll := by
    rw [hleft.units, hleft.preRollComplete, hleft.requestedStart]
    exact h.preRoll

/-- The ring's selection opens the clip. -/
theorem EventRecorder.opened_eventOf {history : EncodedRingBuffer}
    (hcoherent : history.Coherent) (hordered : EncodedRingBuffer.TimeOrdered history.units)
    (r : EventRecorder) (call : TriggerCall) (frame : FrameLease) :
    Opened (r.eventOf call frame history) := by
  set selection := history.selectPreRoll frame.sensorTimestampNs r.config.eventPreNs with hselection
  set event := r.eventOf call frame history with hevent
  have hunits : event.units = (copyUnits (saturatingAdd frame.sensorTimestampNs
      r.config.eventPostNs) selection.units).1 := rfl
  have hsuffix : selection.units <:+ history.units :=
    EncodedRingBuffer.selectPreRoll_units_suffix _ _ _
  have hcopied : event.units.Sublist history.units :=
    (copyUnits_start _ _).1.sublist.trans hsuffix.sublist
  have hhead : event.units.head? = selection.units.head? := copyUnits_head? _ _
  rcases EncodedRingBuffer.selectPreRoll_cases hordered frame.sensorTimestampNs
      r.config.eventPreNs with ⟨-, hnil⟩ | ⟨-, hgen, first, rest, hselected, hfirst, hpre⟩
  · rw [← hselection] at hnil
    have hnil : event.units = [] := by
      rw [hunits, hnil]
      rfl
    exact ⟨by simp [hnil], by simp [hnil], by rw [hnil]; exact .nil, by simp [hnil]⟩
  · rw [← hselection] at hgen hselected hpre
    rw [hselected, List.head?_cons] at hhead
    refine ⟨?_, fun unit hunit => ?_, hordered.sublist hcopied, ?_⟩
    · rw [hhead]
      rintro front ⟨⟩
      exact hfirst
    · exact (hcoherent.generation unit (hcopied.subset hunit)).trans hgen.symm
    · rw [hhead]
      rintro front ⟨⟩
      exact hpre

/-- An opened clip may grow by a newer unit of its generation. -/
theorem Opened.append {event : EventJob} {unit : EncodedAccessUnit} (h : Opened event)
    (hne : event.units ≠ []) (hgen : unit.generation = event.generation)
    (hnew : ∀ back ∈ event.units.getLast?, back.sensorTimestampNs < unit.sensorTimestampNs) :
    Opened { event with units := event.units ++ [unit] } where
  independent := by
    rw [List.head?_append_of_ne_nil _ hne]
    exact h.independent
  generation := by
    intro other hother
    rcases List.mem_append.mp hother with hother | hother
    · exact h.generation other hother
    · rw [List.mem_singleton.mp hother]
      exact hgen
  ordered := by
    refine h.ordered.append_singleton ?_
    obtain ⟨back, hback⟩ : ∃ back, event.units.getLast? = some back :=
      ⟨_, List.getLast?_eq_some_getLast hne⟩
    rw [EncodedRingBuffer.lastTimestamp, hback]
    exact (hnew back hback).le
  preRoll := by
    rw [List.head?_append_of_ne_nil _ hne]
    exact h.preRoll

theorem EventRecorder.of_extends? {r : EventRecorder} {throws : AllocStep → Bool}
    {unit : EncodedAccessUnit} {event : EventJob} (h : r.extends? throws unit event = true) :
    unit.generation = event.generation ∧
      ∀ back ∈ event.units.getLast?, back.sensorTimestampNs < unit.sensorTimestampNs := by
  simp only [extends?, Bool.and_eq_true, decide_eq_true_eq, Option.all_eq_true] at h
  exact ⟨h.1.1.2, h.1.2⟩

/-! ### The stream -/

/-- The units are taken from the stream in its order, while `pushed` is in the ring but not yet
observed: that unit is the last of them, or not yet among them. -/
def Taken (pushed : Option EncodedAccessUnit) (delivered units : List EncodedAccessUnit) : Prop :=
  match pushed with
  | none => units.Sublist delivered
  | some unit => ∃ past, delivered = past ++ [unit] ∧
      (units.Sublist past ∨ units.Sublist delivered ∧ units.getLast? = some unit)

section Taken

variable {pushed : Option EncodedAccessUnit} {delivered units sfx : List EncodedAccessUnit}
  {u : EncodedAccessUnit}

theorem Taken.sublist (h : Taken pushed delivered units) : units.Sublist delivered := by
  cases pushed with
  | none => exact h
  | some unit =>
    obtain ⟨past, rfl, hpast | ⟨hall, -⟩⟩ := h
    · exact hpast.trans (List.sublist_append_left _ _)
    · exact hall

theorem Taken.of_suffix (h : Taken pushed delivered units) (hsuffix : sfx <:+ units) :
    Taken pushed delivered sfx := by
  cases pushed with
  | none => exact hsuffix.sublist.trans h
  | some unit =>
    obtain ⟨past, hsplit, hpast | ⟨hall, hlast⟩⟩ := h
    · exact ⟨past, hsplit, Or.inl (hsuffix.sublist.trans hpast)⟩
    · refine ⟨past, hsplit, ?_⟩
      rcases eq_or_ne sfx [] with rfl | hne
      · exact Or.inl (List.nil_sublist _)
      · obtain ⟨dropped, rfl⟩ := hsuffix
        rw [List.getLast?_append_of_ne_nil _ hne] at hlast
        exact Or.inr ⟨(List.suffix_append _ _).sublist.trans hall, hlast⟩

/-- One more unit is delivered, and is still to be observed. -/
theorem Taken.deliver (h : Taken none delivered units) (u : EncodedAccessUnit) :
    Taken (some u) (delivered ++ [u]) units := ⟨delivered, rfl, Or.inl h⟩

/-- The unit that is observed is newer than the last one taken, so it is not among those taken. -/
theorem Taken.append (h : Taken (some u) delivered units)
    (hnew : ∀ back ∈ units.getLast?, back.sensorTimestampNs < u.sensorTimestampNs) :
    (units ++ [u]).Sublist delivered := by
  obtain ⟨past, rfl, hpast | ⟨-, hlast⟩⟩ := h
  · exact hpast.append (.refl _)
  · exact absurd (hnew u hlast) (Nat.lt_irrefl _)

/-- What the ring holds is taken from the stream. -/
theorem Taken.push {history : EncodedRingBuffer} (h : Taken none delivered history.units)
    (u : EncodedAccessUnit) :
    Taken (some u) (delivered ++ [u]) (history.push (some u)).1.units := by
  rcases EncodedRingBuffer.push_cases history u with ⟨hpush, -⟩ | ⟨-, haccepted, -⟩
  · rw [hpush]
    exact h.deliver u
  · have hall : Taken (some u) (delivered ++ [u]) (history.units ++ [u]) :=
      ⟨delivered, rfl, Or.inr ⟨List.Sublist.append h (.refl _), by simp⟩⟩
    exact hall.of_suffix (EncodedRingBuffer.push_units_suffix haccepted)

end Taken

/-- A clip in the making. -/
structure Collects (pushed : Option EncodedAccessUnit) (delivered : List EncodedAccessUnit)
    (event : EventJob) : Prop extends Opened event where
  nonempty : event.units ≠ []
  taken : Taken pushed delivered event.units
  inside : ∀ unit ∈ event.units, unit.sensorTimestampNs < event.requestedEndSensorTimestampNs

section Close

variable {pushed : Option EncodedAccessUnit} {delivered : List EncodedAccessUnit}
  {event left : EventJob}

theorem Collects.of_sameClip (h : Collects pushed delivered event) (hleft : SameClip event left) :
    Collects pushed delivered left where
  toOpened := h.toOpened.of_sameClip hleft
  nonempty := by rw [hleft.units]; exact h.nonempty
  taken := by rw [hleft.units]; exact h.taken
  inside := by rw [hleft.units, hleft.requestedEnd]; exact h.inside

/-- A clip without units promises nothing. -/
theorem wellFormed_of_nil {job : EventJob} (h : job.units = []) : WellFormed delivered job where
  independent := by simp [h]
  generation := by simp [h]
  ordered := by rw [h]; exact .nil
  preRoll := by simp [h]
  sublist := by rw [h]; exact List.nil_sublist _
  actualStart := by simp [h]
  actualEnd := by simp [h]
  postRoll := by simp [h]
  inside := by simp [h]

theorem WellFormed.deliver {delivered : List EncodedAccessUnit} {job : EventJob}
    (h : WellFormed delivered job) (u : EncodedAccessUnit) : WellFormed (delivered ++ [u]) job :=
  { h with sublist := h.sublist.trans (List.sublist_append_left _ _) }

/-- `finishLocked` writes the times of the first and the last unit. -/
theorem EventJob.close_times (event : EventJob) (postComplete : Bool) (error : String) :
    (event.close postComplete error).postRollComplete = postComplete ∧
      (∀ front ∈ event.units.head?, (event.close postComplete error).actualStartSensorTimestampNs =
        front.sensorTimestampNs) ∧
      ∀ back ∈ event.units.getLast?, (event.close postComplete error).actualEndSensorTimestampNs =
        back.sensorTimestampNs := by
  unfold close
  dsimp only
  split
  next front back hfront hback =>
    rw [hfront, hback]
    exact ⟨rfl, by rintro _ ⟨⟩; rfl, by rintro _ ⟨⟩; rfl⟩
  next hnone =>
    have hnil : event.units = [] := by
      by_contra hne
      exact hnone _ _ (List.head?_eq_some_head hne) (List.getLast?_eq_some_getLast hne)
    exact ⟨rfl, by simp [hnil], by simp [hnil]⟩

/-- Closing an opened clip, with a flag that says whether its last unit reaches the end. -/
theorem Opened.close (h : Opened event) (hsublist : event.units.Sublist delivered)
    (postComplete : Bool) (error : String)
    (hpost : ∀ back ∈ event.units.getLast?, (postComplete = true ↔
      event.requestedEndSensorTimestampNs ≤ back.sensorTimestampNs))
    (hinside : ∀ unit ∈ event.units.dropLast,
      unit.sensorTimestampNs < event.requestedEndSensorTimestampNs) :
    WellFormed delivered (event.close postComplete error) := by
  obtain ⟨hflag, hstart, hend⟩ := event.close_times postComplete error
  have hsame := SameClip.close event postComplete error
  exact {
    toOpened := h.of_sameClip hsame
    sublist := by rw [hsame.units]; exact hsublist
    actualStart := by rw [hsame.units]; exact hstart
    actualEnd := by rw [hsame.units]; exact hend
    postRoll := by rw [hsame.units, hflag, hsame.requestedEnd]; exact hpost
    inside := by rw [hsame.units, hsame.requestedEnd]; exact hinside }

/-- A clip in the making ends early. -/
theorem Collects.close_early (h : Collects pushed delivered event) (error : String) :
    WellFormed delivered (event.close false error) := by
  refine h.toOpened.close h.taken.sublist false error (fun back hback => ?_) fun unit hunit =>
    h.inside unit (List.mem_of_mem_dropLast hunit)
  exact iff_of_false (by simp) (Nat.not_le.mpr (h.inside back (List.mem_of_getLast? hback)))

/-- A clip ends with the unit that reaches the requested end. -/
theorem Opened.close_complete {front : List EncodedAccessUnit} {back : EncodedAccessUnit}
    (h : Opened event) (hunits : event.units = front ++ [back])
    (hsublist : event.units.Sublist delivered)
    (hback : event.requestedEndSensorTimestampNs ≤ back.sensorTimestampNs)
    (hfront : ∀ unit ∈ front, unit.sensorTimestampNs < event.requestedEndSensorTimestampNs) :
    WellFormed delivered (event.close true "") := by
  refine h.close hsublist true "" (fun last hlast => ?_) ?_
  · rw [hunits, List.getLast?_append, List.getLast?_singleton] at hlast
    cases hlast
    exact iff_of_true rfl hback
  · rw [hunits, List.dropLast_concat]
    exact hfront

end Close

/-! ### The invariant -/

namespace Recording

variable {ring : EncodedRingBuffer} {config : EventConfig} {s s' : Recording}

/-- An exception leaves an event without units behind. -/
def strandsEmpty (s : Recording) : RecordingAction → Bool
  | .trigger throws call => EventRecorder.strandsEmpty throws call s.history s.threads.recorder
  | .push _ | .observe _ | .clear | .thread _ => false

/-- An exception leaves a complete event behind. -/
def strandsComplete (s : Recording) : RecordingAction → Bool
  | .trigger throws call => EventRecorder.triggerStrands throws call s.history s.threads.recorder
  | .observe throws => s.pushed.any fun unit =>
      EventRecorder.observeStrands throws unit s.threads.recorder
  | .push _ | .clear | .thread _ => false

/-- What each action does. -/
theorem step_cases {a : RecordingAction} (hs : s.step a = some s') :
    (∃ unit, a = .push unit ∧ s.pushed = none ∧ s' = { s with
      history := (s.history.push (some unit)).1
      pushed := some unit
      delivered := s.delivered ++ [unit] }) ∨
    (a = .clear ∧ s' = { s with history := s.history.clear }) ∨
    (∃ throws unit, a = .observe throws ∧ s.pushed = some unit ∧ s' = { s with
      threads := { s.threads with
        recorder := (s.threads.recorder.observeEncoded throws (some unit)).1 }
      pushed := none }) ∨
    (∃ throws call, a = .trigger throws call ∧ s' = { s with
      threads := { s.threads with
        recorder := (s.threads.recorder.trigger throws call s.history).1 } }) ∨
    ∃ b threads, a = .thread b ∧ b.isOwn = true ∧ s.threads.step b = some threads ∧
      s' = { s with threads } := by
  refine (step_threads hs).imp id (Or.imp id ?_)
  rintro ⟨b, threads, hb, hstep, rfl⟩
  cases a with
  | push | clear => cases hb
  | observe throws =>
    obtain ⟨unit, hpushed, rfl⟩ := Option.map_eq_some_iff.mp hb
    cases hstep
    exact Or.inl ⟨throws, unit, rfl, hpushed, rfl⟩
  | trigger throws call =>
    cases hb
    cases hstep
    exact Or.inr (Or.inl ⟨throws, call, rfl, rfl⟩)
  | thread b' =>
    simp only [recorderAction] at hb
    split at hb
    next hown =>
      cases hb
      exact Or.inr (Or.inr ⟨b, threads, rfl, hown, hstep, rfl⟩)
    · cases hb

/-- The ring is that of a sequence of operations. -/
def RingRun (ring : EncodedRingBuffer) (s : Recording) : Prop :=
  ∃ ops, s.history = (EncodedRingBuffer.Tracked.run ring ops).ring

theorem RingRun.step {a : RecordingAction} (h : RingRun ring s) (hs : s.step a = some s') :
    RingRun ring s' := by
  obtain ⟨ops, hops⟩ := h
  have hsnoc : ∀ op, (EncodedRingBuffer.Tracked.run ring (ops ++ [op])).ring =
      ((EncodedRingBuffer.Tracked.run ring ops).apply op).ring := by
    intro op
    simp [EncodedRingBuffer.Tracked.run]
  rcases step_cases hs with ⟨unit, -, -, rfl⟩ | ⟨-, rfl⟩ | ⟨_, _, -, -, rfl⟩ | ⟨_, _, -, rfl⟩ |
    ⟨_, _, -, -, -, rfl⟩
  · exact ⟨ops ++ [.push (some unit)], by rw [hsnoc, hops]; rfl⟩
  · exact ⟨ops ++ [.clear], by rw [hsnoc, hops]; rfl⟩
  · exact ⟨ops, hops⟩
  · exact ⟨ops, hops⟩
  · exact ⟨ops, hops⟩

/-- The units of such a ring are of one generation and in order. -/
theorem RingRun.ordered {retentionNs maxBytes : ℕ} (h : RingRun ring s)
    (hring : EncodedRingBuffer.new retentionNs maxBytes = .ok ring) :
    s.history.Coherent ∧ EncodedRingBuffer.TimeOrdered s.history.units := by
  obtain ⟨ops, hops⟩ := h
  obtain ⟨hretains, -⟩ := EncodedRingBuffer.retains_run hring ops
  rw [hops]
  exact ⟨hretains.coherent, hretains.ordered.of_suffix hretains.suffix⟩

/-- A constructed ring is empty. -/
theorem new_units {retentionNs maxBytes : ℕ}
    (hring : EncodedRingBuffer.new retentionNs maxBytes = .ok ring) : ring.units = [] := by
  have hunits := (EncodedRingBuffer.retains_new maxBytes hring).1.units
  simpa [Suffix.longestSuffix_nil] using hunits

/-- What holds in every reachable state when no event is left behind. -/
structure Forming (ring : EncodedRingBuffer) (s : Recording) : Prop where
  history : RingRun ring s
  held : Taken s.pushed s.delivered s.history.units
  events : s.threads.Events (Collects s.pushed s.delivered) (WellFormed s.delivered)

theorem forming_initial (config : EventConfig) (hunits : ring.units = []) :
    Forming ring (initial config ring) where
  history := ⟨[], rfl⟩
  held := by
    change List.Sublist ring.units []
    rw [hunits]
  events := ⟨by rintro _ ⟨⟩, by rintro _ ⟨⟩⟩

/-- The trigger's event, still collecting or complete at once. -/
theorem Forming.trigger {retentionNs maxBytes : ℕ} (h : Forming ring s)
    (hring : EncodedRingBuffer.new retentionNs maxBytes = .ok ring) {throws : AllocStep → Bool}
    {call : TriggerCall} (hempty : s.strandsEmpty (.trigger throws call) = false)
    (hcomplete : s.strandsComplete (.trigger throws call) = false) :
    (s.threads.recorder.trigger throws call s.history).1.Events
      (Collects s.pushed s.delivered) (WellFormed s.delivered) := by
  obtain ⟨hcoherent, hordered⟩ := h.history.ordered hring
  refine EventRecorder.trigger_events hempty h.events.recorder (fun _ => wellFormed_of_nil) ?_ ?_
  · intro frame hne hpost
    have hall : (s.threads.recorder.eventOf call frame s.history).units =
        (s.history.selectPreRoll frame.sensorTimestampNs
          s.threads.recorder.config.eventPreNs).units := (copyUnits_start _ _).2 hpost
    refine ⟨EventRecorder.opened_eventOf hcoherent hordered _ _ _, hne, ?_,
      (copyUnits_inside _ _).1 hpost⟩
    rw [hall]
    exact h.held.of_suffix (EncodedRingBuffer.selectPreRoll_units_suffix _ _ _)
  · intro frame hne hpost
    refine ⟨?_, fun hthrow => ?_⟩
    · obtain ⟨front, back, hunits, hback, hfront⟩ := (copyUnits_inside _ _).2 hpost
      refine (EventRecorder.opened_eventOf hcoherent hordered _ _ _).close_complete hunits ?_
        hback hfront
      exact (copyUnits_start _ _).1.sublist.trans
        ((EncodedRingBuffer.selectPreRoll_units_suffix _ _ _).sublist.trans h.held.sublist)
    · rw [strandsComplete, hthrow] at hcomplete
      cases hcomplete

/-- The unit is observed. -/
theorem Forming.observe (h : Forming ring s) {unit : EncodedAccessUnit}
    (hpushed : s.pushed = some unit) {throws : AllocStep → Bool}
    (hcomplete : s.strandsComplete (.observe throws) = false) :
    (s.threads.recorder.observeEncoded throws (some unit)).1.Events
      (Collects none s.delivered) (WellFormed s.delivered) := by
  have hevents := h.events.recorder
  rw [hpushed] at hevents
  have hobserved : ∀ event, Collects (some unit) s.delivered event →
      Collects none s.delivered event :=
    fun _ hevent => { hevent with taken := hevent.taken.sublist }
  refine EventRecorder.observeEncoded_events hevents (fun _ => id)
    (fun event left hevent hleft => (hobserved event hevent).of_sameClip hleft)
    (fun event error hevent => hevent.close_early error)
    fun event hevent hactive hextends => ?_
  obtain ⟨hgen, hnew⟩ := EventRecorder.of_extends? hextends
  have hopened := hevent.toOpened.append hevent.nonempty hgen hnew
  have htaken := hevent.taken.append hnew
  refine ⟨fun hbefore => ⟨hopened, by simp, htaken, fun other hother => ?_⟩, fun hend => ⟨?_, ?_⟩⟩
  · rcases List.mem_append.mp hother with hother | hother
    · exact hevent.inside other hother
    · rw [List.mem_singleton.mp hother]
      exact hbefore
  · exact hopened.close_complete rfl htaken hend hevent.inside
  · intro hthrow
    rw [strandsComplete, hpushed, Option.any_some, hthrow] at hcomplete
    cases hcomplete

theorem Forming.step {retentionNs maxBytes : ℕ} (h : Forming ring s)
    (hring : EncodedRingBuffer.new retentionNs maxBytes = .ok ring) {a : RecordingAction}
    (hempty : s.strandsEmpty a = false) (hcomplete : s.strandsComplete a = false)
    (hs : s.step a = some s') : Forming ring s' := by
  have hhistory := h.history.step hs
  rcases step_cases hs with ⟨unit, rfl, hnone, rfl⟩ | ⟨rfl, rfl⟩ |
    ⟨throws, unit, rfl, hpushed, rfl⟩ | ⟨throws, call, rfl, rfl⟩ |
    ⟨b, threads, rfl, hown, hthreads, rfl⟩
  · have hheld := h.held
    have hevents := h.events
    rw [hnone] at hheld hevents
    exact ⟨hhistory, hheld.push unit, fun event hevent => { hevents.1 event hevent with
        taken := (hevents.1 event hevent).taken.deliver unit },
      fun job hjob => (hevents.2 job hjob).deliver unit⟩
  · exact ⟨hhistory, h.held.of_suffix List.nil_suffix, h.events⟩
  · exact ⟨hhistory, h.held.sublist, h.events.of_recorder (fun _ => id)
      (h.observe hpushed hcomplete)⟩
  · exact ⟨hhistory, h.held, h.events.of_recorder (fun _ => id) (h.trigger hring hempty hcomplete)⟩
  · exact ⟨hhistory, h.held, RecorderThreads.own_events hown hthreads h.events
      (fun _ _ => Collects.of_sameClip) fun _ error hevent => hevent.close_early error⟩

/-- A step that no exception leaves strands nothing. -/
theorem strands_of_calmStep {a : RecordingAction} (hs : s.calmStep a = some s') :
    s.step a = some s' ∧ s.strandsEmpty a = false ∧ s.strandsComplete a = false := by
  unfold calmStep at hs
  split at hs
  next hcalm =>
    refine ⟨hs, ?_⟩
    cases a with
    | push | clear | thread => exact ⟨rfl, rfl⟩
    | trigger throws call =>
      by_contra hc
      have hstrands : s.threads.recorder.strandsEmpty throws call s.history = true ∨
          s.threads.recorder.triggerStrands throws call s.history = true := by
        simp only [strandsEmpty, strandsComplete] at hc
        by_contra hnone
        exact hc (by simpa using hnone)
      obtain ⟨failed, hfailed⟩ := EventRecorder.trigger_throws hstrands
      simp [recorderAction, RecorderThreads.leftBy, RecorderThreads.leftBy.failure, hfailed]
        at hcalm
    | observe throws =>
      refine ⟨rfl, ?_⟩
      by_contra hc
      rw [Bool.not_eq_false, strandsComplete] at hc
      obtain ⟨unit, hpushed, hstrands⟩ := (Option.any_eq_true _ _).mp hc
      obtain ⟨failed, hfailed⟩ := EventRecorder.observeEncoded_throws hstrands
      simp [recorderAction, hpushed, RecorderThreads.leftBy, RecorderThreads.leftBy.failure,
        hfailed] at hcalm
  · cases hs

/-- In runs that no exception leaves, every finished clip is well formed. -/
theorem wellFormed_of_calm {retentionNs maxBytes : ℕ}
    (hring : EncodedRingBuffer.new retentionNs maxBytes = .ok ring)
    (h : Reachable calmStep (initial config ring) s) {job : EventJob}
    (hjob : job ∈ s.threads.finished) : WellFormed s.delivered job ∧ StampsForward job := by
  have hforming := h.invariant (Forming ring) (forming_initial config (new_units hring)) <| by
    intro s a s' hforming hs
    obtain ⟨hs, hempty, hcomplete⟩ := strands_of_calmStep hs
    exact hforming.step hring hempty hcomplete hs
  have hwell := hforming.events.2 job hjob
  exact ⟨hwell, hwell.toOpened.stampsForward⟩

/-- **Clips are well formed.** In a run from the constructor, with any exceptions but those that
leave an event behind that is already over, every job that is handed to the worker is well formed
in every state, and the muxer's timestamps run forward from zero. -/
theorem finished_wellFormed {retentionNs maxBytes : ℕ}
    (hring : EncodedRingBuffer.new retentionNs maxBytes = .ok ring)
    {history : List (Recording × RecordingAction)}
    (h : Run step (initial config ring) history s)
    (hempty : ∀ x ∈ history, x.1.strandsEmpty x.2 = false)
    (hcomplete : ∀ x ∈ history, x.1.strandsComplete x.2 = false) :
    let Good := fun s : Recording => ∀ job ∈ s.threads.finished,
      WellFormed s.delivered job ∧ StampsForward job
    (∀ x ∈ history, Good x.1) ∧ Good s := by
  obtain ⟨hall, hlast⟩ := h.forall_of (Forming ring)
    (fun s a => s.strandsEmpty a = false ∧ s.strandsComplete a = false)
    (forming_initial config (new_units hring))
    (fun _ _ _ _ hforming hgood => hforming.step hring hgood.1 hgood.2)
    fun x hx => ⟨hempty x hx, hcomplete x hx⟩
  have hgood : ∀ s, Forming ring s → ∀ job ∈ s.threads.finished,
      WellFormed s.delivered job ∧ StampsForward job := fun s hs job hjob =>
    ⟨hs.events.2 job hjob, (hs.events.2 job hjob).toOpened.stampsForward⟩
  exact ⟨fun x hx => hgood x.1 (hall x hx), hgood s hlast⟩

/-- The trigger comes between the two halves of one delivery. The call that appends the last unit
is left by an exception once before, and one that gave up the clip for another generation too. -/
def interruptedClip : List RecordingAction :=
  afterKeyframe ([.push (.ofTest 11 1 false 1), triggerAt 11, .observe fun _ => false,
    .push (.ofTest 12 1 false 1), .observe fun step => decide (step = .appendUnit),
    .push (.ofTest 13 2 true 1), .observe fun step => decide (step = .queueJob)] ++
      deliver (.ofTest 20 1 false 1))

theorem finished_wellFormed_interruptedClip :
    ∃ ring history s, EncodedRingBuffer.new 100 100 = .ok ring ∧
      Run step (initial ⟨true, 5, 5, 3⟩ ring) history s ∧
      (∃ job ∈ s.threads.finished, job.units.length = 3) ∧
      ∀ job ∈ s.threads.finished, WellFormed s.delivered job ∧ StampsForward job := by
  have hring : EncodedRingBuffer.new 100 100 =
      .ok ⟨100, 100, [], 0, 0, 0, 0, 0, by decide, by decide⟩ := rfl
  obtain ⟨s, hs, hjob⟩ := (Option.any_eq_true
    (fun s : Recording => s.threads.finished.any fun job => decide (job.units.length = 3))
    (exec step (initial ⟨true, 5, 5, 3⟩ ⟨100, 100, [], 0, 0, 0, 0, 0, by decide, by decide⟩)
      interruptedClip)).mp (by decide)
  obtain ⟨job, hmem, hlen⟩ := List.any_eq_true.mp hjob
  have hrun := Run.ofExec interruptedClip hs
  exact ⟨_, _, s, hring, hrun, ⟨job, hmem, of_decide_eq_true hlen⟩,
    (finished_wellFormed hring hrun (by decide) (by decide)).2⟩

/-- The queue throws for the complete event, and the event goes on behind its end. -/
def overrun : List RecordingAction :=
  afterKeyframe ([triggerAt 10, .push (.ofTest 20 1 false 1),
    .observe fun step => decide (step = .queueJob)] ++ deliver (.ofTest 30 1 false 1))

/-- The trigger frame is older than the ring, the queue throws for its event, and the event starts
with the next delta unit. -/
def lateStart : List RecordingAction :=
  afterKeyframe (.trigger (fun step => decide (step = .queueJob)) (RecorderThreads.detectionAt 5) ::
    deliver (.ofTest 20 1 false 1))

/-- A clip that goes on behind its requested end, and one that nothing can decode. -/
theorem not_wellFormed :
    (¬ ∀ (config : EventConfig) (retentionNs maxBytes : ℕ) (ring : EncodedRingBuffer)
        (s : Recording), EncodedRingBuffer.new retentionNs maxBytes = .ok ring →
        0 < config.eventPostNs → Reachable step (initial config ring) s →
        ∀ job ∈ s.threads.finished, job.units ≠ [] →
          ∀ unit ∈ job.units.dropLast,
            unit.sensorTimestampNs < job.requestedEndSensorTimestampNs) ∧
      ¬ ∀ (config : EventConfig) (retentionNs maxBytes : ℕ) (ring : EncodedRingBuffer)
        (s : Recording), EncodedRingBuffer.new retentionNs maxBytes = .ok ring →
        0 < config.eventPostNs → Reachable step (initial config ring) s →
        ∀ job ∈ s.threads.finished, job.units ≠ [] →
          ∀ front ∈ job.units.head?, front.independentlyDecodable = true := by
  let ring : EncodedRingBuffer := ⟨100, 5, [], 0, 0, 0, 0, 0, by decide, by decide⟩
  have hring : EncodedRingBuffer.new 100 5 = .ok ring := rfl
  refine ⟨fun h => ?_, fun h => ?_⟩
  · obtain ⟨s, hs, hbad⟩ := exists_reachable step (initial ⟨true, 5, 5, 3⟩ ring) overrun
      (fun s => ∃ job ∈ s.threads.finished, job.units ≠ [] ∧ ∃ unit ∈ job.units.dropLast,
        job.requestedEndSensorTimestampNs ≤ unit.sensorTimestampNs) (by decide)
    obtain ⟨job, hjob, hne, unit, hunit, hle⟩ := hbad
    exact absurd (h _ _ _ _ s hring (by decide) hs job hjob hne unit hunit) (Nat.not_lt.mpr hle)
  · obtain ⟨s, hs, hbad⟩ := exists_reachable step (initial ⟨true, 5, 5, 3⟩ ring) lateStart
      (fun s => ∃ job ∈ s.threads.finished, job.units ≠ [] ∧
        job.units.head?.any (·.independentlyDecodable) = false) (by decide)
    obtain ⟨job, hjob, hne, hhead⟩ := hbad
    obtain ⟨front, hfront⟩ : ∃ front, job.units.head? = some front :=
      ⟨_, List.head?_eq_some_head hne⟩
    rw [hfront, Option.any_some,
      h _ _ _ _ s hring (by decide) hs job hjob hne front hfront] at hhead
    cases hhead

end Recording

end EggVision
