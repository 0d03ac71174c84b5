import EggVision.Event.WellFormed
import EggVision.Lib.History

/-!
# The spacing of events

The gate lets a trigger pass when nothing is being collected and the cooldown of the last event is
over. The cooldown starts at the end of the clip, which `finishLocked` reads off the last unit of
the event, or off its trigger when it has no units.

How an event moves through the gate is said once, in `GateMove`; the calls and the owner are
shown to move it in no other way.

## Main definitions

* `accepts`, `closes` — the event that a step starts, and the one it finishes
* `GateMove` — what a step does to the gate and to the active event
* `cutsShort` — a step finishes an event before its clip has come to the trigger

## Main results

* `spacing` — a trigger is accepted only after the cooldown of the event before it
* `cooldown_covers` — when the cooldown covers the detection itself
* `not_cooldown_covers` — an encoder that lags behind
-/

namespace EggVision

open Transition History

/-! ### Events on their way -/

namespace EventJob

/-- The end of the clip: its last unit, or the trigger if it has none. -/
def clipEnd (event : EventJob) : ℕ :=
  match event.units.getLast? with
  | some back => back.sensorTimestampNs
  | none => event.triggerSensorTimestampNs

/-- How far the event reaches: to its trigger, or beyond it to the end of its clip. -/
def reach (event : EventJob) : ℕ := max event.triggerSensorTimestampNs event.clipEnd

theorem clipEnd_append (event : EventJob) (unit : EncodedAccessUnit) :
    ({ event with units := event.units ++ [unit] } : EventJob).clipEnd =
      unit.sensorTimestampNs := by
  simp [clipEnd]

@[simp] theorem close_trigger (event : EventJob) (postComplete : Bool) (error : String) :
    (event.close postComplete error).triggerSensorTimestampNs =
      event.triggerSensorTimestampNs := by
  unfold close
  dsimp only
  split <;> rfl

@[simp] theorem clipEnd_close (event : EventJob) (postComplete : Bool) (error : String) :
    (event.close postComplete error).clipEnd = event.clipEnd := by
  rw [clipEnd, close_units, close_trigger, clipEnd]

/-- `finishLocked` records the end of the clip. -/
theorem actualEnd_close (event : EventJob) (postComplete : Bool) (error : String) :
    (event.close postComplete error).actualEndSensorTimestampNs = event.clipEnd := by
  unfold clipEnd close
  cases hunits : event.units with
  | nil => rfl
  | cons front rest =>
    obtain ⟨back, hback⟩ : ∃ back, (front :: rest).getLast? = some back :=
      ⟨_, List.getLast?_eq_some_getLast (by simp)⟩
    simp [hback]

end EventJob

/-- The same event, later: it may have got more units, and notes about its end. -/
structure Continues (event later : EventJob) : Prop where
  id : later.id = event.id
  sequence : later.triggerSequence = event.triggerSequence
  trigger : later.triggerSensorTimestampNs = event.triggerSensorTimestampNs
  requestedEnd : later.requestedEndSensorTimestampNs = event.requestedEndSensorTimestampNs
  units : event.units <+: later.units
  reach : event.reach ≤ later.reach

theorem Continues.refl (event : EventJob) : Continues event event :=
  ⟨rfl, rfl, rfl, rfl, List.prefix_refl _, Nat.le_refl _⟩

theorem Continues.trans {e₁ e₂ e₃ : EventJob} (h : Continues e₁ e₂) (h' : Continues e₂ e₃) :
    Continues e₁ e₃ :=
  ⟨h'.id.trans h.id, h'.sequence.trans h.sequence, h'.trigger.trans h.trigger,
    h'.requestedEnd.trans h.requestedEnd, h.units.trans h'.units, Nat.le_trans h.reach h'.reach⟩

theorem Continues.close (event : EventJob) (postComplete : Bool) (error : String) :
    Continues event (event.close postComplete error) := by
  refine ⟨?_, ?_, by simp, ?_, by simp, by simp [EventJob.reach]⟩ <;> unfold EventJob.close <;>
    dsimp only <;> split <;> rfl

/-- A unit that is newer than the last one. -/
theorem Continues.append {event : EventJob} {unit : EncodedAccessUnit}
    (hnewer : ∀ back, event.units.getLast? = some back →
      back.sensorTimestampNs < unit.sensorTimestampNs) :
    Continues event { event with units := event.units ++ [unit] } := by
  refine ⟨rfl, rfl, rfl, rfl, List.prefix_append _ _, ?_⟩
  rw [EventJob.reach, EventJob.reach, EventJob.clipEnd_append]
  unfold EventJob.clipEnd
  cases hlast : event.units.getLast? with
  | none => exact Nat.max_le.mpr ⟨Nat.le_max_left _ _, Nat.le_max_left _ _⟩
  | some back =>
    have := hnewer back hlast
    simp only
    omega

namespace EventRecorder

variable {r r' : EventRecorder} {throws : AllocStep → Bool}

/-! ### What a call starts and finishes -/

/-- The event that a call of `trigger` puts into `active`. -/
def accepted (throws : AllocStep → Bool) (call : TriggerCall) (history : EncodedRingBuffer)
    (r : EventRecorder) : Option EventJob :=
  call.frame.bind fun frame =>
    if r.opens throws call frame then some (r.eventOf call frame history) else none

/-- The event that `finishLocked` hands to the gate, unless the note about it throws. -/
def finishes (throws : AllocStep → Bool) (postComplete : Bool) (error : String)
    (event : EventJob) : Option EventJob :=
  if !error.isEmpty && throws .recordError then none else some (event.close postComplete error)

/-- The event that `trigger` finishes at once. -/
def triggerCloses (throws : AllocStep → Bool) (call : TriggerCall) (history : EncodedRingBuffer)
    (r : EventRecorder) : Option EventJob :=
  call.frame.bind fun frame =>
    let event := r.eventOf call frame history
    if !r.opens throws call frame then none
    else if !(history.selectPreRoll frame.sensorTimestampNs r.config.eventPreNs).hasIndependentStart
        || event.units.isEmpty then
      if throws .recordNoPreRoll then none
      else
        let errors := event.errors ++ ["no independently decodable H.264 pre-roll was available"]
        finishes throws false "" { event with errors }
    else if event.postRollComplete then finishes throws true "" event
    else none

/-- The event that `observeEncoded` finishes. -/
def observeCloses (throws : AllocStep → Bool) (unit : Option EncodedAccessUnit)
    (r : EventRecorder) : Option EventJob :=
  unit.bind fun unit => r.active.bind fun event =>
    if !r.config.eventRecordingEnabled then none
    else if unit.generation ≠ event.generation then
      finishes throws false "encoder generation changed during post-roll" event
    else if event.units.getLast?.any fun back =>
        decide (unit.sensorTimestampNs ≤ back.sensorTimestampNs) then none
    else if throws .appendUnit then none
    else if unit.sensorTimestampNs ≥ event.requestedEndSensorTimestampNs then
      finishes throws true "" { event with units := event.units ++ [unit] }
    else none

/-- The event that `stop` finishes. -/
def stopCloses (throws : AllocStep → Bool) (r : EventRecorder) : Option EventJob :=
  r.active.bind (finishes throws false "shutdown interrupted event post-roll")

/-- What `finishLocked` has handed to the gate is in the queue, or dropped because that is full, or
an exception has left it where it was. -/
def Gone (job : EventJob) (r r' : EventRecorder) : Prop :=
  (r'.active = none ∧ (r'.jobs = r.jobs ++ [job] ∨
      kWorkerQueueCapacity ≤ r.jobs.length ∧ r'.jobs = r.jobs)) ∨
    r'.active = some job

/-- What a step does to the gate and to the active event, when it starts the first of the two events
and finishes the second. -/
inductive GateMove (r r' : EventRecorder) : Option EventJob → Option EventJob → Prop
  /-- Nothing, except that the active event may go on. -/
  | keeps (gate : r'.gate = r.gate)
      (active : ∀ event, r'.active = some event → ∃ before, r.active = some before ∧
        Continues before event) (gone : r'.active = none → r.active = none) :
      GateMove r r' none none
  /-- An exception leaves the gate closed behind a trigger without an event. -/
  | loses (isOpen : r.gate.collecting = false)
      (gate : r'.gate = { r.gate with collecting := true }) (active : r'.active = r.active) :
      GateMove r r' none none
  /-- A trigger passes, and its event is collected. -/
  | starts {event : EventJob} (isOpen : r.gate.collecting = false)
      (past : r.gate.cooldownUntilNs ≤ event.triggerSensorTimestampNs)
      (gate : r'.gate = { r.gate with collecting := true }) (active : r'.active = some event) :
      GateMove r r' (some event) none
  /-- The active event is finished; an exception may leave it where it is. -/
  | ends {event job : EventJob} (active : r.active = some event) (continues : Continues event job)
      (actualEnd : job.actualEndSensorTimestampNs = job.clipEnd)
      (gate : r'.gate = r.gate.complete job.actualEndSensorTimestampNs)
      (gone : Gone job r r') :
      GateMove r r' none (some job)
  /-- A trigger passes, and its event is finished at once. -/
  | both {event job : EventJob} (isOpen : r.gate.collecting = false)
      (past : r.gate.cooldownUntilNs ≤ event.triggerSensorTimestampNs)
      (continues : Continues event job)
      (actualEnd : job.actualEndSensorTimestampNs = job.clipEnd)
      (gate : r'.gate = r.gate.complete job.actualEndSensorTimestampNs)
      (gone : Gone job r r') :
      GateMove r r' (some event) (some job)

theorem GateMove.refl (hgate : r'.gate = r.gate) (hactive : r'.active = r.active) :
    GateMove r r' none none :=
  .keeps hgate (fun event hevent => ⟨event, hactive ▸ hevent, .refl event⟩)
    fun hgone => hactive ▸ hgone

theorem GateMove.cooldownNs {accepted closed : Option EventJob}
    (h : GateMove r r' accepted closed) : r'.gate.cooldownNs = r.gate.cooldownNs := by
  cases h with
  | keeps hgate => rw [hgate]
  | loses _ hgate => rw [hgate]
  | starts _ _ hgate => rw [hgate]
  | ends _ _ _ hgate => rw [hgate]; rfl
  | both _ _ _ _ hgate => rw [hgate]; rfl

/-- `finishLocked`: the event is kept, or handed to the gate with its end recorded. -/
theorem finishLocked_gate {event : EventJob} (hactive : r.active = some event)
    (postComplete : Bool) (error : String) :
    let finished := r.finishLocked throws postComplete error
    (finishes throws postComplete error event = none ∧ finished.1.gate = r.gate ∧
        ∃ left, finished.1.active = some left ∧ Continues event left) ∨
      ∃ job, finishes throws postComplete error event = some job ∧ Continues event job ∧
        job.actualEndSensorTimestampNs = job.clipEnd ∧
        finished.1.gate = r.gate.complete job.actualEndSensorTimestampNs ∧
        Gone job r finished.1 := by
  have hclose : Continues event (event.close postComplete error) ∧
      (event.close postComplete error).actualEndSensorTimestampNs =
        (event.close postComplete error).clipEnd :=
    ⟨.close event postComplete error, by rw [EventJob.actualEnd_close, EventJob.clipEnd_close]⟩
  unfold finishes
  rcases finishLocked_cases hactive throws postComplete error with
    ⟨hrecord, hf⟩ | ⟨hrecord, ⟨hfull, hf⟩ | ⟨-, -, hf⟩ | ⟨-, -, hf⟩⟩ <;> rw [hf, hrecord]
  · exact Or.inl ⟨rfl, rfl, _, rfl, ⟨rfl, rfl, rfl, rfl, List.prefix_refl _, Nat.le_refl _⟩⟩
  · exact Or.inr ⟨_, rfl, hclose.1, hclose.2, rfl, Or.inl ⟨rfl, Or.inr ⟨hfull, rfl⟩⟩⟩
  · exact Or.inr ⟨_, rfl, hclose.1, hclose.2, rfl, Or.inr rfl⟩
  · exact Or.inr ⟨_, rfl, hclose.1, hclose.2, rfl, Or.inl ⟨rfl, Or.inl rfl⟩⟩

/-- `finishLocked` on the active event, or on the one it has become. -/
theorem finishLocked_move {s : EventRecorder} {event current : EventJob}
    (hactive : r.active = some event) (hgate : s.gate = r.gate) (hjobs : s.jobs = r.jobs)
    (hcurrent : s.active = some current) (hgoes : Continues event current)
    (postComplete : Bool) (error : String) :
    GateMove r (s.finishLocked throws postComplete error).1 none
      (finishes throws postComplete error current) := by
  rcases finishLocked_gate hcurrent postComplete error with
    ⟨hnone, hsame, left, hleft, hcontinues⟩ | ⟨job, hjob, hcontinues, hend, hcomplete, hgone⟩
  · rw [hnone]
    refine .keeps (hsame.trans hgate) (fun later hlater => ?_) fun hgone => ?_
    · rw [hleft] at hlater
      cases hlater
      exact ⟨event, hactive, hgoes.trans hcontinues⟩
    · rw [hleft] at hgone
      cases hgone
  · rw [hjob]
    unfold Gone at hgone
    rw [hjobs] at hgone
    exact .ends hactive (hgoes.trans hcontinues) hend (by rw [hcomplete, hgate]) hgone

/-- `trigger` finishes its event at once. -/
theorem finishLocked_both {s : EventRecorder} {event current : EventJob}
    (hopen : r.gate.collecting = false)
    (hpast : r.gate.cooldownUntilNs ≤ event.triggerSensorTimestampNs)
    (hgate : s.gate = { r.gate with collecting := true }) (hjobs : s.jobs = r.jobs)
    (hcurrent : s.active = some current) (hgoes : Continues event current) (postComplete : Bool) :
    GateMove r (s.finishLocked throws postComplete "").1 (some event)
      (finishes throws postComplete "" current) := by
  rcases finishLocked_gate hcurrent postComplete "" with
    ⟨hnone, -⟩ | ⟨job, hjob, hcontinues, hend, hcomplete, hgone⟩
  · simp [finishes] at hnone
  · rw [hjob]
    unfold Gone at hgone
    rw [hjobs] at hgone
    refine .both hopen hpast (hgoes.trans hcontinues) hend ?_ hgone
    rw [hcomplete, hgate]
    rfl

/-- A call that does not get past the gate starts no event. -/
theorem refused_events (throws : AllocStep → Bool) (call : TriggerCall)
    (history : EncodedRingBuffer) (r : EventRecorder)
    (hno : ∀ frame ∈ call.frame, r.admits call frame = false) :
    r.accepted throws call history = none ∧ r.triggerCloses throws call history = none := by
  unfold accepted triggerCloses
  cases hframe : call.frame with
  | none => exact ⟨rfl, rfl⟩
  | some frame => simp [opens, hno frame hframe]

/-- `trigger` moves the event it accepts, and no other. -/
theorem trigger_move (call : TriggerCall) (history : EncodedRingBuffer) :
    GateMove r (r.trigger throws call history).1 (r.accepted throws call history)
      (r.triggerCloses throws call history) := by
  rcases trigger_cases throws call history r with
    ⟨hno, hc⟩ | ⟨-, hno, latest, rejections, ⟨hc, -⟩ | hc⟩ |
      ⟨frame, hframe, hadmits, ⟨failed, hlocal, hc⟩ | ⟨hlocal, hc⟩⟩
  · obtain ⟨haccepted, hcloses⟩ :=
      refused_events throws call history r fun frame _ => by simp [admits, hno]
    rw [hc, haccepted, hcloses]
    exact .refl rfl rfl
  · obtain ⟨haccepted, hcloses⟩ := refused_events throws call history r hno
    rw [hc, haccepted, hcloses]
    exact .refl rfl rfl
  · obtain ⟨haccepted, hcloses⟩ := refused_events throws call history r hno
    rw [hc, haccepted, hcloses]
    exact .refl rfl rfl
  all_goals
    have hadmitted := hadmits
    simp only [admits, Bool.and_eq_true, Bool.not_eq_true', decide_eq_true_eq] at hadmitted
    obtain ⟨⟨-, hopen⟩, hpast⟩ := hadmitted
  · have hany : call.localSteps.any throws = true :=
      List.any_eq_true.mpr ⟨failed, List.mem_of_find?_eq_some hlocal, List.find?_some hlocal⟩
    have hopens : r.opens throws call frame = false := by simp [opens, hany]
    rw [hc]
    simp only [accepted, triggerCloses, hframe, Option.bind_some, hopens, Bool.false_eq_true,
      if_false, Bool.not_false, if_true]
    exact .loses hopen rfl rfl
  · have hany : call.localSteps.any throws = false := by
      rw [List.find?_eq_none] at hlocal
      simpa using hlocal
    have hopens : r.opens throws call frame = true := by simp [opens, hadmits, hany]
    rw [hc]
    simp only [accepted, triggerCloses, hframe, Option.bind_some, hopens, Bool.not_true,
      Bool.false_eq_true, if_false, if_true]
    have hpast' : r.gate.cooldownUntilNs ≤
        (r.eventOf call frame history).triggerSensorTimestampNs := hpast
    rcases startCollecting_cases throws
        (history.selectPreRoll frame.sensorTimestampNs r.config.eventPreNs).hasIndependentStart
        (r.eventOf call frame history) (r.begun frame) with
      ⟨hstart, hthrow, hs⟩ | ⟨hstart, hthrow, hs⟩ | ⟨hstart, hpost, hs⟩ | ⟨hstart, hpost, hs⟩
    · rw [hs, if_pos hstart, if_pos hthrow]
      exact .starts hopen hpast' rfl rfl
    · rw [hs, if_pos hstart, if_neg (by simp [hthrow])]
      refine finishLocked_both hopen hpast' ?_ ?_ ?_ ?_ false
      · rfl
      · rfl
      · rfl
      · exact ⟨rfl, rfl, rfl, rfl, List.prefix_refl _, Nat.le_refl _⟩
    · rw [hs, if_neg (by simp [hstart]), if_pos hpost]
      exact finishLocked_both hopen hpast' (by rfl) (by rfl) (by rfl) (.refl _) true
    · rw [hs, if_neg (by simp [hstart]), if_neg (by simp [hpost])]
      exact .starts hopen hpast' rfl rfl

/-- A call of `trigger` that returns has started an event iff it returns `true`. -/
theorem accepted_iff_ok {call : TriggerCall} {history : EncodedRingBuffer} {result : Bool}
    (hok : (r.trigger throws call history).2 = .ok result) :
    (r.accepted throws call history).isSome = result := by
  rcases trigger_cases throws call history r with
    ⟨hno, hc⟩ | ⟨-, hno, latest, rejections, ⟨hc, -⟩ | hc⟩ |
      ⟨frame, hframe, hadmits, ⟨failed, hlocal, hc⟩ | ⟨hlocal, hc⟩⟩
  · rw [hc] at hok
    cases hok
    rw [(refused_events throws call history r fun frame _ => by simp [admits, hno]).1]
    rfl
  · rw [hc] at hok
    cases hok
  · rw [hc] at hok
    cases hok
    rw [(refused_events throws call history r hno).1]
    rfl
  · rw [hc] at hok
    cases hok
  · have hany : call.localSteps.any throws = false := by
      rw [List.find?_eq_none] at hlocal
      simpa using hlocal
    rw [hc] at hok
    have hresult : result = true := by
      cases hstarted : ((r.begun frame).startCollecting throws
          (history.selectPreRoll frame.sensorTimestampNs r.config.eventPreNs).hasIndependentStart
          (r.eventOf call frame history)).2 with
      | error failed =>
        rw [hstarted] at hok
        cases hok
      | ok _ =>
        rw [hstarted] at hok
        cases hok
        rfl
    rw [hresult]
    simp [accepted, hframe, opens, hadmits, hany]

/-- `observeEncoded` moves the active event. -/
theorem observeEncoded_move (unit : Option EncodedAccessUnit) :
    GateMove r (r.observeEncoded throws unit).1 none (r.observeCloses throws unit) := by
  by_cases hidle : r.config.eventRecordingEnabled = false ∨ r.active = none
  · obtain ⟨latest, hc⟩ := observeEncoded_idle hidle throws unit
    have hnone : r.observeCloses throws unit = none := by
      unfold observeCloses
      cases unit with
      | none => rfl
      | some unit =>
        rcases hidle with hoff | hidle
        · cases r.active <;> simp [hoff]
        · simp [hidle]
    rw [hc, hnone]
    exact .refl rfl rfl
  cases unit with
  | none => exact .refl rfl rfl
  | some unit =>
    obtain ⟨henabled, event, hactive⟩ : r.config.eventRecordingEnabled = true ∧
        ∃ event, r.active = some event := by
      simpa [Option.ne_none_iff_exists'] using hidle
    simp only [observeCloses, Option.bind_some, hactive, henabled, Bool.not_true,
      Bool.false_eq_true, if_false]
    rcases observeEncoded_cases henabled hactive throws unit with
      ⟨hgen, hc⟩ | ⟨hgen, ⟨back, hback, hle⟩, hc⟩ |
        ⟨hgen, hnewer, ⟨hthrow, hc⟩ | ⟨hthrow, hend, hc⟩ | ⟨hthrow, hend, hc⟩⟩
    · rw [hc, if_pos hgen]
      exact finishLocked_move hactive (by rfl) (by rfl) (by exact hactive) (.refl event) _ _
    · rw [hc, if_neg (by simp [hgen]), if_pos (by simp [hback, hle])]
      exact .refl rfl rfl
    all_goals
      have hnew : ¬ event.units.getLast?.any (fun back =>
          decide (unit.sensorTimestampNs ≤ back.sensorTimestampNs)) = true := by
        intro hold
        obtain ⟨back, hback, hle⟩ := (Option.any_eq_true _ _).mp hold
        exact absurd (hnewer back hback) (Nat.not_lt.mpr (of_decide_eq_true hle))
      rw [hc, if_neg (by simp [hgen]), if_neg hnew]
    · rw [if_pos hthrow]
      exact .refl rfl rfl
    · rw [if_neg (by simp [hthrow]), if_pos hend]
      exact finishLocked_move hactive (by rfl) (by rfl) (by rfl) (.append hnewer) _ _
    · rw [if_neg (by simp [hthrow]), if_neg (Nat.not_le.mpr hend)]
      refine .keeps rfl (fun later hlater => ?_) (by rintro ⟨⟩)
      cases hlater
      exact ⟨event, hactive, .append hnewer⟩

/-- `stop` finishes the active event. -/
theorem stop_move : GateMove r (r.stop throws).1 none (r.stopCloses throws) := by
  obtain ⟨running, hstop, -⟩ := stop_cases throws r
  have hmove : GateMove r (r.interrupt throws).1 none (r.stopCloses throws) := by
    unfold interrupt stopCloses
    dsimp only
    cases hactive : r.active with
    | none => exact .refl rfl hactive.symm
    | some event =>
      rw [if_pos (by rfl)]
      exact finishLocked_move hactive (by rfl) (by rfl) (by rfl) (.refl event) _ _
  rw [hstop]
  generalize r.stopCloses throws = closed at hmove
  cases hmove with
  | keeps hgate hactive hgone => exact .keeps hgate hactive hgone
  | loses hopen hgate hactive => exact .loses hopen hgate hactive
  | ends hactive hcontinues hend hgate hgone => exact .ends hactive hcontinues hend hgate hgone

end EventRecorder

namespace RecorderThreads

variable {config : EventConfig} {t t' : RecorderThreads} {a : RecorderAction}

/-- The event that a step starts. -/
def accepts (t : RecorderThreads) : RecorderAction → Option EventJob
  | .trigger throws call history => t.recorder.accepted throws call history
  | .setup _ | .start _ | .observe _ _ | .stop _ | .joined | .takeJob | .exit | .write _ => none

/-- The event that a step finishes, with its end recorded. -/
def closes (t : RecorderThreads) : RecorderAction → Option EventJob
  | .trigger throws call history => t.recorder.triggerCloses throws call history
  | .observe throws unit => t.recorder.observeCloses throws unit
  | .stop throws => t.recorder.stopCloses throws
  | .setup _ | .start _ | .joined | .takeJob | .exit | .write _ => none

/-- **What a step does to the gate and to the active event.** -/
theorem step_move (hs : t.step a = some t') :
    EventRecorder.GateMove t.recorder t'.recorder (t.accepts a) (t.closes a) := by
  cases a with
  | trigger throws call history =>
    cases hs
    exact EventRecorder.trigger_move call history
  | observe throws unit =>
    cases hs
    exact EventRecorder.observeEncoded_move unit
  | stop throws =>
    have hrecorder : t'.recorder = (t.recorder.stop throws).1 := by
      simp only [step] at hs
      split at hs
      · cases hs
      · rcases hstop : t.recorder.stop throws with ⟨recorder, failed | joins⟩
        · rw [hstop] at hs
          cases hs
          rfl
        · rw [hstop] at hs
          cases joins <;> cases hs <;> rfl
    rw [hrecorder]
    exact EventRecorder.stop_move
  | setup usable =>
    simp only [step] at hs
    split at hs
    · cases hs
    · cases hs
      unfold EventRecorder.initializeWith
      split <;> exact .refl rfl rfl
  | start spawned =>
    simp only [step] at hs
    split at hs
    · cases hs
    · cases hs
      rcases EventRecorder.start_cases spawned t.recorder with ⟨_, -, hstart⟩ | ⟨-, hstart⟩ <;>
        (simp only [hstart]; exact .refl rfl rfl)
  | joined =>
    simp only [step] at hs
    split at hs
    · cases hs
      exact .refl rfl rfl
    · cases hs
  | takeJob =>
    simp only [step] at hs
    split at hs
    next job recorder hworker htake =>
      cases hs
      unfold EventRecorder.takeJob at htake
      split at htake
      · cases htake
      · cases htake
        exact .refl rfl rfl
    · cases hs
  | exit =>
    simp only [step] at hs
    split at hs
    · cases hs
      exact .refl rfl rfl
    · cases hs
  | write outcome =>
    simp only [step] at hs
    split at hs
    · cases hs
      exact .refl rfl rfl
    · cases hs

/-! ### The steps of a run -/

/-- The events that a stretch of a run starts, in order. -/
def acceptances (steps : List (RecorderThreads × RecorderAction)) : List EventJob :=
  steps.filterMap fun x => x.1.accepts x.2

/-- The events that a stretch of a run finishes, in order. -/
def finishings (steps : List (RecorderThreads × RecorderAction)) : List EventJob :=
  steps.filterMap fun x => x.1.closes x.2

theorem acceptances_snoc (steps : List (RecorderThreads × RecorderAction)) (t : RecorderThreads)
    (a : RecorderAction) :
    acceptances (steps ++ [(t, a)]) = acceptances steps ++ (t.accepts a).toList := by
  unfold acceptances
  rw [List.filterMap_append]
  cases haccepts : t.accepts a <;> simp [haccepts]

theorem finishings_snoc (steps : List (RecorderThreads × RecorderAction)) (t : RecorderThreads)
    (a : RecorderAction) :
    finishings (steps ++ [(t, a)]) = finishings steps ++ (t.closes a).toList := by
  unfold finishings
  rw [List.filterMap_append]
  cases hcloses : t.closes a <;> simp [hcloses]

theorem cooldownNs_of_run {history : List (RecorderThreads × RecorderAction)}
    (h : Run step (initial config) history t) :
    t.recorder.gate.cooldownNs = config.eventCooldownNs := by
  refine h.reachable.invariant (fun t => t.recorder.gate.cooldownNs = config.eventCooldownNs) rfl
    fun t a t' ih hs => ?_
  rw [(step_move hs).cooldownNs, ih]

/-! ### Runs without exceptions -/

/-- A run that no exception leaves is a run. -/
theorem run_of_calm {history : List (RecorderThreads × RecorderAction)}
    (h : Run calmStep (initial config) history t) : Run step (initial config) history t := by
  induction h with
  | nil => exact .nil
  | snoc _ hs ih => exact ih.snoc (step_of_calmStep hs).2

/-- Without exceptions an event that is finished is gone, and no trigger leaves the gate closed
without an event. -/
theorem calmStep_move {a : RecorderAction} (h : Conserved t) (hs : t.calmStep a = some t') :
    (t.accepts a = none ∧ t.closes a = none ∧ t'.recorder.gate = t.recorder.gate ∧
        ((t.recorder.active = none ∧ t'.recorder.active = none) ∨
          ∃ event later, t.recorder.active = some event ∧ t'.recorder.active = some later ∧
            Continues event later)) ∨
    (∃ event, t.accepts a = some event ∧ t.closes a = none ∧ t.recorder.active = none ∧
        t'.recorder.active = some event) ∨
    ∃ event job, t.closes a = some job ∧ Continues event job ∧
      job.actualEndSensorTimestampNs = job.clipEnd ∧ t'.recorder.active = none ∧
      t'.recorder.gate = t.recorder.gate.complete job.actualEndSensorTimestampNs ∧
      ((t.accepts a = none ∧ t.recorder.active = some event) ∨
        (t.accepts a = some event ∧ t.recorder.active = none)) := by
  have hbefore := h.sound.gate
  have hafter := (h.calmStep hs).sound.gate
  have hmove := step_move (step_of_calmStep hs).2
  have hidle : t.recorder.gate.collecting = false → t.recorder.active = none := fun hopen => by
    rw [hopen] at hbefore
    exact Option.isNone_iff_eq_none.mp (by simpa using hbefore.symm)
  have hgone : ∀ {job : EventJob}, t'.recorder.gate =
      t.recorder.gate.complete job.actualEndSensorTimestampNs → t'.recorder.active = none := by
    intro job hgate
    rw [hgate] at hafter
    exact Option.isNone_iff_eq_none.mp (by simpa [EventGate.complete] using hafter)
  generalize haccepts : t.accepts a = accepted at hmove
  generalize hcloses : t.closes a = closed at hmove
  cases hmove with
  | keeps hgate hactive hkept =>
    refine Or.inl ⟨rfl, rfl, hgate, ?_⟩
    cases hlater : t'.recorder.active with
    | none => exact Or.inl ⟨hkept hlater, rfl⟩
    | some later =>
      obtain ⟨event, hevent, hcontinues⟩ := hactive later hlater
      exact Or.inr ⟨event, later, hevent, rfl, hcontinues⟩
  | loses hopen hgate hactive =>
    rw [hgate, hactive, hidle hopen] at hafter
    cases hafter
  | starts hopen hpast hgate hactive =>
    exact Or.inr (Or.inl ⟨_, rfl, rfl, hidle hopen, hactive⟩)
  | ends hactive hcontinues hend hgate =>
    exact Or.inr (Or.inr ⟨_, _, rfl, hcontinues, hend, hgone hgate, hgate, Or.inl ⟨rfl, hactive⟩⟩)
  | both hopen hpast hcontinues hend hgate =>
    exact Or.inr (Or.inr ⟨_, _, rfl, hcontinues, hend, hgone hgate, hgate,
      Or.inr ⟨rfl, hidle hopen⟩⟩)

/-- The events of a run are finished, but for the active one. -/
theorem finishings_of_run {history : List (RecorderThreads × RecorderAction)}
    (h : Run calmStep (initial config) history t) :
    (acceptances history).length =
      (finishings history).length + (if t.recorder.active.isSome then 1 else 0) := by
  induction h with
  | nil => rfl
  | snoc hrun hs ih =>
    rw [acceptances_snoc, finishings_snoc, List.length_append, List.length_append, ih]
    rcases calmStep_move (conserved_of_reachable hrun.reachable) hs with
      ⟨ha, hc, -, ⟨hidle, hidle'⟩ | ⟨event, later, hactive, hactive', -⟩⟩ |
        ⟨event, ha, hc, hidle, hactive⟩ |
        ⟨event, job, hc, -, -, hgone, -, ⟨ha, hactive⟩ | ⟨ha, hidle⟩⟩ <;> simp [*]

/-- What has become of the event that was started last: it is collected, or it has been finished
once, and the gate counts the cooldown from its end. -/
def Settled (cooldownNs : ℕ) (event : EventJob)
    (steps : List (RecorderThreads × RecorderAction)) (t : RecorderThreads) : Prop :=
  (finishings steps = [] ∧ ∃ current, t.recorder.active = some current ∧ Continues event current) ∨
    ∃ job, finishings steps = [job] ∧ Continues event job ∧
      job.actualEndSensorTimestampNs = job.clipEnd ∧ t.recorder.active = none ∧
      t.recorder.gate.cooldownUntilNs = saturatingAdd job.actualEndSensorTimestampNs cooldownNs

theorem settled_of_run {history between : List (RecorderThreads × RecorderAction)}
    {x : RecorderThreads × RecorderAction} {event : EventJob}
    (h : Run calmStep (initial config) history t)
    (hsince : Since (fun x => (x.1.accepts x.2).isSome = true) history x between)
    (hevent : x.1.accepts x.2 = some event) :
    Settled config.eventCooldownNs event (x :: between) t := by
  induction h generalizing x between event with
  | nil =>
    obtain ⟨before, hsplit⟩ := hsince.split
    cases before <;> cases hsplit
  | @snoc history t t' a hrun hs ih =>
    have hcooldown := cooldownNs_of_run (run_of_calm hrun)
    have hmove := calmStep_move (conserved_of_reachable hrun.reachable) hs
    rcases hsince.of_snoc with ⟨rfl, rfl⟩ | ⟨rest, rfl, hold, hnot⟩
    · -- the event is started in this step
      rcases hmove with ⟨ha, -⟩ | ⟨event', ha, hc, -, hactive⟩ |
        ⟨event', job, hc, hcontinues, hend, hgone, hgate, ⟨ha, -⟩ | ⟨ha, -⟩⟩
      · simp only [ha] at hevent
        cases hevent
      · simp only [ha] at hevent
        cases hevent
        exact Or.inl ⟨by simp [finishings, hc], _, hactive, .refl _⟩
      · simp only [ha] at hevent
        cases hevent
      · simp only [ha] at hevent
        cases hevent
        exact Or.inr ⟨job, by simp [finishings, hc], hcontinues, hend, hgone, by
          rw [hgate, ← hcooldown]; rfl⟩
    · have hnone : t.accepts a = none := by simpa using hnot
      have hfinishings := finishings_snoc (x :: rest) t a
      rw [List.cons_append] at hfinishings
      unfold Settled
      rw [hfinishings]
      rcases ih hold hevent with ⟨hopen, current, hcurrent, hgoes⟩ |
        ⟨job, hdone, hcontinues, hend, hidle, huntil⟩
      · rcases hmove with ⟨-, hc, -, ⟨hidle, -⟩ | ⟨event', later, hactive, hlater, hon⟩⟩ |
          ⟨event', ha, -⟩ | ⟨event', job, hc, hon, hend, hgone, hgate, ⟨-, hactive⟩ | ⟨ha, -⟩⟩
        · rw [hcurrent] at hidle
          cases hidle
        · rw [hcurrent] at hactive
          cases hactive
          exact Or.inl ⟨by simp [hopen, hc], later, hlater, hgoes.trans hon⟩
        · rw [hnone] at ha
          cases ha
        · rw [hcurrent] at hactive
          cases hactive
          exact Or.inr ⟨job, by simp [hopen, hc], hgoes.trans hon, hend, hgone, by
            rw [hgate, ← hcooldown]; rfl⟩
        · rw [hnone] at ha
          cases ha
      · rcases hmove with ⟨-, hc, hgate, ⟨-, hidle'⟩ | ⟨event', later, hactive, -⟩⟩ |
          ⟨event', ha, -⟩ | ⟨event', job', -, -, -, -, -, ⟨-, hactive⟩ | ⟨ha, -⟩⟩
        · exact Or.inr ⟨job, by simp [hdone, hc], hcontinues, hend, hidle', by rw [hgate, huntil]⟩
        · rw [hidle] at hactive
          cases hactive
        · rw [hnone] at ha
          cases ha
        · rw [hidle] at hactive
          cases hactive
        · rw [hnone] at ha
          cases ha

/-- A trigger that starts an event comes after the cooldown. -/
theorem past_of_accepts {a : RecorderAction} {event : EventJob} (hs : t.step a = some t')
    (hevent : t.accepts a = some event) :
    t.recorder.gate.cooldownUntilNs ≤ event.triggerSensorTimestampNs := by
  have hmove := step_move hs
  rw [hevent] at hmove
  generalize t.closes a = closed at hmove
  cases hmove with
  | starts hopen hpast => exact hpast
  | both hopen hpast => exact hpast

/-- **A trigger is accepted only after the cooldown of the event before it.** In a run that no
exception leaves, the gate agrees with the active event in every state, and every event that was
started is finished or the active one. Between two triggers that are accepted one after the other,
exactly one event is finished, which is the event of the first; the second trigger comes no earlier
than the end recorded in it plus the cooldown. -/
theorem spacing {history : List (RecorderThreads × RecorderAction)}
    (h : Run calmStep (initial config) history t) :
    (∀ x ∈ history, x.1.recorder.GateAgrees) ∧ t.recorder.GateAgrees ∧
      (acceptances history).length =
        (finishings history).length + (if t.recorder.active.isSome then 1 else 0) ∧
      ∀ x between event, Since (fun x => (x.1.accepts x.2).isSome = true) history x between →
        x.1.accepts x.2 = some event →
        ∀ a t' event', t.calmStep a = some t' → t.accepts a = some event' →
          ∃ job, finishings (x :: between) = [job] ∧ Continues event job ∧
            job.actualEndSensorTimestampNs = job.clipEnd ∧
            min u64Max (job.actualEndSensorTimestampNs + config.eventCooldownNs) ≤
              event'.triggerSensorTimestampNs := by
  refine ⟨fun x hx => (conserved_of_reachable (h.reachable_of_mem x hx)).sound.gate,
    (conserved_of_reachable h.reachable).sound.gate, finishings_of_run h,
    fun x between event hsince hevent a t' event' hs hevent' => ?_⟩
  have hpast := past_of_accepts (step_of_calmStep hs).2 hevent'
  rcases settled_of_run h hsince hevent with ⟨-, current, hcurrent, -⟩ |
    ⟨job, hdone, hcontinues, hend, -, huntil⟩
  · -- while an event is collected no trigger is accepted
    rcases calmStep_move (conserved_of_reachable h.reachable) hs with
      ⟨ha, -⟩ | ⟨_, -, -, hidle, -⟩ | ⟨_, _, -, -, -, -, -, ⟨ha, -⟩ | ⟨-, hidle⟩⟩
    · rw [hevent'] at ha
      cases ha
    · rw [hcurrent] at hidle
      cases hidle
    · rw [hevent'] at ha
      cases ha
    · rw [hcurrent] at hidle
      cases hidle
  · refine ⟨job, hdone, hcontinues, hend, Nat.le_trans ?_ hpast⟩
    rw [huntil]
    exact min_le_saturatingAdd ..

/-- A detection at 10 begins a clip. -/
def firstTrigger : RecorderAction := .trigger (fun _ => false) (detectionAt 10) (keyframeAt 10)

/-- The clip goes on to 21. -/
def clipTo21 : List RecorderAction :=
  [.observe (fun _ => false) (some (.ofTest 12 1 false 1)),
    .observe (fun _ => false) (some (.ofTest 21 1 false 1))]

/-- A detection at 24, when the cooldown is over. -/
def secondTrigger : RecorderAction := .trigger (fun _ => false) (detectionAt 24) (keyframeAt 24)

/-- The recorder after the clip. -/
def afterClip : RecorderThreads := (exec calmStep started (firstTrigger :: clipTo21)).getD started

/-- What happens from the first trigger to the second. -/
def betweenTriggers : List (RecorderThreads × RecorderAction) :=
  trace calmStep ((started.calmStep firstTrigger).getD started) clipTo21

/-- A clip from 10 to 21; the next trigger is accepted when the cooldown is over. -/
theorem spacing_twoEvents :
    ∃ history t x between event a t' event' job,
      Run calmStep (initial ⟨true, 5, 10, 3⟩) history t ∧
      Since (fun x => (x.1.accepts x.2).isSome = true) history x between ∧
      x.1.accepts x.2 = some event ∧ t.calmStep a = some t' ∧ t.accepts a = some event' ∧
      finishings (x :: between) = [job] ∧ Continues event job ∧
      min u64Max (job.actualEndSensorTimestampNs + 3) ≤ event'.triggerSensorTimestampNs ∧
      job.actualEndSensorTimestampNs = 21 ∧ event'.triggerSensorTimestampNs = 24 := by
  have hexec : exec calmStep (initial ⟨true, 5, 10, 3⟩)
      (.setup true :: .start true :: firstTrigger :: clipTo21) = some afterClip := rfl
  have hrun : Run calmStep (initial ⟨true, 5, 10, 3⟩) _ afterClip := Run.ofExec _ hexec
  have hsince : Since (fun x => (x.1.accepts x.2).isSome = true) _ (started, firstTrigger)
      betweenTriggers :=
    ⟨⟨trace calmStep (initial ⟨true, 5, 10, 3⟩) [.setup true, .start true], rfl⟩,
      by decide, by decide⟩
  have hends : (finishings ((started, firstTrigger) :: betweenTriggers)).map
      (·.actualEndSensorTimestampNs) = [21] := by decide
  have hlater : (afterClip.accepts secondTrigger).map (·.triggerSensorTimestampNs) = some 24 := by
    decide
  obtain ⟨event, hevent⟩ := Option.isSome_iff_exists.mp hsince.holds
  obtain ⟨event', hevent', hlater⟩ := Option.map_eq_some_iff.mp hlater
  obtain ⟨t', hs⟩ : ∃ t', afterClip.calmStep secondTrigger = some t' :=
    Option.isSome_iff_exists.mp (by decide)
  obtain ⟨job, hdone, hcontinues, -, hpast⟩ :=
    (spacing hrun).2.2.2 _ _ event hsince hevent secondTrigger t' event' hs hevent'
  rw [hdone] at hends
  exact ⟨_, afterClip, _, betweenTriggers, event, secondTrigger, t', event', job, hrun, hsince,
    hevent, hs, hevent', hdone, hcontinues, hpast, by simpa using hends, hlater⟩

/-! ### Events that end before their trigger -/

/-- The step finishes the active event with a clip that has not come to the trigger yet: the encoder
has begun a new generation, or the recorder stops. -/
def cutsShort (t : RecorderThreads) : RecorderAction → Bool
  | .observe throws unit =>
    t.recorder.config.eventRecordingEnabled && !throws .recordError &&
      unit.any fun unit => t.recorder.active.any fun event =>
        decide (unit.generation ≠ event.generation) &&
          decide (event.clipEnd < event.triggerSensorTimestampNs)
  | .stop throws =>
    !throws .recordError &&
      t.recorder.active.any fun event => decide (event.clipEnd < event.triggerSensorTimestampNs)
  | .setup _ | .start _ | .trigger _ _ _ | .joined | .takeJob | .exit | .write _ => false

/-- The time of the frame that a step triggers on. -/
def arrival : RecorderAction → Option ℕ
  | .trigger _ call _ => call.frame.map (·.sensorTimestampNs)
  | .setup _ | .start _ | .observe _ _ | .stop _ | .joined | .takeJob | .exit | .write _ => none

theorem finishes_covered {throws : AllocStep → Bool} {postComplete : Bool} {error : String}
    {event job : EventJob}
    (hfinishes : EventRecorder.finishes throws postComplete error event = some job)
    (hevent : event.triggerSensorTimestampNs ≤ event.clipEnd) :
    job.triggerSensorTimestampNs ≤ job.clipEnd := by
  unfold EventRecorder.finishes at hfinishes
  split at hfinishes
  · cases hfinishes
  · cases hfinishes
    rw [EventJob.close_trigger, EventJob.clipEnd_close]
    exact hevent

/-- When the copied units reach the requested end, the last of them does. -/
theorem copyUnits_last {requestedEnd : ℕ} {units : List EncodedAccessUnit}
    (h : (copyUnits requestedEnd units).2 = true) :
    ∃ back, (copyUnits requestedEnd units).1.getLast? = some back ∧
      requestedEnd ≤ back.sensorTimestampNs := by
  induction units with
  | nil => cases h
  | cons unit rest ih =>
    rw [copyUnits] at h ⊢
    split
    next hend => exact ⟨unit, rfl, hend⟩
    next hend =>
      rw [if_neg hend] at h
      obtain ⟨back, hback, hle⟩ := ih h
      exact ⟨back, by simp [List.getLast?_cons, hback], hle⟩

theorem le_saturatingAdd {left right : ℕ} (h : left ≤ u64Max) : left ≤ saturatingAdd left right :=
  Nat.le_trans (by omega) (min_le_saturatingAdd left right)

theorem le_saturatingAdd_reach {event : EventJob} {right : ℕ}
    (h : event.triggerSensorTimestampNs ≤ u64Max) :
    event.triggerSensorTimestampNs ≤ saturatingAdd event.reach right :=
  Nat.le_trans (le_saturatingAdd h) (saturatingAdd_mono _ (Nat.le_max_left _ _))

/-- An event that `trigger` finishes at once has no units, or reaches its requested end. -/
theorem triggerCloses_covered {throws : AllocStep → Bool} {call : TriggerCall}
    {history : EncodedRingBuffer} {r : EventRecorder} {job : EventJob}
    (hclose : r.triggerCloses throws call history = some job)
    (hrange : ∀ event, r.accepted throws call history = some event →
      event.triggerSensorTimestampNs ≤ u64Max) :
    job.triggerSensorTimestampNs ≤ job.clipEnd := by
  obtain ⟨frame, hframe, hclose⟩ := Option.bind_eq_some_iff.mp hclose
  dsimp only at hclose
  split at hclose
  · cases hclose
  next hopens =>
    have hopens : r.opens throws call frame = true := by simpa using hopens
    have hrange : frame.sensorTimestampNs ≤ u64Max :=
      hrange (r.eventOf call frame history) (by simp [EventRecorder.accepted, hframe, hopens])
    split at hclose
    next hempty =>
      split at hclose
      · cases hclose
      · -- without units the clip ends at the trigger
        refine finishes_covered hclose (Nat.le_of_eq ?_)
        have hunits : (r.eventOf call frame history).units = [] := by
          rcases Bool.or_eq_true_iff.mp hempty with hstart | hunits
          · have hnone := EncodedRingBuffer.selectPreRoll_noStart (by simpa using hstart)
            simp [EventRecorder.eventOf, TriggerCall.event, hnone, copyUnits]
          · exact List.isEmpty_iff.mp hunits
        simp [EventJob.clipEnd, hunits]
    · split at hclose
      next hpost =>
        refine finishes_covered hclose ?_
        obtain ⟨back, hback, hle⟩ := copyUnits_last hpost
        have hunits : (r.eventOf call frame history).units.getLast? = some back := hback
        rw [EventJob.clipEnd, hunits]
        exact Nat.le_trans (le_saturatingAdd hrange) hle
      · cases hclose

/-- Every other event ends no earlier than it was triggered. -/
theorem clipEnd_of_closes {job : EventJob} (hclose : t.closes a = some job)
    (hcut : t.cutsShort a = false)
    (hactive : ∀ event, t.recorder.active = some event →
      event.triggerSensorTimestampNs ≤ event.requestedEndSensorTimestampNs)
    (hrange : ∀ event, t.accepts a = some event → event.triggerSensorTimestampNs ≤ u64Max) :
    job.triggerSensorTimestampNs ≤ job.clipEnd := by
  cases a with
  | trigger throws call history => exact triggerCloses_covered hclose hrange
  | observe throws unit =>
    obtain ⟨unit, rfl, hclose⟩ := Option.bind_eq_some_iff.mp hclose
    obtain ⟨event, hevent, hclose⟩ := Option.bind_eq_some_iff.mp hclose
    split at hclose
    · cases hclose
    next henabled =>
      have henabled : t.recorder.config.eventRecordingEnabled = true := by simpa using henabled
      split at hclose
      next hgen =>
        refine finishes_covered hclose ?_
        have hrecord : throws .recordError = false := by
          cases hthrow : throws .recordError with
          | false => rfl
          | true => simp [EventRecorder.finishes, hthrow] at hclose
        simpa [cutsShort, henabled, hrecord, hevent, hgen] using hcut
      · split at hclose
        · cases hclose
        · split at hclose
          · cases hclose
          · split at hclose
            next hend =>
              refine finishes_covered hclose ?_
              rw [EventJob.clipEnd_append]
              exact Nat.le_trans (hactive event hevent) hend
            · cases hclose
  | stop throws =>
    obtain ⟨event, hevent, hclose⟩ := Option.bind_eq_some_iff.mp hclose
    refine finishes_covered hclose ?_
    have hrecord : throws .recordError = false := by
      cases hthrow : throws .recordError with
      | false => rfl
      | true => simp [EventRecorder.finishes, hthrow] at hclose
    simpa [cutsShort, hrecord, hevent] using hcut
  | setup _ | start _ | joined | takeJob | exit | write _ => cases hclose

/-- The cooldown of every event covers its trigger, or the event is still collected. -/
structure Covered (cooldownNs : ℕ) (events : List EventJob) (t : RecorderThreads) : Prop where
  cooldown : t.recorder.gate.cooldownNs = cooldownNs
  past : ∀ event ∈ events,
    event.triggerSensorTimestampNs + cooldownNs ≤ t.recorder.gate.cooldownUntilNs ∨
      (t.recorder.gate.collecting = true ∧ ∃ current, t.recorder.active = some current ∧
        event.triggerSensorTimestampNs ≤ current.triggerSensorTimestampNs)
  until_le : ∀ current, t.recorder.active = some current →
    t.recorder.gate.cooldownUntilNs ≤ saturatingAdd current.reach cooldownNs
  range : ∀ current, t.recorder.active = some current →
    current.triggerSensorTimestampNs + cooldownNs ≤ u64Max
  requestedEnd : ∀ current, t.recorder.active = some current →
    current.triggerSensorTimestampNs ≤ current.requestedEndSensorTimestampNs

theorem covered_initial (config : EventConfig) :
    Covered config.eventCooldownNs [] (initial config) where
  cooldown := rfl
  past := by rintro _ ⟨⟩
  until_le := by rintro _ ⟨⟩
  range := by rintro _ ⟨⟩
  requestedEnd := by rintro _ ⟨⟩

variable {cooldownNs : ℕ} {events : List EventJob}

/-- While the gate is open the cooldown covers every trigger. -/
theorem Covered.past_of_open (h : Covered cooldownNs events t)
    (hopen : t.recorder.gate.collecting = false) : ∀ event ∈ events,
      event.triggerSensorTimestampNs + cooldownNs ≤ t.recorder.gate.cooldownUntilNs := by
  intro event hevent
  rcases h.past event hevent with hpast | ⟨hcollecting, -⟩
  · exact hpast
  · rw [hopen] at hcollecting
    cases hcollecting

/-- The cooldown behind an event that has not been cut short. -/
theorem until_of_finished (cooldownNs : ℕ) {event job : EventJob}
    (hcontinues : Continues event job) (hend : job.actualEndSensorTimestampNs = job.clipEnd)
    (hclip : job.triggerSensorTimestampNs ≤ job.clipEnd) :
    saturatingAdd event.reach cooldownNs ≤
      saturatingAdd job.actualEndSensorTimestampNs cooldownNs ∧
    min u64Max (event.triggerSensorTimestampNs + cooldownNs) ≤
      saturatingAdd job.actualEndSensorTimestampNs cooldownNs := by
  have hreach : job.reach = job.actualEndSensorTimestampNs := by
    rw [EventJob.reach, hend, Nat.max_eq_right hclip]
  rw [← hreach]
  refine ⟨saturatingAdd_mono _ hcontinues.reach,
    Nat.le_trans ?_ (min_le_saturatingAdd job.reach cooldownNs)⟩
  have : event.triggerSensorTimestampNs ≤ job.reach := by
    rw [← hcontinues.trigger]
    exact Nat.le_max_left _ _
  omega

/-- A finished event that an exception has left in `active` satisfies the same bounds. -/
theorem Covered.finished {event job : EventJob} {gate : EventGate}
    (hcooldown : gate.cooldownNs = cooldownNs) (hcontinues : Continues event job)
    (hend : job.actualEndSensorTimestampNs = job.clipEnd)
    (hclip : job.triggerSensorTimestampNs ≤ job.clipEnd)
    (hrange : event.triggerSensorTimestampNs + cooldownNs ≤ u64Max)
    (hrequested : event.triggerSensorTimestampNs ≤ event.requestedEndSensorTimestampNs)
    (hgate : t'.recorder.gate = gate.complete job.actualEndSensorTimestampNs)
    (hgone : ∀ current, t'.recorder.active = some current → current = job)
    (hpast : ∀ event' ∈ events,
      event'.triggerSensorTimestampNs + cooldownNs ≤ gate.cooldownUntilNs ∨
        event'.triggerSensorTimestampNs ≤ event.triggerSensorTimestampNs)
    (huntil : gate.cooldownUntilNs ≤ saturatingAdd event.reach cooldownNs) :
    Covered cooldownNs events t' ∧
      gate.cooldownUntilNs ≤ t'.recorder.gate.cooldownUntilNs := by
  obtain ⟨hmono, hcovers⟩ := until_of_finished cooldownNs hcontinues hend hclip
  have hafter : t'.recorder.gate.cooldownUntilNs =
      saturatingAdd job.actualEndSensorTimestampNs cooldownNs := by
    rw [hgate, ← hcooldown]
    rfl
  refine ⟨⟨by rw [hgate, ← hcooldown]; rfl, fun event' hevent' => Or.inl ?_,
    fun current hcurrent => ?_, fun current hcurrent => ?_, fun current hcurrent => ?_⟩, ?_⟩
  · rw [hafter]
    rcases hpast event' hevent' with hpast | hle
    · exact Nat.le_trans hpast (Nat.le_trans huntil hmono)
    · exact Nat.le_trans (by omega) hcovers
  · rw [hgone current hcurrent, hafter]
    refine saturatingAdd_mono _ ?_
    rw [hend]
    exact Nat.le_max_right _ _
  · rw [hgone current hcurrent, hcontinues.trigger]
    exact hrange
  · rw [hgone current hcurrent, hcontinues.trigger, hcontinues.requestedEnd]
    exact hrequested
  · rw [hafter]
    exact Nat.le_trans huntil hmono

theorem requestedEnd_of_accepts {event : EventJob} (hevent : t.accepts a = some event)
    (hrange : event.triggerSensorTimestampNs ≤ u64Max) :
    event.triggerSensorTimestampNs ≤ event.requestedEndSensorTimestampNs := by
  cases a with
  | trigger throws call history =>
    obtain ⟨frame, -, hopens⟩ := Option.bind_eq_some_iff.mp hevent
    split at hopens
    · cases hopens
      exact le_saturatingAdd hrange
    · cases hopens
  | setup _ | start _ | observe _ _ | stop _ | joined | takeJob | exit | write _ => cases hevent

theorem gone_active {job : EventJob} {r r' : EventRecorder} (h : EventRecorder.Gone job r r') :
    ∀ current, r'.active = some current → current = job := by
  intro current hcurrent
  rcases h with ⟨hnone, -⟩ | hsome
  · rw [hnone] at hcurrent
    cases hcurrent
  · rw [hsome] at hcurrent
    cases hcurrent
    rfl

/-- A step that does not cut an event short keeps the cooldown over every trigger, and moves it
forward only. -/
theorem Covered.step (h : Covered cooldownNs events t) (hs : t.step a = some t')
    (hcut : t.cutsShort a = false)
    (hrange : ∀ event, t.accepts a = some event →
      event.triggerSensorTimestampNs + cooldownNs ≤ u64Max) :
    (Covered cooldownNs (events ++ (t.accepts a).toList) t' ∧
        t.recorder.gate.cooldownUntilNs ≤ t'.recorder.gate.cooldownUntilNs) ∧
      ∀ event', t.accepts a = some event' → ∀ event ∈ events,
        event.triggerSensorTimestampNs + cooldownNs ≤ event'.triggerSensorTimestampNs := by
  have hclip : ∀ job, t.closes a = some job → job.triggerSensorTimestampNs ≤ job.clipEnd :=
    fun job hclose => clipEnd_of_closes hclose hcut h.requestedEnd fun event hevent =>
      Nat.le_trans (Nat.le_add_right _ _) (hrange event hevent)
  have hfuture : ∀ event, t.accepts a = some event →
      event.triggerSensorTimestampNs ≤ event.requestedEndSensorTimestampNs :=
    fun event hevent => requestedEnd_of_accepts hevent
      (Nat.le_trans (Nat.le_add_right _ _) (hrange event hevent))
  have hmove := step_move hs
  generalize t.accepts a = accepted at hmove hrange hfuture ⊢
  generalize t.closes a = closed at hmove hclip
  cases hmove with
  | keeps hgate hactive hgone =>
    refine ⟨?_, by rintro _ ⟨⟩⟩
    rw [Option.toList_none, List.append_nil]
    refine ⟨⟨by rw [hgate, h.cooldown], fun event hevent => ?_, fun current hcurrent => ?_,
      fun current hcurrent => ?_, fun current hcurrent => ?_⟩, by rw [hgate]⟩
    · rw [hgate]
      refine (h.past event hevent).imp_right ?_
      rintro ⟨hcollecting, before, hbefore, hle⟩
      refine ⟨hcollecting, ?_⟩
      cases hlater : t'.recorder.active with
      | none =>
        rw [hgone hlater] at hbefore
        cases hbefore
      | some later =>
        obtain ⟨event', hevent', hcontinues⟩ := hactive later hlater
        rw [hbefore] at hevent'
        cases hevent'
        exact ⟨later, rfl, by rw [hcontinues.trigger]; exact hle⟩
    · obtain ⟨before, hbefore, hcontinues⟩ := hactive current hcurrent
      rw [hgate]
      exact Nat.le_trans (h.until_le before hbefore) (saturatingAdd_mono _ hcontinues.reach)
    · obtain ⟨before, hbefore, hcontinues⟩ := hactive current hcurrent
      rw [hcontinues.trigger]
      exact h.range before hbefore
    · obtain ⟨before, hbefore, hcontinues⟩ := hactive current hcurrent
      rw [hcontinues.trigger, hcontinues.requestedEnd]
      exact h.requestedEnd before hbefore
  | loses hopen hgate hactive =>
    refine ⟨?_, by rintro _ ⟨⟩⟩
    rw [Option.toList_none, List.append_nil]
    refine ⟨⟨by rw [hgate, ← h.cooldown], fun event hevent => Or.inl ?_, ?_, ?_, ?_⟩,
      by rw [hgate]⟩
    · rw [hgate]
      exact h.past_of_open hopen event hevent
    · rw [hgate, hactive]
      exact h.until_le
    · rw [hactive]
      exact h.range
    · rw [hactive]
      exact h.requestedEnd
  | @starts event hopen hpast hgate hactive =>
    have hrange := hrange event rfl
    have hactive' : ∀ current, t'.recorder.active = some current → current = event :=
      fun current hcurrent => by
        rw [hactive] at hcurrent
        cases hcurrent
        rfl
    refine ⟨⟨⟨by rw [hgate, ← h.cooldown], fun event' hevent' => ?_, fun current hcurrent => ?_,
      fun current hcurrent => ?_, fun current hcurrent => ?_⟩, by rw [hgate]⟩, ?_⟩
    · rw [hgate]
      rcases List.mem_append.mp hevent' with hold | hnew
      · exact Or.inl (h.past_of_open hopen event' hold)
      · rw [List.mem_singleton.mp hnew]
        exact Or.inr ⟨rfl, event, hactive, Nat.le_refl _⟩
    · rw [hgate, hactive' current hcurrent]
      exact Nat.le_trans hpast (le_saturatingAdd_reach (Nat.le_trans (Nat.le_add_right _ _) hrange))
    · rw [hactive' current hcurrent]
      exact hrange
    · rw [hactive' current hcurrent]
      exact hfuture event rfl
    · rintro _ ⟨rfl⟩ event' hevent'
      exact Nat.le_trans (h.past_of_open hopen event' hevent') hpast
  | @ends event job hactive hcontinues hend hgate hgone =>
    refine ⟨?_, by rintro _ ⟨⟩⟩
    rw [Option.toList_none, List.append_nil]
    refine Covered.finished h.cooldown hcontinues hend (hclip job rfl) (h.range event hactive)
      (h.requestedEnd event hactive) hgate (gone_active hgone) (fun event' hevent' => ?_)
      (h.until_le event hactive)
    refine (h.past event' hevent').imp_right ?_
    rintro ⟨-, current, hcurrent, hle⟩
    rw [hactive] at hcurrent
    cases hcurrent
    exact hle
  | @both event job hopen hpast hcontinues hend hgate hgone =>
    have hrange := hrange event rfl
    refine ⟨Covered.finished h.cooldown hcontinues hend (hclip job rfl) hrange (hfuture event rfl)
      hgate (gone_active hgone) (fun event' hevent' => ?_)
      (Nat.le_trans hpast
        (le_saturatingAdd_reach (Nat.le_trans (Nat.le_add_right _ _) hrange))), ?_⟩
    · rcases List.mem_append.mp hevent' with hold | hnew
      · exact Or.inl (h.past_of_open hopen event' hold)
      · rw [List.mem_singleton.mp hnew]
        exact Or.inr (Nat.le_refl _)
    · rintro _ ⟨rfl⟩ event' hevent'
      exact Nat.le_trans (h.past_of_open hopen event' hevent') hpast

theorem covered_of_run {history : List (RecorderThreads × RecorderAction)}
    (h : Run step (initial config) history t) (hcut : ∀ x ∈ history, x.1.cutsShort x.2 = false)
    (hrange : ∀ event ∈ acceptances history,
      event.triggerSensorTimestampNs + config.eventCooldownNs ≤ u64Max) :
    Covered config.eventCooldownNs (acceptances history) t ∧
      (acceptances history).Pairwise (fun event event' =>
        event.triggerSensorTimestampNs + config.eventCooldownNs ≤
          event'.triggerSensorTimestampNs) ∧
      ∀ x ∈ history, ∀ t', x.1.step x.2 = some t' →
        x.1.recorder.gate.cooldownUntilNs ≤ t'.recorder.gate.cooldownUntilNs := by
  induction h with
  | nil => exact ⟨covered_initial config, .nil, by rintro _ ⟨⟩⟩
  | @snoc history t t' a hrun hs ih =>
    rw [acceptances_snoc] at hrange ⊢
    obtain ⟨hcovered, hpairs, hmono⟩ := ih (fun x hx => hcut x (List.mem_append_left _ hx))
      fun event hevent => hrange event (List.mem_append_left _ hevent)
    obtain ⟨⟨hcovered', hmono'⟩, hpast⟩ := hcovered.step hs (hcut (t, a) (by simp))
      fun event hevent => hrange event (List.mem_append_right _ (by simp [hevent]))
    refine ⟨hcovered', List.pairwise_append.mpr ⟨hpairs, ?_, fun event hevent event' hevent' => ?_⟩,
      fun x hx t'' hs'' => ?_⟩
    · cases t.accepts a <;> simp
    · exact hpast event' (by simpa using hevent') event hevent
    · rcases List.mem_append.mp hx with hx | hx
      · exact hmono x hx t'' hs''
      · rw [List.mem_singleton.mp hx] at hs'' ⊢
        rw [hs] at hs''
        cases hs''
        exact hmono'

/-- **When the cooldown covers the detection itself.** In a run, with any exceptions, in which no
step finishes an event whose clip has not come to its trigger, and in which no event is started
within a cooldown of the end of the range, any two events are triggered a cooldown apart, and the
end of the cooldown never moves back. -/
theorem cooldown_covers {history : List (RecorderThreads × RecorderAction)}
    (h : Run step (initial config) history t) (hcut : ∀ x ∈ history, x.1.cutsShort x.2 = false)
    (hrange : ∀ event ∈ acceptances history,
      event.triggerSensorTimestampNs + config.eventCooldownNs ≤ u64Max) :
    (acceptances history).Pairwise (fun event event' =>
        event.triggerSensorTimestampNs + config.eventCooldownNs ≤
          event'.triggerSensorTimestampNs) ∧
      ∀ x ∈ history, ∀ t', x.1.step x.2 = some t' →
        x.1.recorder.gate.cooldownUntilNs ≤ t'.recorder.gate.cooldownUntilNs :=
  (covered_of_run h hcut hrange).2

/-- Two clips, each with a unit from behind its trigger. -/
theorem cooldown_covers_twoEvents :
    ∃ history t, Run step (initial ⟨true, 5, 10, 3⟩) history t ∧
      (acceptances history).map (·.triggerSensorTimestampNs) = [10, 24] ∧
      (acceptances history).Pairwise (fun event event' =>
        event.triggerSensorTimestampNs + 3 ≤ event'.triggerSensorTimestampNs) ∧
      t.recorder.gate.cooldownUntilNs = 28 := by
  let actions : List RecorderAction :=
    [.setup true, .start true, .trigger (fun _ => false) (detectionAt 10) (keyframeAt 10),
      .observe (fun _ => false) (some (.ofTest 21 1 false 1)),
      .trigger (fun _ => false) (detectionAt 24) (keyframeAt 24),
      .observe (fun _ => false) (some (.ofTest 25 1 false 1)), .stop fun _ => false]
  have hrun : Run step (initial ⟨true, 5, 10, 3⟩) _ _ := Run.ofExec actions rfl
  exact ⟨_, _, hrun, by decide, (cooldown_covers hrun (by decide) (by decide)).1, by decide⟩

/-- The encoder lags behind: its last unit is 90 older than the frame of the detection when it
begins a new generation. The event is finished with the cooldown over before its trigger, and the
next frame starts another one. -/
theorem not_cooldown_covers :
    ¬ ∀ (config : EventConfig) (history : List (RecorderThreads × RecorderAction))
        (t : RecorderThreads), Run step (initial config) history t →
      (history.filterMap fun x => arrival x.2).Pairwise (· ≤ ·) →
      (acceptances history).Pairwise (fun event event' =>
        event.triggerSensorTimestampNs + config.eventCooldownNs ≤
          event'.triggerSensorTimestampNs) ∧
      ∀ x ∈ history, ∀ t', x.1.step x.2 = some t' →
        x.1.recorder.gate.cooldownUntilNs ≤ t'.recorder.gate.cooldownUntilNs := by
  intro hclaim
  let restart : EncodedAccessUnit := .ofTest 12 2 true 1
  let actions : List RecorderAction :=
    [.setup true, .start true, .trigger (fun _ => false) (detectionAt 100) (keyframeAt 10),
      .observe (fun _ => false) (some restart),
      .trigger (fun _ => false) (detectionAt 101) ((keyframeAt 10).push (some restart)).1]
  have hrun : Run step (initial ⟨true, 5, 10, 20⟩) _ _ := Run.ofExec actions rfl
  have hpairs := (hclaim _ _ _ hrun (by decide)).1
  revert hpairs
  decide

end RecorderThreads

end EggVision
