import EggVision.Event.Recorder
import EggVision.Lib.Transition

/-!
# The recorder and its threads

`start` and `stop` are called by one owner, one after the other. `trigger` comes from the inference
thread and `observeEncoded` from the encoder thread, at any time, also while `stop` waits for the
worker. Each lock region is one step, and so is each `writeEvent`, which leaves the recorder's
state alone except for the counters it ends with.

## Main definitions

* `RecorderThreads`, `RecorderAction`, `RecorderThreads.step`
* `RecorderThreads.calmStep` — the steps that no exception leaves
* `Conserved` — where every triggered event is

## Main results

* `conservation` — no event is dropped or counted twice
* `gate_survives_iff` — when the gate and the active event agree, exceptions included
-/

namespace EggVision

open Transition

/-- Where the worker thread is. `absent` is a `std::thread` without a thread. -/
inductive WorkerPhase
  | absent
  | waiting
  | writing (job : EventJob)
  | exited
deriving DecidableEq, Repr

/-- One if the worker is inside `writeEvent`. The counter is the last thing `writeEvent` changes,
so it counts as left when it has counted. -/
def WorkerPhase.inWrite : WorkerPhase → ℕ
  | .writing _ => 1
  | .absent | .waiting | .exited => 0

/-- The recorder, its worker, and whether `stop` is waiting in `join`. -/
structure RecorderThreads where
  recorder : EventRecorder
  worker : WorkerPhase := .absent
  stopping : Bool := false
deriving DecidableEq, Repr

/-- The steps. `setup` is the `initialize` call, `joined` the end of the `join` in `stop`. -/
inductive RecorderAction
  | setup (usable : Bool)
  | start (spawned : Bool)
  | trigger (throws : AllocStep → Bool) (call : TriggerCall) (history : EncodedRingBuffer)
  | observe (throws : AllocStep → Bool) (unit : Option EncodedAccessUnit)
  | stop (throws : AllocStep → Bool)
  | joined
  | takeJob
  | exit
  | write (outcome : EventRecorder.WriteOutcome)

namespace RecorderThreads

/-- A constructed recorder. -/
def initial (config : EventConfig) : RecorderThreads := { recorder := .new config }

def step (t : RecorderThreads) : RecorderAction → Option RecorderThreads
  | .setup usable =>
    if t.stopping then none
    else some { t with recorder := (t.recorder.initializeWith usable).1 }
  | .start spawned =>
    if t.stopping then none
    else
      let r := (t.recorder.start spawned).1
      let spawned := !t.recorder.running && r.running
      some { t with recorder := r, worker := if spawned then .waiting else t.worker }
  | .trigger throws call history =>
    some { t with recorder := (t.recorder.trigger throws call history).1 }
  | .observe throws unit => some { t with recorder := (t.recorder.observeEncoded throws unit).1 }
  | .stop throws =>
    if t.stopping then none
    else
      match t.recorder.stop throws with
      | (recorder, .ok true) => some { t with recorder, stopping := true }
      | (recorder, .ok false) => some { t with recorder }
      | (recorder, .error _) => some { t with recorder }
  | .joined =>
    if t.stopping && decide (t.worker = .exited) then
      some { t with worker := .absent, stopping := false }
    else none
  | .takeJob =>
    match t.worker, t.recorder.takeJob with
    | .waiting, some (job, recorder) => some { t with recorder, worker := .writing job }
    | _, _ => none
  | .exit =>
    if decide (t.worker = .waiting) && t.recorder.jobs.isEmpty && !t.recorder.running then
      some { t with worker := .exited }
    else none
  | .write outcome =>
    match t.worker with
    | .writing job =>
      let metrics := EventRecorder.writeEvent outcome job t.recorder.metrics
      some { t with recorder := { t.recorder with metrics }, worker := .waiting }
    | _ => none

/-- The step of the operation at which an exception left it. -/
def leftBy (t : RecorderThreads) : RecorderAction → Option AllocStep
  | .trigger throws call history => failure (t.recorder.trigger throws call history).2
  | .observe throws unit => failure (t.recorder.observeEncoded throws unit).2
  | .stop throws => failure (t.recorder.stop throws).2
  | .setup _ | .start _ | .joined | .takeJob | .exit | .write _ => none
where
  failure {α : Type} : Except AllocStep α → Option AllocStep
    | .ok _ => none
    | .error failed => some failed

/-- The steps of runs that no exception leaves. -/
def calmStep (t : RecorderThreads) (a : RecorderAction) : Option RecorderThreads :=
  if (t.leftBy a).isNone then t.step a else none

end RecorderThreads

/-! ### Conservation of events -/

namespace EventRecorder

/-- The events the recorder itself still holds. -/
def held (r : EventRecorder) : ℕ := r.jobs.length + (if r.active.isSome then 1 else 0)

/-- Every triggered event is counted, held, or one of `writing` being written. -/
def Balanced (writing : ℕ) (r : EventRecorder) : Prop :=
  r.metrics.eventsTriggered =
    r.metrics.eventsCompleted + r.metrics.eventsFailed + r.held + writing

/-- What the recorder keeps by itself, whatever the threads do. -/
structure Sound (writing : ℕ) (r : EventRecorder) : Prop where
  balanced : r.Balanced writing
  queue : r.jobs.length ≤ kWorkerQueueCapacity
  gate : r.gate.collecting = r.active.isSome
  running : r.accepting = true ∨ r.active.isSome = true → r.running = true

variable {writing : ℕ} {r r' : EventRecorder}

/-- Closing an event with no exception: it is in the queue, or counted as failed. -/
theorem Balanced.finishLocked {event : EventJob} {throws : AllocStep → Bool}
    {postComplete : Bool} {error : String} (h : r.Balanced writing)
    (hqueue : r.jobs.length ≤ kWorkerQueueCapacity) (hactive : r.active = some event)
    (heq : r.finishLocked throws postComplete error = (r', .ok ())) :
    r'.Balanced writing ∧ r'.jobs.length ≤ kWorkerQueueCapacity ∧ r'.active = none ∧
      r'.gate.collecting = false ∧ r'.running = r.running ∧ r'.accepting = r.accepting ∧
      r'.metrics.eventsTriggered = r.metrics.eventsTriggered ∧
      r'.metrics.eventsSuppressed = r.metrics.eventsSuppressed := by
  have hcounts := closeActive_counts event postComplete error r
  simp only [countsOf, Prod.mk.injEq] at hcounts
  obtain ⟨htriggered, hsuppressed, hcompleted, hfailed⟩ := hcounts
  unfold Balanced held at h ⊢
  simp only [hactive, Option.isSome_some, if_true] at h
  rcases finishLocked_cases hactive throws postComplete error with
    ⟨-, hf⟩ | ⟨-, ⟨hfull, hf⟩ | ⟨-, -, hf⟩ | ⟨hroom, -, hf⟩⟩
  · rw [hf] at heq
    cases heq
  · rw [hf] at heq
    cases heq
    refine ⟨?_, hqueue, rfl, rfl, rfl, rfl, htriggered, hsuppressed⟩
    simp only [EventMetrics.fail, htriggered, hcompleted, hfailed, Option.isSome_none,
      closeActive_jobs, Bool.false_eq_true, if_false]
    omega
  · rw [hf] at heq
    cases heq
  · rw [hf] at heq
    cases heq
    refine ⟨?_, ?_, rfl, rfl, rfl, rfl, htriggered, hsuppressed⟩
    · simp only [htriggered, hcompleted, hfailed, Option.isSome_none, Bool.false_eq_true,
        if_false, List.length_append, List.length_singleton]
      omega
    · rw [List.length_append]
      exact hroom

/-- A trigger counts its call once, as triggered or as suppressed. -/
def CountsOnce (r r' : EventRecorder) : Prop :=
  (r'.metrics.eventsTriggered = r.metrics.eventsTriggered + 1 ∧
      r'.metrics.eventsSuppressed = r.metrics.eventsSuppressed) ∨
    (r'.metrics.eventsTriggered = r.metrics.eventsTriggered ∧
      r'.metrics.eventsSuppressed = r.metrics.eventsSuppressed + 1)

/-- What `trigger` and `observeEncoded` leave alone. -/
structure Frame (r r' : EventRecorder) : Prop where
  running : r'.running = r.running
  accepting : r'.accepting = r.accepting
  jobs : r.running = false → r'.jobs = r.jobs

theorem Frame.refl (r : EventRecorder) : Frame r r := ⟨rfl, rfl, fun _ => rfl⟩

theorem Sound.refused (h : Sound writing r) (latest rejections : ℕ) :
    let refused := { r with
      latestSensorTimestampNs := latest
      metrics := { r.metrics with eventDiskSpaceRejections := rejections } }
    Sound writing refused.suppress ∧ Frame r refused.suppress ∧ CountsOnce r refused.suppress :=
  ⟨⟨h.balanced, h.queue, h.gate, h.running⟩, ⟨rfl, rfl, fun _ => rfl⟩, Or.inr ⟨rfl, rfl⟩⟩

/-- An accepted trigger: the event is held, or already closed. -/
theorem Sound.startCollecting {event : EventJob} {throws : AllocStep → Bool} {frame : FrameLease}
    {hasIndependentStart : Bool} (h : Sound writing r) (hidle : r.active = none)
    (hrunning : r.running = true)
    (heq : (r.begun frame).startCollecting throws hasIndependentStart event = (r', .ok ())) :
    Sound writing r' ∧ Frame r r' ∧ CountsOnce r r' := by
  have hcounts := openEvent_counts event (r.begun frame)
  simp only [countsOf, Prod.mk.injEq] at hcounts
  obtain ⟨htriggered, hsuppressed, hcompleted, hfailed⟩ := hcounts
  have hopened : ∀ active, Balanced writing
      { (r.begun frame).openEvent event with active := some active } := by
    intro active
    have := h.balanced
    unfold Balanced held at this ⊢
    simp only [hidle, Option.isSome_none, Bool.false_eq_true, if_false] at this
    simp only [htriggered, hcompleted, hfailed, Option.isSome_some, if_true]
    simp only [begun, see, openEvent, this]
    omega
  -- the event is closed at once, with or without the error text
  have hclosed : ∀ active postComplete,
      { (r.begun frame).openEvent event with active := some active }.finishLocked throws
        postComplete "" = (r', .ok ()) → Sound writing r' ∧ Frame r r' ∧ CountsOnce r r' := by
    intro active postComplete hf
    obtain ⟨hb, hq, hnone, hgate, hrun, hacc, ht, hs⟩ :=
      (hopened active).finishLocked h.queue rfl hf
    refine ⟨⟨hb, hq, by rw [hgate, hnone]; rfl, fun _ => hrun.trans hrunning⟩,
      ⟨hrun, hacc, fun hc => absurd hc (by simp [hrunning])⟩, Or.inl ⟨?_, ?_⟩⟩
    · rw [ht]
      exact htriggered
    · rw [hs]
      exact hsuppressed
  rcases startCollecting_cases throws hasIndependentStart event (r.begun frame) with
    ⟨-, -, hc⟩ | ⟨-, -, hc⟩ | ⟨-, -, hc⟩ | ⟨-, -, hc⟩
  · rw [hc] at heq
    cases heq
  · exact hclosed _ _ (hc ▸ heq)
  · exact hclosed event true (hc ▸ heq)
  · rw [hc] at heq
    cases heq
    exact ⟨⟨hopened event, h.queue, rfl, fun _ => hrunning⟩,
      ⟨rfl, rfl, fun _ => rfl⟩, Or.inl ⟨htriggered, hsuppressed⟩⟩

theorem Sound.trigger {throws : AllocStep → Bool} {call : TriggerCall}
    {history : EncodedRingBuffer} {result : Bool} (h : Sound writing r)
    (heq : r.trigger throws call history = (r', .ok result)) :
    Sound writing r' ∧ Frame r r' ∧ (r.records call = true → CountsOnce r r') := by
  rcases trigger_cases throws call history r with
    ⟨hno, hc⟩ | ⟨-, -, latest, rejections, ⟨hc, -⟩ | hc⟩ |
      ⟨frame, -, hadmits, ⟨failed, -, hc⟩ | ⟨-, hc⟩⟩
  · rw [hc] at heq
    cases heq
    exact ⟨h, .refl r, fun hyes => by simp [hno] at hyes⟩
  · rw [hc] at heq
    cases heq
  · rw [hc] at heq
    cases heq
    obtain ⟨hs, hf, hcount⟩ := h.refused latest rejections
    exact ⟨hs, hf, fun _ => hcount⟩
  · rw [hc] at heq
    cases heq
  · simp only [admits, Bool.and_eq_true, Bool.not_eq_true'] at hadmits
    have hidle : r.active = none := by
      have := h.gate
      rw [hadmits.1.2] at this
      simpa using this.symm
    have hrunning := h.running (Or.inl hadmits.1.1.2)
    rw [hc] at heq
    cases hstart : (r.begun frame).startCollecting throws
        (history.selectPreRoll frame.sensorTimestampNs r.config.eventPreNs).hasIndependentStart
        (r.eventOf call frame history) with
    | mk started outcome =>
      rw [hstart] at heq
      cases outcome with
      | error failed => cases heq
      | ok _ =>
        cases heq
        obtain ⟨hs, hf, hcount⟩ := h.startCollecting hidle hrunning hstart
        exact ⟨hs, hf, fun _ => hcount⟩

theorem Sound.observeEncoded {throws : AllocStep → Bool} {unit : Option EncodedAccessUnit}
    (h : Sound writing r) (heq : r.observeEncoded throws unit = (r', .ok ())) :
    Sound writing r' ∧ Frame r r' := by
  by_cases hidle : r.config.eventRecordingEnabled = false ∨ r.active = none
  · obtain ⟨latest, hc⟩ := observeEncoded_idle hidle throws unit
    rw [hc] at heq
    cases heq
    exact ⟨⟨h.balanced, h.queue, h.gate, h.running⟩, ⟨rfl, rfl, fun _ => rfl⟩⟩
  cases unit with
  | none =>
    cases heq
    exact ⟨h, .refl r⟩
  | some unit =>
    obtain ⟨henabled, event, hactive⟩ : r.config.eventRecordingEnabled = true ∧
        ∃ event, r.active = some event := by
      simpa [Option.ne_none_iff_exists'] using hidle
    have hrunning := h.running (Or.inr (by rw [hactive]; rfl))
    -- the collected event may only change its units
    have hopened : ∀ active, Balanced writing
        { r.see unit.sensorTimestampNs with active := some active } := by
      intro active
      have := h.balanced
      unfold Balanced held at this ⊢
      simpa [hactive, see] using this
    have hclosed : ∀ active postComplete error,
        { r.see unit.sensorTimestampNs with active := some active }.finishLocked throws
          postComplete error = (r', .ok ()) → Sound writing r' ∧ Frame r r' := by
      intro active postComplete error hf
      obtain ⟨hb, hq, hnone, hgate, hrun, hacc, -⟩ := (hopened active).finishLocked h.queue rfl hf
      exact ⟨⟨hb, hq, by rw [hgate, hnone]; rfl, fun _ => hrun.trans hrunning⟩,
        ⟨hrun, hacc, fun hc => absurd hc (by simp [hrunning])⟩⟩
    have hgate : r.gate.collecting = true := by rw [h.gate, hactive]; rfl
    rcases observeEncoded_cases henabled hactive throws unit with
      ⟨-, hc⟩ | ⟨-, -, hc⟩ | ⟨-, -, ⟨-, hc⟩ | ⟨-, -, hc⟩ | ⟨-, -, hc⟩⟩
    · have hsame : { r.see unit.sensorTimestampNs with active := some event } =
          r.see unit.sensorTimestampNs := by rw [← hactive]; rfl
      refine hclosed event false "encoder generation changed during post-roll" ?_
      rw [hsame, ← hc, heq]
    · rw [hc] at heq
      cases heq
      exact ⟨⟨h.balanced, h.queue, h.gate, h.running⟩, ⟨rfl, rfl, fun _ => rfl⟩⟩
    · rw [hc] at heq
      cases heq
    · exact hclosed _ _ _ (hc ▸ heq)
    · rw [hc] at heq
      cases heq
      exact ⟨⟨hopened _, h.queue, hgate, fun _ => hrunning⟩, ⟨rfl, rfl, fun _ => rfl⟩⟩

/-- `stop` closes what is collected, and the worker is to be joined iff it was running. -/
theorem Sound.stop {throws : AllocStep → Bool} {joins : Bool} (h : Sound writing r)
    (heq : r.stop throws = (r', .ok joins)) :
    Sound writing r' ∧ joins = r.running ∧ r'.running = false ∧ r'.accepting = false ∧
      r'.active = none ∧ (r.running = false → r'.jobs = r.jobs) := by
  obtain ⟨running, hstop, hok, herror⟩ := stop_cases throws r
  rw [heq] at hstop
  -- nothing is collected any more behind the first half
  have hfirst : (r.interrupt throws).2 = .ok () ∧
      Balanced writing (r.interrupt throws).1 ∧
      (r.interrupt throws).1.jobs.length ≤ kWorkerQueueCapacity ∧
      (r.interrupt throws).1.active = none ∧ (r.interrupt throws).1.gate.collecting = false ∧
      (r.interrupt throws).1.running = r.running ∧
      (r.interrupt throws).1.accepting = false ∧
      (r.running = false → (r.interrupt throws).1.jobs = r.jobs) := by
    rcases hsecond : (r.interrupt throws).2 with failed | _
    · rw [heq] at herror
      cases herror failed hsecond
    refine ⟨rfl, ?_⟩
    cases hactive : r.active with
    | none =>
      have hgate : r.gate.collecting = false := by rw [h.gate, hactive]; rfl
      have hinterrupt : r.interrupt throws = ({ r with accepting := false }, .ok ()) := by
        simp [interrupt, hactive]
      rw [hinterrupt]
      exact ⟨h.balanced, h.queue, hactive, hgate, rfl, rfl, fun _ => rfl⟩
    | some event =>
      have hrunning := h.running (Or.inr (by rw [hactive]; rfl))
      have hinterrupt : r.interrupt throws = EventRecorder.finishLocked throws false
          "shutdown interrupted event post-roll" { r with accepting := false } := by
        simp [interrupt, hactive]
      obtain ⟨hb, hq, hnone, hgate, hrun, hacc, -⟩ :=
        Balanced.finishLocked (r := { r with accepting := false }) h.balanced h.queue hactive
          (hinterrupt.symm.trans (Prod.ext rfl hsecond :
            r.interrupt throws = ((r.interrupt throws).1, .ok ())))
      exact ⟨hb, hq, hnone, hgate, hrun, hacc, fun hc => absurd hc (by simp [hrunning])⟩
  obtain ⟨hsecond, hb, hq, hnone, hgate, hrun, hacc, hjobs⟩ := hfirst
  obtain ⟨rfl, hresult⟩ := hok hsecond
  rw [heq, hrun] at hresult
  cases hresult
  subst hstop
  exact ⟨⟨hb, hq, by rw [hgate, hnone]; rfl, by simp [hacc, hnone]⟩, rfl, rfl, hacc, hnone, hjobs⟩

end EventRecorder

namespace RecorderThreads

variable {config : EventConfig} {t t' : RecorderThreads}

theorem step_of_calmStep {a : RecorderAction} (hs : t.calmStep a = some t') :
    t.leftBy a = none ∧ t.step a = some t' := by
  unfold calmStep at hs
  split at hs
  next hcalm => exact ⟨Option.isNone_iff_eq_none.mp hcalm, hs⟩
  · cases hs

theorem calmStep_trigger {throws : AllocStep → Bool} {call : TriggerCall}
    {history : EncodedRingBuffer} (hs : t.calmStep (.trigger throws call history) = some t') :
    ∃ recorder result, t.recorder.trigger throws call history = (recorder, .ok result) ∧
      t' = { t with recorder } := by
  obtain ⟨hcalm, hs⟩ := step_of_calmStep hs
  simp only [leftBy] at hcalm
  simp only [step] at hs
  rcases heq : t.recorder.trigger throws call history with ⟨recorder, failed | result⟩
  · simp [heq, leftBy.failure] at hcalm
  · rw [heq] at hs
    cases hs
    exact ⟨recorder, result, rfl, rfl⟩

theorem calmStep_observe {throws : AllocStep → Bool} {unit : Option EncodedAccessUnit}
    (hs : t.calmStep (.observe throws unit) = some t') :
    ∃ recorder, t.recorder.observeEncoded throws unit = (recorder, .ok ()) ∧
      t' = { t with recorder } := by
  obtain ⟨hcalm, hs⟩ := step_of_calmStep hs
  simp only [leftBy] at hcalm
  simp only [step] at hs
  rcases heq : t.recorder.observeEncoded throws unit with ⟨recorder, failed | result⟩
  · simp [heq, leftBy.failure] at hcalm
  · rw [heq] at hs
    cases hs
    exact ⟨recorder, rfl, rfl⟩

theorem calmStep_stop {throws : AllocStep → Bool} (hs : t.calmStep (.stop throws) = some t') :
    t.stopping = false ∧ ∃ recorder joins, t.recorder.stop throws = (recorder, .ok joins) ∧
      t' = { t with recorder, stopping := joins } := by
  obtain ⟨hcalm, hs⟩ := step_of_calmStep hs
  simp only [leftBy] at hcalm
  simp only [step] at hs
  split at hs
  · cases hs
  next hstopping =>
    have hstopping : t.stopping = false := by simpa using hstopping
    refine ⟨hstopping, ?_⟩
    rcases heq : t.recorder.stop throws with ⟨recorder, failed | joins⟩
    · simp [heq, leftBy.failure] at hcalm
    · rw [heq] at hs
      refine ⟨recorder, joins, rfl, ?_⟩
      cases joins with
      | true => cases hs; rfl
      | false => cases hs; rw [← hstopping]

/-- Where every event is, and when the worker can be waited for. -/
structure Conserved (t : RecorderThreads) : Prop where
  sound : t.recorder.Sound t.worker.inWrite
  alive : t.recorder.running = true →
    t.worker ≠ .absent ∧ t.worker ≠ .exited ∧ t.stopping = false
  exited : t.worker = .exited → t.recorder.jobs = []
  idle : t.recorder.running = false → t.stopping = false →
    t.recorder.jobs = [] ∧ t.worker = .absent

theorem conserved_initial (config : EventConfig) : Conserved (initial config) where
  sound := ⟨rfl, Nat.zero_le _, rfl, by simp [initial, EventRecorder.new]⟩
  alive := by simp [initial, EventRecorder.new]
  exited := by simp [initial]
  idle := fun _ _ => ⟨rfl, rfl⟩

theorem Conserved.not_running_of_exited (h : Conserved t) (hexit : t.worker = .exited) :
    t.recorder.running = false := by
  by_contra hc
  exact (h.alive (by simpa using hc)).2.1 hexit

/-- With no owner call in between, only the jobs may change. -/
theorem Conserved.of_frame {recorder : EventRecorder} (h : Conserved t)
    (hsound : recorder.Sound t.worker.inWrite) (hframe : t.recorder.Frame recorder) :
    Conserved { t with recorder } where
  sound := hsound
  alive := fun hrun => h.alive (hframe.running ▸ hrun)
  exited := fun hexit =>
    (hframe.jobs (h.not_running_of_exited hexit)).trans (h.exited hexit)
  idle := fun hrun hstop => by
    have hrun : t.recorder.running = false := hframe.running ▸ hrun
    exact ⟨(hframe.jobs hrun).trans (h.idle hrun hstop).1, (h.idle hrun hstop).2⟩

theorem Conserved.start {spawned : Bool} (h : Conserved t)
    (hs : t.step (.start spawned) = some t') : Conserved t' := by
  simp only [step] at hs
  split at hs
  · cases hs
  next hstopping =>
    cases hs
    have hstopping : t.stopping = false := by simpa using hstopping
    rcases EventRecorder.start_cases spawned t.recorder with
      ⟨accepting, hacc, hstart⟩ | ⟨hrun, hstart⟩
    · have hworker : (!t.recorder.running && t.recorder.running) = false := by simp
      simp only [hstart, hworker, Bool.false_eq_true, if_false]
      refine ⟨⟨h.sound.balanced, h.sound.queue, h.sound.gate, ?_⟩, h.alive, h.exited, h.idle⟩
      rintro (hyes | hactive)
      · exact (hacc hyes).elim id fun hold => h.sound.running (Or.inl hold)
      · exact h.sound.running (Or.inr hactive)
    · obtain ⟨hjobs, hworker⟩ := h.idle hrun hstopping
      simp only [hstart, hrun, Bool.not_false, Bool.and_self, if_true]
      refine ⟨⟨?_, h.sound.queue, h.sound.gate, fun _ => rfl⟩, ?_, by simp, by simp⟩
      · have := h.sound.balanced
        rw [hworker] at this
        exact this
      · simp [hstopping]

theorem Conserved.stop {throws : AllocStep → Bool} {joins : Bool} (h : Conserved t)
    (hstopping : t.stopping = false)
    {recorder : EventRecorder} (heq : t.recorder.stop throws = (recorder, .ok joins)) :
    Conserved { t with recorder, stopping := joins } := by
  obtain ⟨hsound, hjoins, hrun, -, -, hjobs⟩ := h.sound.stop heq
  refine ⟨hsound, fun hc => by simp [hrun] at hc, fun hexit => ?_, fun _ hstop => ?_⟩
  · exact (hjobs (h.not_running_of_exited hexit)).trans (h.exited hexit)
  · have hstopped : t.recorder.running = false := by rw [← hjoins]; exact hstop
    exact ⟨(hjobs hstopped).trans (h.idle hstopped hstopping).1, (h.idle hstopped hstopping).2⟩

/-- Taking a job moves one event from the queue to the writer. -/
theorem Conserved.takeJob {job : EventJob} {recorder : EventRecorder} (h : Conserved t)
    (hworker : t.worker = .waiting) (htake : t.recorder.takeJob = some (job, recorder)) :
    Conserved { t with recorder, worker := .writing job } := by
  unfold EventRecorder.takeJob at htake
  split at htake
  · cases htake
  next rest hjobs =>
    cases htake
    have hsound := h.sound
    rw [hworker] at hsound
    refine ⟨⟨?_, ?_, hsound.gate, hsound.running⟩, fun hrun => ?_, by simp, fun hrun hstop => ?_⟩
    · have hbalanced := hsound.balanced
      unfold EventRecorder.Balanced EventRecorder.held at hbalanced ⊢
      simp only [hjobs, List.length_cons, WorkerPhase.inWrite] at hbalanced ⊢
      omega
    · have hqueue := hsound.queue
      rw [hjobs, List.length_cons] at hqueue
      exact Nat.le_of_succ_le hqueue
    · exact ⟨by simp, by simp, (h.alive hrun).2.2⟩
    · simpa [hjobs] using (h.idle hrun hstop).1

theorem Conserved.write {job : EventJob} (h : Conserved t) (hworker : t.worker = .writing job)
    (outcome : EventRecorder.WriteOutcome) :
    let metrics := EventRecorder.writeEvent outcome job t.recorder.metrics
    Conserved { t with recorder := { t.recorder with metrics }, worker := .waiting } := by
  refine ⟨⟨?_, h.sound.queue, h.sound.gate, h.sound.running⟩, fun hrun => ?_, by simp,
    fun hrun hstop => ?_⟩
  · have hbalanced := h.sound.balanced
    rw [hworker] at hbalanced
    unfold EventRecorder.Balanced EventRecorder.held at hbalanced ⊢
    have hcounts := EventRecorder.writeEvent_counts outcome job t.recorder.metrics
    simp only [EventRecorder.countsOf, Prod.mk.injEq] at hcounts
    simp only [WorkerPhase.inWrite] at hbalanced ⊢
    omega
  · exact ⟨by simp, by simp, (h.alive hrun).2.2⟩
  · simpa [hworker] using (h.idle hrun hstop).2

theorem Conserved.calmStep {a : RecorderAction} (h : Conserved t)
    (hs : t.calmStep a = some t') : Conserved t' := by
  cases a with
  | setup usable =>
    have hs := (step_of_calmStep hs).2
    simp only [step] at hs
    split at hs
    · cases hs
    · cases hs
      unfold EventRecorder.initializeWith
      split <;>
        exact h.of_frame ⟨h.sound.balanced, h.sound.queue, h.sound.gate, h.sound.running⟩
          ⟨rfl, rfl, fun _ => rfl⟩
  | start spawned => exact h.start (step_of_calmStep hs).2
  | trigger throws call history =>
    obtain ⟨recorder, result, heq, rfl⟩ := calmStep_trigger hs
    obtain ⟨hsound, hframe, -⟩ := h.sound.trigger heq
    exact h.of_frame hsound hframe
  | observe throws unit =>
    obtain ⟨recorder, heq, rfl⟩ := calmStep_observe hs
    obtain ⟨hsound, hframe⟩ := h.sound.observeEncoded heq
    exact h.of_frame hsound hframe
  | stop throws =>
    obtain ⟨hstopping, recorder, joins, heq, rfl⟩ := calmStep_stop hs
    exact h.stop hstopping heq
  | joined =>
    have hs := (step_of_calmStep hs).2
    simp only [step] at hs
    split at hs
    next hwait =>
      cases hs
      simp only [Bool.and_eq_true, decide_eq_true_eq] at hwait
      have hrun := h.not_running_of_exited hwait.2
      refine ⟨?_, by simp [hrun], by simp, fun _ _ => ⟨h.exited hwait.2, rfl⟩⟩
      have hsound := h.sound
      rw [hwait.2] at hsound
      exact hsound
    · cases hs
  | takeJob =>
    have hs := (step_of_calmStep hs).2
    simp only [step] at hs
    split at hs
    next job recorder hworker htake =>
      cases hs
      exact h.takeJob hworker htake
    · cases hs
  | exit =>
    have hs := (step_of_calmStep hs).2
    simp only [step] at hs
    split at hs
    next hdone =>
      cases hs
      simp only [Bool.and_eq_true, decide_eq_true_eq, List.isEmpty_iff, Bool.not_eq_true'] at hdone
      obtain ⟨⟨hworker, hjobs⟩, hrun⟩ := hdone
      refine ⟨?_, by simp [hrun], fun _ => hjobs, fun _ hstop => ?_⟩
      · have hsound := h.sound
        rw [hworker] at hsound
        exact hsound
      · simpa [hworker] using (h.idle hrun hstop).2
    · cases hs
  | write outcome =>
    have hs := (step_of_calmStep hs).2
    simp only [step] at hs
    split at hs
    next job hworker =>
      cases hs
      exact h.write hworker outcome
    · cases hs

theorem conserved_of_reachable (h : Reachable calmStep (initial config) t) : Conserved t :=
  h.invariant Conserved (conserved_initial config) fun _ _ _ => Conserved.calmStep

/-- The step after which `stop` is back with its caller. -/
def stopReturns (t : RecorderThreads) : RecorderAction → Bool
  | .joined => true
  | .stop _ => !t.recorder.running
  | _ => false

/-- Behind the return of `stop` nothing runs and nobody waits. -/
theorem Conserved.stopped {a : RecorderAction} (h : Conserved t)
    (hs : RecorderThreads.calmStep t a = some t') (hreturns : t.stopReturns a = true) :
    t'.recorder.running = false ∧ t'.stopping = false := by
  cases a with
  | joined =>
    have hs := (step_of_calmStep hs).2
    simp only [step] at hs
    split at hs
    next hwait =>
      cases hs
      simp only [Bool.and_eq_true, decide_eq_true_eq] at hwait
      exact ⟨h.not_running_of_exited hwait.2, rfl⟩
    · cases hs
  | stop throws =>
    simp only [stopReturns, Bool.not_eq_true'] at hreturns
    obtain ⟨-, recorder, joins, heq, rfl⟩ := calmStep_stop hs
    obtain ⟨-, hjoins, hrun, -⟩ := h.sound.stop heq
    exact ⟨hrun, hjoins.trans hreturns⟩
  | setup | start | trigger | observe | takeJob | exit | write => cases hreturns

/-- **Conservation of events.** Every triggered event is completed, failed, queued, collected or
being written; the queue is bounded; every call of `trigger` that could record counts once; and
when `stop` returns nothing is left over. -/
theorem conservation (h : Reachable calmStep (initial config) t) :
    t.recorder.metrics.eventsTriggered =
        t.recorder.metrics.eventsCompleted + t.recorder.metrics.eventsFailed +
          t.recorder.jobs.length + (if t.recorder.active.isSome then 1 else 0) +
          t.worker.inWrite ∧
      t.recorder.jobs.length ≤ 2 ∧
      (∀ throws call history t', t.calmStep (.trigger throws call history) = some t' →
        t.recorder.records call = true → t.recorder.CountsOnce t'.recorder) ∧
      ∀ a t', t.calmStep a = some t' → t.stopReturns a = true →
        t'.recorder.metrics.eventsTriggered =
          t'.recorder.metrics.eventsCompleted + t'.recorder.metrics.eventsFailed := by
  have hconserved := conserved_of_reachable h
  refine ⟨?_, hconserved.sound.queue, ?_, ?_⟩
  · have := hconserved.sound.balanced
    unfold EventRecorder.Balanced EventRecorder.held at this
    omega
  · intro throws call history t' hs hrecords
    obtain ⟨recorder, result, heq, rfl⟩ := calmStep_trigger hs
    exact (hconserved.sound.trigger heq).2.2 hrecords
  · intro a t' hs hreturns
    have hafter := hconserved.calmStep hs
    have hdone := hconserved.stopped hs hreturns
    obtain ⟨hjobs, hworker⟩ := hafter.idle hdone.1 hdone.2
    have hactive : t'.recorder.active.isSome = false := by
      by_contra hc
      have := hafter.sound.running (Or.inr ((Bool.not_eq_false _).mp hc))
      simp [hdone.1] at this
    have hbalanced := hafter.sound.balanced
    rw [hworker] at hbalanced
    unfold EventRecorder.Balanced EventRecorder.held at hbalanced
    simpa [hjobs, hactive, WorkerPhase.inWrite] using hbalanced

/-- A frame with one detection. -/
def detectionAt (sensorTimestampNs : ℕ) : TriggerCall :=
  { frame := some { sequence := 1, sensorTimestampNs }, detections := [{}] }

/-- A ring that holds one independently decodable unit. -/
def keyframeAt (sensorTimestampNs : ℕ) : EncodedRingBuffer :=
  let ring : EncodedRingBuffer :=
    { retentionNs := 100, maxBytes := 100, retention_pos := by decide, maxBytes_pos := by decide }
  (ring.push (some (.ofTest sensorTimestampNs 1 true 1))).1

/-- One event from its trigger to the end of `stop`, which interrupts its post-roll. -/
def interruptedEvent : List RecorderAction :=
  [.setup true, .start true, .trigger (fun _ => false) (detectionAt 10) (keyframeAt 10),
    .observe (fun _ => false) (some (.ofTest 12 1 false 1)), .stop fun _ => false, .takeJob,
    .write ⟨true, .ok 3, .ok 5, true, true⟩, .exit, .joined]

theorem conservation_interruptedEvent :
    ∃ t, exec calmStep (initial ⟨true, 5, 10, 3⟩) interruptedEvent = some t ∧
      t.recorder.metrics.eventsTriggered = t.recorder.metrics.eventsCompleted +
        t.recorder.metrics.eventsFailed + t.recorder.jobs.length +
        (if t.recorder.active.isSome then 1 else 0) + t.worker.inWrite ∧
      t.recorder.metrics.eventsTriggered = 1 := by
  obtain ⟨t, ht, hone⟩ := (Option.any_eq_true
    (fun t : RecorderThreads => decide (t.recorder.metrics.eventsTriggered = 1))
    (exec calmStep (initial ⟨true, 5, 10, 3⟩) interruptedEvent)).mp (by decide)
  exact ⟨t, ht, (conservation (Reachable.refl.exec interruptedEvent ht)).1, of_decide_eq_true hone⟩

end RecorderThreads

end EggVision
