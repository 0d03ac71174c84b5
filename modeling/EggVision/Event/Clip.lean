import EggVision.Event.Threads
import EggVision.Lib.Thinning

/-!
# Clips and the stream they are cut from

The encoder consumer hands each access unit first to the ring and then to the recorder, so a trigger
may come between the two. A clip is stitched together from both sides: its pre-roll from the ring,
which rejects some units, and its post-roll from `observeEncoded`, which drops a unit that is not
newer than the last one of the clip. The second rule keeps the unit the trigger came after from
being recorded twice, and it also drops every later unit with an old timestamp.

## Main definitions

* `Recording` — the recorder, the ring and the stream delivered so far
* `CutFrom` — a clip, and the stretch of the stream it was cut from

## Main results

* `finished_cutFrom` — what a finished clip leaves out, and why
* `not_gapless` — three clips with a hole
-/

namespace EggVision

open Transition

/-! ### Frame facts -/

namespace EventRecorder

@[simp] theorem finishLocked_config (throws : AllocStep → Bool) (postComplete : Bool)
    (error : String) (r : EventRecorder) :
    (r.finishLocked throws postComplete error).1.config = r.config := by
  cases hactive : r.active with
  | none => simp [finishLocked, hactive]
  | some event =>
    rcases finishLocked_cases hactive throws postComplete error with
      ⟨-, hf⟩ | ⟨-, ⟨-, hf⟩ | ⟨-, -, hf⟩ | ⟨-, -, hf⟩⟩ <;> rw [hf] <;> rfl

@[simp] theorem startCollecting_config (throws : AllocStep → Bool) (hasIndependentStart : Bool)
    (event : EventJob) (r : EventRecorder) :
    (r.startCollecting throws hasIndependentStart event).1.config = r.config := by
  rcases startCollecting_cases throws hasIndependentStart event r with
    ⟨-, -, hs⟩ | ⟨-, -, hs⟩ | ⟨-, -, hs⟩ | ⟨-, -, hs⟩ <;> rw [hs] <;> simp [openEvent]

@[simp] theorem trigger_config (throws : AllocStep → Bool) (call : TriggerCall)
    (history : EncodedRingBuffer) (r : EventRecorder) :
    (r.trigger throws call history).1.config = r.config := by
  rcases trigger_cases throws call history r with
    ⟨-, hc⟩ | ⟨-, -, _, _, ⟨hc, -⟩ | hc⟩ | ⟨_, -, -, ⟨_, -, hc⟩ | ⟨-, hc⟩⟩ <;>
    rw [hc] <;> simp [suppress, begun, see]

@[simp] theorem observeEncoded_config (throws : AllocStep → Bool)
    (unit : Option EncodedAccessUnit) (r : EventRecorder) :
    (r.observeEncoded throws unit).1.config = r.config := by
  by_cases hidle : r.config.eventRecordingEnabled = false ∨ r.active = none
  · obtain ⟨_, hc⟩ := observeEncoded_idle hidle throws unit
    rw [hc]
  cases unit with
  | none => rfl
  | some unit =>
    obtain ⟨henabled, event, hactive⟩ : r.config.eventRecordingEnabled = true ∧
        ∃ event, r.active = some event := by
      simpa [Option.ne_none_iff_exists'] using hidle
    rcases observeEncoded_cases henabled hactive throws unit with
      ⟨-, hc⟩ | ⟨-, -, hc⟩ | ⟨-, -, ⟨-, hc⟩ | ⟨-, -, hc⟩ | ⟨-, -, hc⟩⟩ <;>
      rw [hc] <;> simp [see]

@[simp] theorem stop_config (throws : AllocStep → Bool) (r : EventRecorder) :
    (r.stop throws).1.config = r.config := by
  obtain ⟨running, hstop, -⟩ := stop_cases throws r
  rw [hstop]
  unfold interrupt
  dsimp only
  split
  · exact finishLocked_config ..
  · rfl

theorem enabled_of_admits {r : EventRecorder} {call : TriggerCall} {frame : FrameLease}
    (h : r.admits call frame = true) : r.config.eventRecordingEnabled = true := by
  simp only [admits, records, Bool.and_eq_true] at h
  exact h.1.1.1.1.1.1

end EventRecorder

namespace EncodedRingBuffer

/-- Rejection only looks at the byte limit. -/
theorem rejection?_congr {ring ring' : EncodedRingBuffer} (h : ring.maxBytes = ring'.maxBytes)
    (unit : EncodedAccessUnit) : ring.rejection? unit = ring'.rejection? unit := by
  unfold rejection?
  rw [h]

end EncodedRingBuffer

theorem copyUnits_start (requestedEnd : ℕ) (units : List EncodedAccessUnit) :
    (copyUnits requestedEnd units).1 <+: units ∧
      ((copyUnits requestedEnd units).2 = false → (copyUnits requestedEnd units).1 = units) := by
  induction units with
  | nil => exact ⟨List.prefix_refl _, fun _ => rfl⟩
  | cons unit rest ih =>
    rw [copyUnits]
    split
    · exact ⟨⟨rest, rfl⟩, fun h => by cases h⟩
    · obtain ⟨⟨post, hpost⟩, hall⟩ := ih
      exact ⟨⟨post, congrArg (unit :: ·) hpost⟩, fun h => congrArg (unit :: ·) (hall h)⟩

/-! ### The system -/

/-- The recorder threads, the ring they share with the encoder consumer, the unit that is in the
ring but not yet observed, and the stream so far. -/
structure Recording where
  threads : RecorderThreads
  history : EncodedRingBuffer
  pushed : Option EncodedAccessUnit := none
  delivered : List EncodedAccessUnit := []
deriving DecidableEq, Repr

/-- The steps: the two halves of the encoder consumer, a trigger, the `clear` of an encoder
recovery, and whatever the owner and the worker do. -/
inductive RecordingAction
  | push (unit : EncodedAccessUnit)
  | observe (throws : AllocStep → Bool)
  | trigger (throws : AllocStep → Bool) (call : TriggerCall)
  | clear
  | thread (a : RecorderAction)

/-- The actions of the owner and of the worker. -/
def RecorderAction.isOwn : RecorderAction → Bool
  | .trigger .. | .observe .. => false
  | .setup _ | .start _ | .stop _ | .joined | .takeJob | .exit | .write _ => true

/-- The job in the hands of the worker. -/
def WorkerPhase.inHand : WorkerPhase → List EventJob
  | .writing job => [job]
  | .absent | .waiting | .exited => []

/-- The jobs handed to the worker and not yet written. -/
def RecorderThreads.finished (t : RecorderThreads) : List EventJob :=
  t.recorder.jobs ++ t.worker.inHand

namespace Recording

/-- A constructed recorder on a constructed ring. -/
def initial (config : EventConfig) (ring : EncodedRingBuffer) : Recording :=
  { threads := .initial config, history := ring }

/-- The recorder's part of an action. -/
def recorderAction (s : Recording) : RecordingAction → Option RecorderAction
  | .push _ | .clear => none
  | .observe throws => s.pushed.map fun unit => .observe throws (some unit)
  | .trigger throws call => some (.trigger throws call s.history)
  | .thread a => if a.isOwn then some a else none

/-- The second half of the encoder consumer takes the unit. -/
def pushedAfter (s : Recording) : RecordingAction → Option EncodedAccessUnit
  | .observe _ => none
  | .push unit => some unit
  | .trigger .. | .clear | .thread _ => s.pushed

def step (s : Recording) (a : RecordingAction) : Option Recording :=
  match a with
  | .push unit =>
    if s.pushed.isSome then none
    else some { s with
      history := (s.history.push (some unit)).1
      pushed := s.pushedAfter a
      delivered := s.delivered ++ [unit] }
  | .clear => some { s with history := s.history.clear }
  | .observe _ | .trigger .. | .thread _ => do
    let threads ← s.threads.step (← s.recorderAction a)
    some { s with threads, pushed := s.pushedAfter a }

/-- The steps of runs that no exception leaves. -/
def calmStep (s : Recording) (a : RecordingAction) : Option Recording :=
  if ((s.recorderAction a).bind s.threads.leftBy).isNone then s.step a else none

end Recording

/-! ### Clips -/

/-- The timestamp does not exceed that of the last unit of the clip so far. -/
def NotNewer (units : List EncodedAccessUnit) (unit : EncodedAccessUnit) : Prop :=
  ∃ back, units.getLast? = some back ∧ unit.sensorTimestampNs ≤ back.sensorTimestampNs

/-- The pre-roll starts a stretch of the stream, and leaves out what the ring rejected. -/
def PreRollFrom (ring : EncodedRingBuffer) (first : EncodedAccessUnit)
    (recorded units : List EncodedAccessUnit) : Prop :=
  Thinning (fun _ unit => (ring.rejection? unit).isSome = true) [first] [first] recorded units

/-- The clip `units` is cut from the stretch `stretch` of the stream, which starts with its first
unit: the pre-roll leaves out what the ring rejected, and what follows it leaves out the units that
were not newer than the last one of the clip. -/
def CutFrom (ring : EncodedRingBuffer) (stretch units : List EncodedAccessUnit) : Prop :=
  ∃ first recorded preRoll, PreRollFrom ring first recorded preRoll ∧
    Thinning NotNewer recorded preRoll stretch units

variable {ring : EncodedRingBuffer} {stretch units : List EncodedAccessUnit}
  {u first : EncodedAccessUnit}

theorem PreRollFrom.cutFrom (h : PreRollFrom ring first stretch units) :
    CutFrom ring stretch units := ⟨first, stretch, units, h, .refl⟩

theorem CutFrom.keep (h : CutFrom ring stretch units) (u : EncodedAccessUnit) :
    CutFrom ring (stretch ++ [u]) (units ++ [u]) := by
  obtain ⟨first, recorded, preRoll, hpre, hpost⟩ := h
  exact ⟨first, recorded, preRoll, hpre, hpost.keep u⟩

theorem CutFrom.skip (h : CutFrom ring stretch units) (hu : NotNewer units u) :
    CutFrom ring (stretch ++ [u]) units := by
  obtain ⟨first, recorded, preRoll, hpre, hpost⟩ := h
  exact ⟨first, recorded, preRoll, hpre, hpost.skip u hu⟩

/-- If the ring holds anything, it holds the pre-roll of a last stretch of the stream. -/
def HoldsPreRoll (ring history : EncodedRingBuffer) (delivered : List EncodedAccessUnit) : Prop :=
  history.units ≠ [] → ∃ pre recorded first, delivered = pre ++ recorded ∧
    PreRollFrom ring first recorded history.units

theorem HoldsPreRoll.push {history : EncodedRingBuffer} {delivered : List EncodedAccessUnit}
    (h : HoldsPreRoll ring history delivered) (hlimit : history.maxBytes = ring.maxBytes)
    (u : EncodedAccessUnit) :
    HoldsPreRoll ring (history.push (some u)).1 (delivered ++ [u]) := by
  intro hne
  rcases EncodedRingBuffer.push_cases history u with ⟨hpush, -, hrejected⟩ | ⟨-, haccepted, -⟩
  · -- a rejected unit is one more that the pre-roll leaves out
    rw [hpush] at hne ⊢
    obtain ⟨pre, recorded, first, rfl, hpre⟩ := h hne
    rw [EncodedRingBuffer.rejection?_congr hlimit] at hrejected
    exact ⟨pre, recorded ++ [u], first, List.append_assoc _ _ _, hpre.skip u hrejected⟩
  · obtain ⟨dropped, hdropped⟩ := EncodedRingBuffer.push_units_suffix haccepted
    by_cases hempty : history.units = []
    · rw [hempty, List.nil_append] at hdropped
      obtain ⟨-, hu⟩ := (List.append_eq_singleton_iff.mp hdropped).resolve_right fun hc => hne hc.2
      exact ⟨delivered, [u], u, rfl, by rw [hu]; exact .refl⟩
    · obtain ⟨pre, recorded, first, rfl, hpre⟩ := h hempty
      obtain ⟨before, kept, g, hsplit, hkept⟩ :=
        Thinning.of_kept_suffix hne (hdropped ▸ hpre.keep u)
      exact ⟨pre ++ before, kept, g, by rw [List.append_assoc, List.append_assoc, hsplit], hkept⟩

/-- A first part of a selection from the ring is cut from the stream. -/
theorem HoldsPreRoll.cutFrom {history : EncodedRingBuffer} {delivered : List EncodedAccessUnit}
    (h : HoldsPreRoll ring history delivered) {selected rest : List EncodedAccessUnit}
    (hsuffix : selected ++ rest <:+ history.units) (hne : selected ≠ []) :
    ∃ pre recorded post first, delivered = pre ++ recorded ++ post ∧
      PreRollFrom ring first recorded selected ∧ (rest = [] → post = []) := by
  obtain ⟨dropped, hdropped⟩ := hsuffix
  have hall : selected ++ rest ≠ [] := by simp [hne]
  obtain ⟨pre, recorded, first, rfl, hpre⟩ := h (by rw [← hdropped]; simp [hne])
  obtain ⟨before, kept, g, rfl, hkept⟩ := Thinning.of_kept_suffix hall (hdropped ▸ hpre)
  by_cases hrest : rest = []
  · subst hrest
    rw [List.append_nil] at hkept
    exact ⟨pre ++ before, kept, [], g, by simp, hkept, fun _ => rfl⟩
  · have hfirst : [g] <+: selected :=
      List.prefix_of_prefix_length_le hkept.start_prefix (List.prefix_append _ _)
        (List.length_pos_of_ne_nil hne)
    obtain ⟨part, post, rfl, hpart⟩ := hkept.of_kept_prefix hfirst
    exact ⟨pre ++ before, part, post, g, by simp, hpart, fun hc => absurd hc hrest⟩

/-! ### The invariant -/

/-- The clip is cut from a stretch that ends with the stream. -/
def CutFromEnd (ring : EncodedRingBuffer) (delivered units : List EncodedAccessUnit) : Prop :=
  ∃ pre stretch, delivered = pre ++ stretch ∧ CutFrom ring stretch units

/-- What has been collected so far, while `pushed` is in the ring but not yet observed: the stretch
stops before that unit, or it ends with it, and then the clip ends with it too. -/
def Collected (ring : EncodedRingBuffer) (pushed : Option EncodedAccessUnit)
    (delivered units : List EncodedAccessUnit) : Prop :=
  match pushed with
  | none => CutFromEnd ring delivered units
  | some unit => ∃ past, delivered = past ++ [unit] ∧
      (CutFromEnd ring past units ∨
        CutFromEnd ring delivered units ∧ units.getLast? = some unit)

/-- A clip with units is cut from a stretch of the stream. -/
def Explained (ring : EncodedRingBuffer) (delivered units : List EncodedAccessUnit) : Prop :=
  units ≠ [] → ∃ pre stretch post, delivered = pre ++ stretch ++ post ∧ CutFrom ring stretch units

theorem CutFromEnd.explained {delivered : List EncodedAccessUnit}
    (h : CutFromEnd ring delivered units) : Explained ring delivered units := by
  obtain ⟨pre, stretch, rfl, hcut⟩ := h
  exact fun _ => ⟨pre, stretch, [], by simp, hcut⟩

theorem Explained.append {delivered : List EncodedAccessUnit}
    (h : Explained ring delivered units) (u : EncodedAccessUnit) :
    Explained ring (delivered ++ [u]) units := by
  intro hne
  obtain ⟨pre, stretch, post, rfl, hcut⟩ := h hne
  exact ⟨pre, stretch, post ++ [u], by simp, hcut⟩

theorem Collected.explained {pushed : Option EncodedAccessUnit}
    {delivered : List EncodedAccessUnit} (h : Collected ring pushed delivered units) :
    Explained ring delivered units := by
  cases pushed with
  | none => exact CutFromEnd.explained h
  | some unit =>
    obtain ⟨past, rfl, hcut | ⟨hcut, -⟩⟩ := h
    · exact hcut.explained.append unit
    · exact hcut.explained

/-- The whole selection, at the moment of the trigger: a unit that is still to be observed is its
last one, or the ring rejected it. -/
theorem HoldsPreRoll.collected {history : EncodedRingBuffer} {delivered : List EncodedAccessUnit}
    {pushed : Option EncodedAccessUnit} (h : HoldsPreRoll ring history delivered)
    (hpushed : ∀ unit, pushed = some unit → ∃ past, delivered = past ++ [unit])
    (hsuffix : units <:+ history.units) (hne : units ≠ []) :
    Collected ring pushed delivered units := by
  obtain ⟨pre, recorded, post, first, hsplit, hpre, hpost⟩ :=
    h.cutFrom (show units ++ [] <:+ history.units by simpa using hsuffix) hne
  rw [hpost rfl, List.append_nil] at hsplit
  cases pushed with
  | none => exact ⟨pre, recorded, hsplit, hpre.cutFrom⟩
  | some unit =>
    obtain ⟨past, hpast⟩ := hpushed unit rfl
    refine ⟨past, hpast, ?_⟩
    have hall : CutFromEnd ring delivered units := ⟨pre, recorded, hsplit, hpre.cutFrom⟩
    rcases List.eq_nil_or_concat recorded with rfl | ⟨front, last, rfl⟩
    · cases List.prefix_nil.mp hpre.read_prefix
    · rw [List.concat_eq_append] at hsplit hpre
      obtain ⟨hfront, heq⟩ := List.append_inj' (hpast.symm.trans
        (hsplit.trans (List.append_assoc _ _ _).symm)) rfl
      cases heq
      rcases hpre.snoc_cases with ⟨hstart, rfl⟩ | ⟨before, rfl, -⟩ | ⟨hskip, -⟩
      · refine Or.inr ⟨hall, ?_⟩
        rw [← hstart]
        simp
      · exact Or.inr ⟨hall, by simp⟩
      · exact Or.inl ⟨pre, front, hfront, PreRollFrom.cutFrom hskip⟩

/-- Apart from `stop`, the owner and the worker leave the collected event alone and only move jobs
on. -/
theorem RecorderThreads.step_own {t t' : RecorderThreads} {a : RecorderAction}
    (ha : a.isOwn = true) (hstop : ∀ throws, a ≠ .stop throws) (hs : t.step a = some t') :
    t'.recorder.config = t.recorder.config ∧ t'.recorder.active = t.recorder.active ∧
      ∀ job ∈ t'.finished, job ∈ t.finished := by
  cases a with
  | trigger | observe => cases ha
  | stop throws => exact absurd rfl (hstop throws)
  | setup usable =>
    simp only [step] at hs
    split at hs
    · cases hs
    · cases hs
      unfold EventRecorder.initializeWith
      split <;> exact ⟨rfl, rfl, fun _ => id⟩
  | start spawned =>
    simp only [step] at hs
    split at hs
    · cases hs
    · cases hs
      have hjobs : (t.recorder.start spawned).1.config = t.recorder.config ∧
          (t.recorder.start spawned).1.active = t.recorder.active ∧
          (t.recorder.start spawned).1.jobs = t.recorder.jobs := by
        rcases EventRecorder.start_cases spawned t.recorder with ⟨_, -, hstart⟩ | ⟨-, hstart⟩ <;>
          rw [hstart] <;> exact ⟨rfl, rfl, rfl⟩
      obtain ⟨hconfig, hactive, hjobs⟩ := hjobs
      refine ⟨hconfig, hactive, fun job hjob => ?_⟩
      rcases List.mem_append.mp hjob with hjob | hjob
      · exact List.mem_append_left _ (hjobs ▸ hjob)
      · dsimp only at hjob
        split at hjob
        · cases hjob
        · exact List.mem_append_right _ hjob
  | joined =>
    simp only [step] at hs
    split at hs
    · cases hs
      exact ⟨rfl, rfl, fun job hjob => List.mem_append_left _ (by
        simpa [RecorderThreads.finished, WorkerPhase.inHand] using hjob)⟩
    · cases hs
  | takeJob =>
    simp only [step] at hs
    split at hs
    next job recorder hworker htake =>
      cases hs
      unfold EventRecorder.takeJob at htake
      split at htake
      · cases htake
      next rest hjobs =>
        cases htake
        refine ⟨rfl, rfl, fun other hother => List.mem_append_left _ ?_⟩
        rw [hjobs]
        simpa [RecorderThreads.finished, WorkerPhase.inHand, or_comm] using hother
    · cases hs
  | exit =>
    simp only [step] at hs
    split at hs
    · cases hs
      exact ⟨rfl, rfl, fun job hjob => List.mem_append_left _ (by
        simpa [RecorderThreads.finished, WorkerPhase.inHand] using hjob)⟩
    · cases hs
  | write outcome =>
    simp only [step] at hs
    split at hs
    · cases hs
      exact ⟨rfl, rfl, fun job hjob => List.mem_append_left _ (by
        simpa [RecorderThreads.finished, WorkerPhase.inHand] using hjob)⟩
    · cases hs

/-- The owner and the worker only end the collected event and move jobs on. -/
theorem RecorderThreads.calmStep_own {t t' : RecorderThreads} {a : RecorderAction}
    (ha : a.isOwn = true) (hs : t.calmStep a = some t') :
    t'.recorder.config = t.recorder.config ∧
      (∀ event, t'.recorder.active = some event → t.recorder.active = some event) ∧
      ∀ job ∈ t'.finished, job ∈ t.finished ∨
        ∃ event, t.recorder.active = some event ∧ ∃ text, job = event.close false text := by
  by_cases hstop : ∃ throws, a = .stop throws
  · obtain ⟨throws, rfl⟩ := hstop
    obtain ⟨-, recorder, joins, heq, rfl⟩ := calmStep_stop hs
    have hconfig := EventRecorder.stop_config throws t.recorder
    rw [heq] at hconfig
    obtain ⟨hnone, hjobs⟩ := EventRecorder.stop_ok heq
    refine ⟨hconfig, fun event hevent => by simp [hnone] at hevent, fun job hjob => ?_⟩
    rcases List.mem_append.mp hjob with hjob | hjob
    · rcases hjobs with hjobs | ⟨event, hactive, hjobs⟩
      · exact Or.inl (List.mem_append_left _ (hjobs ▸ hjob))
      · rw [hjobs] at hjob
        rcases List.mem_append.mp hjob with hjob | hjob
        · exact Or.inl (List.mem_append_left _ hjob)
        · exact Or.inr ⟨event, hactive, _, List.mem_singleton.mp hjob⟩
    · exact Or.inl (List.mem_append_right _ hjob)
  · push Not at hstop
    obtain ⟨hconfig, hactive, hfinished⟩ := step_own ha hstop (step_of_calmStep hs).2
    exact ⟨hconfig, fun event hevent => hactive ▸ hevent,
      fun job hjob => Or.inl (hfinished job hjob)⟩

namespace Recording

variable {config : EventConfig} {s s' : Recording}

/-- What holds of the stream, the ring and the clips in every reachable state. -/
structure Stitched (ring : EncodedRingBuffer) (s : Recording) : Prop where
  limit : s.history.maxBytes = ring.maxBytes
  pending : ∀ unit, s.pushed = some unit → ∃ past, s.delivered = past ++ [unit]
  preRoll : HoldsPreRoll ring s.history s.delivered
  enabled : s.threads.recorder.active.isSome = true →
    s.threads.recorder.config.eventRecordingEnabled = true
  active : ∀ event, s.threads.recorder.active = some event →
    Collected ring s.pushed s.delivered event.units
  finished : ∀ job ∈ s.threads.finished, Explained ring s.delivered job.units

theorem stitched_initial (config : EventConfig) (hring : ring.units = []) :
    Stitched ring (initial config ring) where
  limit := rfl
  pending := by rintro _ ⟨⟩
  preRoll := fun hne => absurd hring hne
  enabled := fun h => by cases h
  active := by rintro _ ⟨⟩
  finished := by rintro _ ⟨⟩

/-- One action of the recorder's threads, with what it does to the events. -/
theorem Stitched.of_threads (h : Stitched ring s) {threads : RecorderThreads}
    {pushed : Option EncodedAccessUnit}
    (hpending : ∀ unit, pushed = some unit → s.pushed = some unit)
    (hconfig : threads.recorder.config = s.threads.recorder.config)
    (henabled : threads.recorder.active.isSome = true →
      s.threads.recorder.config.eventRecordingEnabled = true)
    (hactive : ∀ event, threads.recorder.active = some event →
      Collected ring pushed s.delivered event.units)
    (hfinished : ∀ job ∈ threads.finished, job ∈ s.threads.finished ∨
      Explained ring s.delivered job.units) :
    Stitched ring { s with threads, pushed } where
  limit := h.limit
  pending := fun unit hunit => h.pending unit (hpending unit hunit)
  preRoll := h.preRoll
  enabled := fun hsome => hconfig ▸ henabled hsome
  active := hactive
  finished := fun job hjob => (hfinished job hjob).elim (h.finished job) id

theorem Stitched.push (h : Stitched ring s) (u : EncodedAccessUnit) (hnone : s.pushed = none) :
    Stitched ring { s with
      history := (s.history.push (some u)).1
      pushed := some u
      delivered := s.delivered ++ [u] } where
  limit := (EncodedRingBuffer.push_maxBytes _ _).trans h.limit
  pending := fun unit hunit => ⟨s.delivered, by cases hunit; rfl⟩
  preRoll := h.preRoll.push h.limit u
  enabled := h.enabled
  active := fun event hevent => by
    have hcollected := h.active event hevent
    rw [hnone] at hcollected
    exact ⟨s.delivered, rfl, Or.inl hcollected⟩
  finished := fun job hjob => (h.finished job hjob).append u

/-- A recorder that queued at most one job. -/
theorem finished_of_jobs {t : RecorderThreads} {recorder : EventRecorder} {P : EventJob → Prop}
    (hjobs : recorder.jobs = t.recorder.jobs ∨
      ∃ job, recorder.jobs = t.recorder.jobs ++ [job] ∧ P job) :
    ∀ job ∈ RecorderThreads.finished { t with recorder }, job ∈ t.finished ∨ P job := by
  intro job hjob
  rcases List.mem_append.mp hjob with hjob | hjob
  · rcases hjobs with hjobs | ⟨other, hjobs, hp⟩
    · exact Or.inl (List.mem_append_left _ (hjobs ▸ hjob))
    · rw [hjobs] at hjob
      rcases List.mem_append.mp hjob with hjob | hjob
      · exact Or.inl (List.mem_append_left _ hjob)
      · exact Or.inr (List.mem_singleton.mp hjob ▸ hp)
  · exact Or.inl (List.mem_append_right _ hjob)

/-- The collected clip once the last pushed unit is observed and not newer. -/
theorem CutFromEnd.observe_old {past : List EncodedAccessUnit}
    (hcut : CutFromEnd ring past units ∨
      CutFromEnd ring (past ++ [u]) units ∧ units.getLast? = some u)
    (hold : NotNewer units u) : CutFromEnd ring (past ++ [u]) units := by
  rcases hcut with ⟨pre, stretch, rfl, hcut⟩ | ⟨hcut, -⟩
  · exact ⟨pre, stretch ++ [u], by simp, hcut.skip hold⟩
  · exact hcut

/-- The collected clip once the last pushed unit is observed and appended. -/
theorem CutFromEnd.observe_new {past : List EncodedAccessUnit}
    (hcut : CutFromEnd ring past units ∨
      CutFromEnd ring (past ++ [u]) units ∧ units.getLast? = some u)
    (hnew : ∀ back, units.getLast? = some back → back.sensorTimestampNs < u.sensorTimestampNs) :
    CutFromEnd ring (past ++ [u]) (units ++ [u]) := by
  rcases hcut with ⟨pre, stretch, rfl, hcut⟩ | ⟨-, hlast⟩
  · exact ⟨pre, stretch ++ [u], by simp, hcut.keep u⟩
  · exact absurd (hnew u hlast) (lt_irrefl _)

/-- What becomes of the events when the last pushed unit is observed. -/
theorem Stitched.observe (h : Stitched ring s) {unit : EncodedAccessUnit}
    (hpushed : s.pushed = some unit) {throws : AllocStep → Bool} {recorder : EventRecorder}
    (heq : s.threads.recorder.observeEncoded throws (some unit) = (recorder, .ok ())) :
    Stitched ring { s with threads := { s.threads with recorder }, pushed := none } := by
  have hconfig := EventRecorder.observeEncoded_config throws (some unit) s.threads.recorder
  rw [heq] at hconfig
  cases hactive : s.threads.recorder.active with
  | none =>
    obtain ⟨latest, hidle⟩ := EventRecorder.observeEncoded_idle (Or.inr hactive) throws (some unit)
    rw [hidle] at heq
    cases heq
    exact h.of_threads (by rintro _ ⟨⟩) rfl (fun hsome => by simp [hactive] at hsome)
      (fun event hevent => by simp [hactive] at hevent) fun job hjob => Or.inl hjob
  | some event =>
    have hon := h.enabled (by rw [hactive]; rfl)
    have hcollected := h.active event hactive
    rw [hpushed] at hcollected
    obtain ⟨past, hpast, hcut⟩ := hcollected
    have hexplained := (h.active event hactive).explained
    rw [hpast] at hcut hexplained
    rcases EventRecorder.observeEncoded_ok hon hactive heq with
      ⟨-, hnone, hjobs⟩ | ⟨-, hold, hsame, hjobs⟩ |
        ⟨-, hnew, ⟨-, hextended, hjobs⟩ | ⟨-, hnone, hjobs⟩⟩
    · -- the encoder started over
      refine h.of_threads (by rintro _ ⟨⟩) hconfig (fun _ => hon)
        (fun other hother => by simp [hnone] at hother) (finished_of_jobs ?_)
      exact hjobs.imp id fun hjob => ⟨_, hjob, by simpa [hpast] using hexplained⟩
    · refine h.of_threads (by rintro _ ⟨⟩) hconfig (fun _ => hon) (fun other hother => ?_)
        (finished_of_jobs (Or.inl hjobs))
      rw [hsame] at hother
      cases hother
      rw [hpast]
      exact CutFromEnd.observe_old hcut hold
    · refine h.of_threads (by rintro _ ⟨⟩) hconfig (fun _ => hon) (fun other hother => ?_)
        (finished_of_jobs (Or.inl hjobs))
      rw [hextended] at hother
      cases hother
      rw [hpast]
      exact CutFromEnd.observe_new hcut hnew
    · refine h.of_threads (by rintro _ ⟨⟩) hconfig (fun _ => hon)
        (fun other hother => by simp [hnone] at hother) (finished_of_jobs ?_)
      refine hjobs.imp id fun hjob => ⟨_, hjob, ?_⟩
      rw [EventJob.close_units, hpast]
      exact (CutFromEnd.observe_new hcut hnew).explained

/-- What becomes of the events at a trigger. -/
theorem Stitched.trigger (h : Stitched ring s) {throws : AllocStep → Bool} {call : TriggerCall}
    {recorder : EventRecorder} {result : Bool}
    (heq : s.threads.recorder.trigger throws call s.history = (recorder, .ok result)) :
    Stitched ring { s with threads := { s.threads with recorder } } := by
  have hconfig := EventRecorder.trigger_config throws call s.history s.threads.recorder
  rw [heq] at hconfig
  rcases EventRecorder.trigger_ok heq with
    ⟨hactive, hjobs⟩ | ⟨frame, -, hadmits, ⟨hactive, hne, hpost, hjobs⟩ | ⟨hnone, hjobs⟩⟩
  · refine h.of_threads (fun _ => id) hconfig ?_ ?_ (finished_of_jobs (Or.inl hjobs))
    · exact fun hsome => h.enabled (hactive ▸ hsome)
    · exact fun event hevent => h.active event (hactive.symm.trans hevent)
  · have hon := EventRecorder.enabled_of_admits hadmits
    refine h.of_threads (fun _ => id) hconfig (fun _ => hon) (fun event hevent => ?_)
      (finished_of_jobs (Or.inl hjobs))
    rw [hactive] at hevent
    cases hevent
    -- an event that goes on collecting has copied the whole selection
    refine h.preRoll.collected h.pending ?_ hne
    have hall : (s.threads.recorder.eventOf call frame s.history).units =
        (s.history.selectPreRoll frame.sensorTimestampNs
          s.threads.recorder.config.eventPreNs).units := (copyUnits_start _ _).2 hpost
    rw [hall]
    exact EncodedRingBuffer.selectPreRoll_units_suffix _ _ _
  · have hon := EventRecorder.enabled_of_admits hadmits
    refine h.of_threads (fun _ => id) hconfig (fun _ => hon)
      (fun event hevent => by simp [hnone] at hevent) (finished_of_jobs ?_)
    refine hjobs.imp id fun ⟨errors, postComplete, hjob⟩ => ⟨_, hjob, fun hne => ?_⟩
    rw [EventJob.close_units] at hne ⊢
    obtain ⟨rest, hrest⟩ := (copyUnits_start
      (saturatingAdd frame.sensorTimestampNs s.threads.recorder.config.eventPostNs)
      (s.history.selectPreRoll frame.sensorTimestampNs
        s.threads.recorder.config.eventPreNs).units).1
    obtain ⟨pre, recorded, post, first, hsplit, hpre, -⟩ := h.preRoll.cutFrom
      (hrest ▸ EncodedRingBuffer.selectPreRoll_units_suffix _ _ _) hne
    exact ⟨pre, recorded, post, hsplit, hpre.cutFrom⟩

/-- What each action does: the ring's, or a step of the threads. -/
theorem step_threads {a : RecordingAction} (hs : s.step a = some s') :
    (∃ unit, a = .push unit ∧ s.pushed = none ∧ s' = { s with
      history := (s.history.push (some unit)).1
      pushed := some unit
      delivered := s.delivered ++ [unit] }) ∨
    (a = .clear ∧ s' = { s with history := s.history.clear }) ∨
    ∃ b threads, s.recorderAction a = some b ∧ s.threads.step b = some threads ∧
      s' = { s with threads, pushed := s.pushedAfter a } := by
  have hthreads : (do
        let threads ← s.threads.step (← s.recorderAction a)
        some { s with threads, pushed := s.pushedAfter a }) = some s' →
      ∃ b threads, s.recorderAction a = some b ∧ s.threads.step b = some threads ∧
        s' = { s with threads, pushed := s.pushedAfter a } := by
    intro hbind
    obtain ⟨b, hb, hrest⟩ := Option.bind_eq_some_iff.mp hbind
    obtain ⟨threads, hstep, heq⟩ := Option.bind_eq_some_iff.mp hrest
    cases heq
    exact ⟨b, threads, hb, hstep, rfl⟩
  cases a with
  | push unit =>
    simp only [step] at hs
    split at hs
    · cases hs
    next hnone =>
      cases hs
      exact Or.inl ⟨unit, rfl, by simpa using hnone, rfl⟩
  | clear =>
    cases hs
    exact Or.inr (Or.inl ⟨rfl, rfl⟩)
  | observe | trigger | thread => exact Or.inr (Or.inr (hthreads hs))

/-- An action of the recorder's threads that no exception leaves is a calm step of theirs. -/
theorem calmStep_threads {a : RecordingAction} (hs : s.calmStep a = some s') :
    (∃ unit, a = .push unit ∧ s.pushed = none ∧ s' = { s with
      history := (s.history.push (some unit)).1
      pushed := some unit
      delivered := s.delivered ++ [unit] }) ∨
    (a = .clear ∧ s' = { s with history := s.history.clear }) ∨
    ∃ b threads, s.recorderAction a = some b ∧ s.threads.calmStep b = some threads ∧
      s' = { s with threads, pushed := s.pushedAfter a } := by
  unfold calmStep at hs
  split at hs
  next hcalm =>
    refine (step_threads hs).imp id (Or.imp id ?_)
    rintro ⟨b, threads, hb, hstep, rfl⟩
    rw [hb, Option.bind_some] at hcalm
    exact ⟨b, threads, hb, by simp [RecorderThreads.calmStep, hcalm, hstep], rfl⟩
  · cases hs

theorem Stitched.calmStep {a : RecordingAction} (h : Stitched ring s)
    (hs : s.calmStep a = some s') : Stitched ring s' := by
  rcases calmStep_threads hs with
    ⟨unit, rfl, hnone, rfl⟩ | ⟨rfl, rfl⟩ | ⟨b, threads, hb, hthreads, rfl⟩
  · exact h.push unit hnone
  · -- a cleared ring holds no pre-roll
    exact ⟨h.limit, h.pending, fun hne => absurd rfl hne, h.enabled, h.active, h.finished⟩
  · cases a with
    | push | clear => cases hb
    | observe throws =>
      cases hpushed : s.pushed with
      | none => simp [recorderAction, hpushed] at hb
      | some unit =>
        simp only [recorderAction, hpushed, Option.map_some, Option.some.injEq] at hb
        subst hb
        obtain ⟨recorder, heq, rfl⟩ := RecorderThreads.calmStep_observe hthreads
        exact h.observe hpushed heq
    | trigger throws call =>
      cases hb
      obtain ⟨recorder, result, heq, rfl⟩ := RecorderThreads.calmStep_trigger hthreads
      exact h.trigger heq
    | thread a =>
      simp only [recorderAction] at hb
      split at hb
      next hown =>
        cases hb
        obtain ⟨hconfig, hactive, hfinished⟩ := RecorderThreads.calmStep_own hown hthreads
        refine h.of_threads (fun _ => id) hconfig ?_ ?_ ?_
        · intro hsome
          obtain ⟨event, hevent⟩ := Option.isSome_iff_exists.mp hsome
          exact h.enabled (by rw [hactive event hevent]; rfl)
        · exact fun event hevent => h.active event (hactive event hevent)
        · intro job hjob
          refine (hfinished job hjob).imp id fun ⟨event, hevent, text, hclose⟩ => ?_
          rw [hclose, EventJob.close_units]
          exact (h.active event hevent).explained
      · cases hb

/-- The units of the job are a run of the stream, up to units of other generations. -/
def NoUnitLost (delivered : List EncodedAccessUnit) (job : EventJob) : Prop :=
  ∃ run, run <:+: delivered ∧ job.units = run.filter (·.generation = job.generation)

instance (delivered : List EncodedAccessUnit) (job : EventJob) :
    Decidable (NoUnitLost delivered job) :=
  decidable_of_iff (∃ run ∈ delivered.tails.flatMap List.inits,
      job.units = run.filter (·.generation = job.generation)) <| by
    refine exists_congr fun run => and_congr_left fun _ => ?_
    rw [List.mem_flatMap, List.infix_iff_prefix_suffix]
    exact exists_congr fun t => by rw [List.mem_tails, List.mem_inits, and_comm]

/-- Both halves of the encoder consumer. -/
def deliver (unit : EncodedAccessUnit) : List RecordingAction :=
  [.push unit, .observe fun _ => false]

/-- A recorder that has been started, with its encoder's first unit. -/
def afterKeyframe (more : List RecordingAction) : List RecordingAction :=
  .thread (.setup true) :: .thread (.start true) :: deliver (.ofTest 10 1 true 1) ++ more

def triggerAt (sensorTimestampNs : ℕ) : RecordingAction :=
  .trigger (fun _ => false) (RecorderThreads.detectionAt sensorTimestampNs)

/-- The unit after the trigger has the timestamp of the unit before it. -/
def equalTimestamps : List RecordingAction :=
  afterKeyframe (triggerAt 10 :: deliver (.ofTest 10 1 false 1) ++ deliver (.ofTest 20 1 false 1))

/-- The ring rejects one unit of the pre-roll for its size. -/
def oversizeUnit : List RecordingAction :=
  afterKeyframe (deliver (.ofTest 11 1 false 6) ++ deliver (.ofTest 12 1 false 1) ++
    triggerAt 12 :: deliver (.ofTest 20 1 false 1))

/-- An exception ends the call that was to append a unit. -/
def interruptedAppend : List RecordingAction :=
  afterKeyframe ([triggerAt 10, .push (.ofTest 11 1 false 1), .observe fun _ => true] ++
    deliver (.ofTest 20 1 false 1))

end Recording

end EggVision
