import EggVision.Event.WellFormed

/-!
# What the muxer accepts

Three places check an access unit before it is written. The ring takes no unit without payload, and
`muxVideo` refuses a clip that holds one. `observeEncoded`, which appends the post-roll, looks at
the generation and the timestamp only: one unit without payload that comes after the trigger makes
the whole event fail.

## Main definitions

* `appendsEmpty` — the step appends a unit without payload
* `Accepted` — the muxer gets past its entry checks

## Main results

* `accepted_iff` — the entry checks of `muxVideo`
* `finished_muxable` — without such a step the muxer accepts every clip
* `not_muxable` — a clip the muxer refuses
-/

namespace EggVision

open Transition

/-- `muxVideo` gets past its entry checks, and its result is that of the pipeline. -/
def Accepted (job : EventJob) : Prop :=
  ∀ muxed, EventRecorder.muxVideo job muxed = .ofOutcome muxed

/-- A clip in the making that the muxer will accept. -/
structure Muxable (event : EventJob) : Prop extends Opened event where
  nonempty : event.units ≠ []
  payload : ∀ unit ∈ event.units, unit.sizeBytes ≠ 0

namespace EventRecorder

/-- The entry checks of `muxVideo`. -/
theorem accepted_iff {job : EventJob} (hne : job.units ≠ []) :
    Accepted job ↔ (∀ front ∈ job.units.head?, front.independentlyDecodable = true) ∧
      ∀ unit ∈ job.units, unit.sizeBytes ≠ 0 ∧ unit.generation = job.generation := by
  obtain ⟨front, rest, hunits⟩ := List.exists_cons_of_ne_nil hne
  have hchecks : ((front :: rest).any fun unit =>
      unit.sizeBytes == 0 || unit.generation != job.generation) = false ↔
      ∀ unit ∈ front :: rest, unit.sizeBytes ≠ 0 ∧ unit.generation = job.generation := by
    simp only [List.any_eq_false, Bool.or_eq_true, beq_iff_eq, bne_iff_ne, not_or, ne_eq, not_not]
  rw [hunits, ← hchecks]
  unfold Accepted muxVideo
  rw [hunits]
  dsimp only
  cases hfront : front.independentlyDecodable with
  | false =>
    refine iff_of_false (fun h => ?_) (fun h => ?_)
    · cases h (.ok 0)
    · simpa [hfront] using h.1 front rfl
  | true =>
    cases hany : (front :: rest).any fun unit =>
        unit.sizeBytes == 0 || unit.generation != job.generation with
    | true =>
      refine iff_of_false (fun h => ?_) (fun h => by cases h.2)
      cases h (.ok 0)
    | false => exact iff_of_true (fun _ => rfl) ⟨by rintro _ ⟨⟩; exact hfront, rfl⟩

/-- `observeEncoded` appends a unit without payload. -/
def appendsEmpty (throws : AllocStep → Bool) (unit : EncodedAccessUnit) (r : EventRecorder) :
    Bool :=
  unit.sizeBytes == 0 && r.active.any fun event => r.extends? throws unit event

end EventRecorder

theorem Muxable.of_sameClip {event left : EventJob} (h : Muxable event)
    (hleft : SameClip event left) : Muxable left where
  toOpened := h.toOpened.of_sameClip hleft
  nonempty := by rw [hleft.units]; exact h.nonempty
  payload := by rw [hleft.units]; exact h.payload

theorem Muxable.append {event : EventJob} {unit : EncodedAccessUnit} (h : Muxable event)
    (hgen : unit.generation = event.generation)
    (hnew : ∀ back ∈ event.units.getLast?, back.sensorTimestampNs < unit.sensorTimestampNs)
    (hpayload : unit.sizeBytes ≠ 0) : Muxable { event with units := event.units ++ [unit] } where
  toOpened := h.toOpened.append h.nonempty hgen hnew
  nonempty := by simp
  payload := by
    intro other hother
    rcases List.mem_append.mp hother with hother | hother
    · exact h.payload other hother
    · rw [List.mem_singleton.mp hother]
      exact hpayload

theorem Muxable.accepted {event : EventJob} (h : Muxable event) : Accepted event :=
  (EventRecorder.accepted_iff h.nonempty).mpr
    ⟨h.independent, fun unit hunit => ⟨h.payload unit hunit, h.generation unit hunit⟩⟩

/-- The ring takes no unit without payload. -/
theorem EncodedRingBuffer.payload_push {ring : EncodedRingBuffer}
    (h : ∀ unit ∈ ring.units, unit.sizeBytes ≠ 0) (u : EncodedAccessUnit) :
    ∀ unit ∈ (ring.push (some u)).1.units, unit.sizeBytes ≠ 0 := by
  rcases push_cases ring u with ⟨hpush, -⟩ | ⟨-, haccepted, -⟩
  · rw [hpush]
    exact h
  · intro unit hunit
    rcases List.mem_append.mp ((push_units_suffix haccepted).subset hunit) with hunit | hunit
    · exact h unit hunit
    · rw [List.mem_singleton.mp hunit]
      intro hzero
      simp [rejection?, hzero] at haccepted

/-! ### The invariant -/

namespace Recording

variable {ring : EncodedRingBuffer} {config : EventConfig} {s s' : Recording}

/-- The step appends a unit without payload to the clip. -/
def appendsEmpty (s : Recording) : RecordingAction → Bool
  | .observe throws => s.pushed.any fun unit =>
      EventRecorder.appendsEmpty throws unit s.threads.recorder
  | .push _ | .trigger .. | .clear | .thread _ => false

/-- What holds in every reachable state when no unit without payload is appended, and no event is
left behind without units. -/
structure Acceptable (ring : EncodedRingBuffer) (s : Recording) : Prop where
  history : RingRun ring s
  payload : ∀ unit ∈ s.history.units, unit.sizeBytes ≠ 0
  events : s.threads.Events Muxable fun job => job.units ≠ [] → Accepted job

theorem acceptable_initial (config : EventConfig) (hunits : ring.units = []) :
    Acceptable ring (initial config ring) where
  history := ⟨[], rfl⟩
  payload := by
    change ∀ unit ∈ ring.units, unit.sizeBytes ≠ 0
    simp [hunits]
  events := ⟨by rintro _ ⟨⟩, by rintro _ ⟨⟩⟩

theorem Acceptable.trigger {retentionNs maxBytes : ℕ} (h : Acceptable ring s)
    (hring : EncodedRingBuffer.new retentionNs maxBytes = .ok ring) {throws : AllocStep → Bool}
    {call : TriggerCall} (hempty : s.strandsEmpty (.trigger throws call) = false) :
    (s.threads.recorder.trigger throws call s.history).1.Events Muxable
      fun job => job.units ≠ [] → Accepted job := by
  obtain ⟨hcoherent, hordered⟩ := h.history.ordered hring
  have hmuxable : ∀ frame, (s.threads.recorder.eventOf call frame s.history).units ≠ [] →
      Muxable (s.threads.recorder.eventOf call frame s.history) := fun frame hne =>
    { toOpened := EventRecorder.opened_eventOf hcoherent hordered _ _ _
      nonempty := hne
      payload := fun unit hunit => h.payload unit <|
        (EncodedRingBuffer.selectPreRoll_units_suffix _ _ _).subset
          ((copyUnits_start _ _).1.subset hunit) }
  exact EventRecorder.trigger_events hempty h.events.recorder (fun job hnil hne => absurd hnil hne)
    (fun frame hne _ => hmuxable frame hne)
    fun frame hne _ => ⟨fun _ => ((hmuxable frame hne).of_sameClip (.close _ _ _)).accepted,
      fun _ left hleft => (hmuxable frame hne).of_sameClip hleft⟩

theorem Acceptable.observe (h : Acceptable ring s) {unit : EncodedAccessUnit}
    (hpushed : s.pushed = some unit) {throws : AllocStep → Bool}
    (hgood : s.appendsEmpty (.observe throws) = false) :
    (s.threads.recorder.observeEncoded throws (some unit)).1.Events Muxable
      fun job => job.units ≠ [] → Accepted job := by
  refine EventRecorder.observeEncoded_events h.events.recorder (fun _ => id)
    (fun _ _ => Muxable.of_sameClip)
    (fun event error hevent _ => (hevent.of_sameClip (.close _ _ _)).accepted)
    fun event hevent hactive hextends => ?_
  have hpayload : unit.sizeBytes ≠ 0 := by
    intro hzero
    rw [Recording.appendsEmpty, hpushed, Option.any_some, EventRecorder.appendsEmpty, hactive,
      Option.any_some, hextends, hzero] at hgood
    cases hgood
  obtain ⟨hgen, hnew⟩ := EventRecorder.of_extends? hextends
  have hmuxable := hevent.append hgen hnew hpayload
  exact ⟨fun _ => hmuxable, fun _ => ⟨fun _ => (hmuxable.of_sameClip (.close _ _ _)).accepted,
    fun _ left hleft => hmuxable.of_sameClip hleft⟩⟩

theorem Acceptable.step {retentionNs maxBytes : ℕ} (h : Acceptable ring s)
    (hring : EncodedRingBuffer.new retentionNs maxBytes = .ok ring) {a : RecordingAction}
    (hempty : s.strandsEmpty a = false) (hgood : s.appendsEmpty a = false)
    (hs : s.step a = some s') : Acceptable ring s' := by
  have hhistory := h.history.step hs
  rcases step_cases hs with ⟨unit, rfl, hnone, rfl⟩ | ⟨rfl, rfl⟩ |
    ⟨throws, unit, rfl, hpushed, rfl⟩ | ⟨throws, call, rfl, rfl⟩ |
    ⟨b, threads, rfl, hown, hthreads, rfl⟩
  · exact ⟨hhistory, EncodedRingBuffer.payload_push h.payload unit, h.events⟩
  · exact ⟨hhistory, by rintro _ ⟨⟩, h.events⟩
  · exact ⟨hhistory, h.payload, h.events.of_recorder (fun _ => id) (h.observe hpushed hgood)⟩
  · exact ⟨hhistory, h.payload, h.events.of_recorder (fun _ => id) (h.trigger hring hempty)⟩
  · exact ⟨hhistory, h.payload, RecorderThreads.own_events hown hthreads h.events
      (fun _ _ => Muxable.of_sameClip)
      fun event error hevent _ => (hevent.of_sameClip (.close _ _ _)).accepted⟩

/-- **The muxer accepts every clip.** In a run from the constructor in which no unit without payload
is appended to a clip, and no exception leaves an event without units behind, `muxVideo` gets past
its entry checks with every finished job that has units. -/
theorem finished_muxable {retentionNs maxBytes : ℕ}
    (hring : EncodedRingBuffer.new retentionNs maxBytes = .ok ring)
    {history : List (Recording × RecordingAction)}
    (h : Run step (initial config ring) history s)
    (hempty : ∀ x ∈ history, x.1.strandsEmpty x.2 = false)
    (hgood : ∀ x ∈ history, x.1.appendsEmpty x.2 = false) :
    let Good := fun s : Recording => ∀ job ∈ s.threads.finished, job.units ≠ [] → Accepted job
    (∀ x ∈ history, Good x.1) ∧ Good s := by
  obtain ⟨hall, hlast⟩ := h.forall_of (Acceptable ring)
    (fun s a => s.strandsEmpty a = false ∧ s.appendsEmpty a = false)
    (acceptable_initial config (new_units hring))
    (fun _ _ _ _ hinv hgood => hinv.step hring hgood.1 hgood.2)
    fun x hx => ⟨hempty x hx, hgood x hx⟩
  exact ⟨fun x hx => (hall x hx).events.2, hlast.events.2⟩

/-- A rejected unit without payload comes before the trigger, and units with payload after it. -/
def emptyPreRoll : List RecordingAction :=
  afterKeyframe (deliver (.ofTest 11 1 false 0) ++ triggerAt 12 ::
    deliver (.ofTest 13 1 false 1) ++ deliver (.ofTest 20 1 false 1))

theorem finished_muxable_emptyPreRoll :
    ∃ ring history s, EncodedRingBuffer.new 100 100 = .ok ring ∧
      Run step (initial ⟨true, 5, 5, 3⟩ ring) history s ∧
      (∃ job ∈ s.threads.finished, job.units.length = 3) ∧
      ∀ job ∈ s.threads.finished, job.units ≠ [] → Accepted job := by
  have hring : EncodedRingBuffer.new 100 100 =
      .ok ⟨100, 100, [], 0, 0, 0, 0, 0, by decide, by decide⟩ := rfl
  obtain ⟨s, hs, hjob⟩ := (Option.any_eq_true
    (fun s : Recording => s.threads.finished.any fun job => decide (job.units.length = 3))
    (exec step (initial ⟨true, 5, 5, 3⟩ ⟨100, 100, [], 0, 0, 0, 0, 0, by decide, by decide⟩)
      emptyPreRoll)).mp (by decide)
  obtain ⟨job, hmem, hlen⟩ := List.any_eq_true.mp hjob
  have hrun := Run.ofExec emptyPreRoll hs
  exact ⟨_, _, s, hring, hrun, ⟨job, hmem, of_decide_eq_true hlen⟩,
    (finished_muxable hring hrun (by decide) (by decide)).2⟩

/-- A unit without payload in the post-roll. -/
def emptyPostRoll : List RecordingAction :=
  afterKeyframe (triggerAt 10 :: deliver (.ofTest 11 1 false 0) ++ deliver (.ofTest 20 1 false 1))

/-- The ring rejects the unit, the recorder appends it, and the muxer refuses the clip, with no
exception anywhere. -/
theorem not_muxable :
    ¬ ∀ (config : EventConfig) (retentionNs maxBytes : ℕ) (ring : EncodedRingBuffer)
        (s : Recording), EncodedRingBuffer.new retentionNs maxBytes = .ok ring →
        0 < config.eventPostNs → Reachable calmStep (initial config ring) s →
        ∀ job ∈ s.threads.finished, job.units ≠ [] → Accepted job := by
  let ring : EncodedRingBuffer := ⟨100, 100, [], 0, 0, 0, 0, 0, by decide, by decide⟩
  have hring : EncodedRingBuffer.new 100 100 = .ok ring := rfl
  intro h
  obtain ⟨s, hs, hbad⟩ := exists_reachable calmStep (initial ⟨true, 5, 5, 3⟩ ring) emptyPostRoll
    (fun s => ∃ job ∈ s.threads.finished, job.units ≠ [] ∧
      ∃ unit ∈ job.units, unit.sizeBytes = 0) (by decide)
  obtain ⟨job, hjob, hne, unit, hunit, hzero⟩ := hbad
  have haccepted := h _ _ _ _ s hring (by decide) hs job hjob hne
  exact (((EventRecorder.accepted_iff hne).mp haccepted).2 unit hunit).1 hzero

end Recording

end EggVision
