import EggVision.Encoder.Consumer
import EggVision.Event.MuxEntry

/-!
# From the camera's frames to the clip

The encoder's output thread hands every unit to its consumer, which puts it into the ring and lets
the recorder observe it. A recorder alone has to reckon with any stream of units; here the units are
those that the encoder makes of frames.

## Main definitions

* `Station` — the encoder with the ring and the recorder as its consumer

## Main results

* `footage` — a clip is an unbroken stretch of what was encoded, and shows frames of the camera
-/

namespace EggVision

open Transition

/-- A clip that is cut from units which the ring accepts, each newer than the one before it, is the
whole stretch. -/
theorem CutFrom.eq_stretch {ring : EncodedRingBuffer} {stretch units : List EncodedAccessUnit}
    (h : CutFrom ring stretch units)
    (haccepted : ∀ unit ∈ stretch, ring.rejection? unit = none)
    (hnewer : stretch.Pairwise fun u v => u.sensorTimestampNs < v.sensorTimestampNs) :
    units = stretch := by
  obtain ⟨first, recorded, preRoll, hpre, hpost⟩ := h
  have hrecorded : preRoll = recorded := by
    refine hpre.eq_of_forall fun front unit rest heq hrejected => ?_
    have hmem : unit ∈ stretch := hpost.read_prefix.subset (by rw [heq]; simp)
    rw [haccepted unit hmem] at hrejected
    cases hrejected
  subst hrecorded
  refine hpost.eq_of_forall ?_
  rintro front unit rest rfl ⟨back, hback, hle⟩
  have hlt := (List.pairwise_append.mp hnewer).2.2 back (List.mem_of_getLast? hback) unit (by simp)
  omega

theorem EncodedRingBuffer.new_maxBytes {retentionNs maxBytes : ℕ} {ring : EncodedRingBuffer}
    (hring : EncodedRingBuffer.new retentionNs maxBytes = .ok ring) : ring.maxBytes = maxBytes := by
  unfold EncodedRingBuffer.new at hring
  split_ifs at hring
  cases hring
  rfl

/-- The muxer's timestamps increase with those of the units. -/
theorem EventJob.localTimestamps_increasing {job : EventJob}
    (h : job.units.Pairwise fun u v => u.sensorTimestampNs < v.sensorTimestampNs) :
    job.localTimestamps.Pairwise (· < ·) := by
  cases hunits : job.units with
  | nil => simp [EventJob.localTimestamps, hunits]
  | cons front rest =>
    rw [hunits] at h
    have hfront : ∀ unit ∈ front :: rest, front.sensorTimestampNs ≤ unit.sensorTimestampNs := by
      intro unit hunit
      rcases List.mem_cons.mp hunit with rfl | hunit
      · exact le_rfl
      · exact ((List.pairwise_cons.mp h).1 unit hunit).le
    simp only [EventJob.localTimestamps, hunits]
    refine List.pairwise_map.mpr (h.imp_of_mem fun {u v} hu hv hlt => ?_)
    rw [localTimestamp, localTimestamp, if_pos (hfront u hu), if_pos (hfront v hv)]
    have := hfront u hu
    omega

namespace EncoderStream

variable {s s' : EncoderStream} {history : List (EncoderStream × StreamAction)} {fps maxBytes : ℕ}
  {a : StreamAction}

/-! ### The units that the ring takes -/

/-- The sample that the step makes a unit of. -/
def sampleOf (x : EncoderStream × StreamAction) : Option GstSample :=
  match x.2, x.1.output with
  | .output .., .mapping sample => some sample
  | _, _ => none

/-- No sample is empty or has more bytes than the ring takes. -/
def Sized (maxBytes : ℕ) (x : EncoderStream × StreamAction) : Prop :=
  ∀ sample ∈ sampleOf x, ∀ bytes ∈ sample.data, bytes ≠ [] ∧ bytes.length ≤ maxBytes

instance (maxBytes : ℕ) (x : EncoderStream × StreamAction) : Decidable (Sized maxBytes x) :=
  inferInstanceAs
    (Decidable (∀ sample ∈ sampleOf x, ∀ bytes ∈ sample.data, bytes ≠ [] ∧ bytes.length ≤ maxBytes))

/-- While nothing was started there is no output thread. -/
def Unstarted (s : EncoderStream) : Prop :=
  s.generation = 0 →
    s.output = .absent ∧ (s.owner = .idle ∨ s.owner = .closing ∨ s.owner = .joining)

theorem Unstarted.step (h : Unstarted s) (hs : s.step a = some s') : Unstarted s' := by
  intro hzero
  have hgeneration : s.generation = 0 := by
    have := step_generation hs
    omega
  obtain ⟨hout, howner⟩ := h hgeneration
  cases a with
  | submit frame refused =>
    obtain rfl := Option.some.inj hs
    unfold submit
    split <;> exact ⟨hout, howner⟩
  | input outcomes flow =>
    obtain ⟨_, _, _, _, _, _, rfl⟩ := inputStep_eq hs
    exact ⟨hout, howner⟩
  | lose index =>
    obtain rfl := Option.some.inj hs
    exact ⟨hout, howner⟩
  | output pulled throws =>
    simp [EncoderStream.step, outputStep, hout] at hs
  | bus message =>
    obtain ⟨_, _, _, _, _, rfl⟩ := busStep_eq hs
    exact ⟨hout, howner⟩
  | owner ok =>
    rcases howner with howner | howner | howner <;>
      simp only [EncoderStream.step, ownerStep, howner] at hs
    · cases hs
    · obtain rfl := Option.some.inj hs
      exact ⟨hout, .inr (.inr rfl)⟩
    · obtain ⟨-, hs⟩ := Option.ite_none_right_eq_some.mp hs
      obtain rfl := Option.some.inj hs
      exact ⟨rfl, .inl rfl⟩
  | initializeEncoder ok =>
    obtain ⟨-, hs⟩ := Option.ite_none_right_eq_some.mp hs
    rw [← Option.some.inj hs]
    split <;> exact ⟨hout, howner⟩
  | startEncoder =>
    obtain ⟨-, hs⟩ := Option.ite_none_right_eq_some.mp hs
    rw [← Option.some.inj hs] at hzero ⊢
    split_ifs at hzero ⊢
    · exact ⟨hout, howner⟩
    · exact ⟨hout, howner⟩
  | stopEncoder =>
    obtain ⟨-, hs⟩ := Option.ite_none_right_eq_some.mp hs
    rw [← Option.some.inj hs]
    exact ⟨hout, .inr (.inl rfl)⟩

/-- The unit has bytes, as many as the ring takes, and comes from an encoder that was started. -/
structure Filled (maxBytes : ℕ) (unit : EncodedAccessUnit) : Prop where
  payload : ∃ bytes, unit.payload = some bytes ∧ bytes ≠ [] ∧ bytes.length ≤ maxBytes
  generation : unit.generation ≠ 0

theorem Filled.accepted {ring : EncodedRingBuffer} {unit : EncodedAccessUnit}
    (h : Filled ring.maxBytes unit) (htimestamp : unit.sensorTimestampNs ≠ 0) :
    ring.rejection? unit = none := by
  obtain ⟨⟨bytes, hpayload, hbytes, hlength⟩, hgeneration⟩ := h
  have hsize : unit.sizeBytes = bytes.length := by rw [EncodedAccessUnit.sizeBytes, hpayload]
  have hpos : bytes.length ≠ 0 := fun hzero => hbytes (List.eq_nil_of_length_eq_zero hzero)
  rw [EncodedRingBuffer.rejection?, hsize, hpayload,
    if_neg (by simp [hpos, hgeneration, htimestamp]), if_neg (by omega)]

/-- What the ring takes, apart from the timestamp. -/
structure Filling (maxBytes : ℕ) (s : EncoderStream) : Prop where
  unstarted : Unstarted s
  made : ∀ unit ∈ s.made, Filled maxBytes unit

theorem filling_initial (fps : ℕ) : Filling maxBytes (initial fps) where
  unstarted := fun _ => ⟨rfl, .inl rfl⟩
  made := by simp [EncoderStream.made, inHand, initial]

theorem Filling.step (h : Filling maxBytes s) (hsized : Sized maxBytes (s, a))
    (hs : s.step a = some s') : Filling maxBytes s' := by
  refine ⟨h.unstarted.step hs, ?_⟩
  rcases step_handed hs with ⟨-, hdelivered, hinHand⟩ |
    ⟨pulled, throws, sample, bytes, rfl, hout, hbytes, hdelivered, hinHand⟩ |
    ⟨unit, -, hunit, hdelivered, hinHand⟩
  · rw [EncoderStream.made, hdelivered, hinHand]
    exact h.made
  · intro unit hmem
    rw [EncoderStream.made, hdelivered, hinHand] at hmem
    rcases List.mem_append.mp hmem with hmem | hmem
    · exact h.made unit (List.mem_append_left _ hmem)
    · obtain rfl : unit = _ := by simpa using hmem
      have hsample : sampleOf (s, .output pulled throws) = some sample := by
        simp only [sampleOf, hout]
      refine ⟨⟨bytes, rfl, hsized sample hsample bytes hbytes⟩, fun hzero => ?_⟩
      rw [(h.unstarted hzero).1] at hout
      cases hout
  · have hmade := h.made
    rw [EncoderStream.made, hunit] at hmade
    rw [EncoderStream.made, hdelivered, hinHand]
    simpa using hmade

theorem filling_of_run (h : Run step (initial fps) history s)
    (hsized : ∀ x ∈ history, Sized maxBytes x) : Filling maxBytes s :=
  (h.forall_of (Filling maxBytes) (fun s a => Sized maxBytes (s, a)) (filling_initial fps)
    (fun _ _ _ _ hfilling hgood hs => hfilling.step hgood hs) hsized).2

end EncoderStream

/-! ### The encoder and its consumer -/

/-- The encoder, with what its consumer hands the units to. -/
structure Station where
  encoder : EncoderStream
  recording : Recording

inductive StationAction
  | encoder (a : StreamAction)
  | recorder (a : RecordingAction)

/-- What a step is for the encoder: the consumer returns when the recorder has observed the unit. -/
def StationAction.streamAction : StationAction → Option StreamAction
  | .encoder a => some a
  | .recorder (.observe _) => some (.output none false)
  | .recorder _ => none

namespace Station

def initial (fps : ℕ) (config : EventConfig) (ring : EncodedRingBuffer) : Station :=
  { encoder := .initial fps, recording := .initial config ring }

/-- The steps of runs that no exception leaves. The consumer pushes the unit in hand and no other,
and returns by no other step than the one after it. -/
def step (s : Station) : StationAction → Option Station
  | .encoder a =>
    if s.encoder.returns a then none
    else (s.encoder.step a).map fun encoder => { s with encoder }
  | .recorder (.push unit) =>
    if s.encoder.inHand = some unit then
      (s.recording.calmStep (.push unit)).map fun recording => { s with recording }
    else none
  | .recorder (.observe throws) =>
    (s.recording.calmStep (.observe throws)).bind fun recording =>
      (s.encoder.step (.output none false)).map fun encoder => { encoder, recording }
  | .recorder a => (s.recording.calmStep a).map fun recording => { s with recording }

/-- The steps of the encoder in a run. -/
def encoderHistory (history : List (Station × StationAction)) :
    List (EncoderStream × StreamAction) :=
  history.filterMap fun x => x.2.streamAction.map fun a => (x.1.encoder, a)

variable {s s' : Station} {history : List (Station × StationAction)} {fps maxBytes : ℕ}
  {config : EventConfig} {ring : EncodedRingBuffer} {a : StationAction}

/-- Who takes part in a step. -/
theorem step_cases (hs : s.step a = some s') :
    (∃ b, a = .encoder b ∧ s.encoder.returns b = false ∧
      s.encoder.step b = some s'.encoder ∧ s'.recording = s.recording) ∨
    (∃ unit, a = .recorder (.push unit) ∧ s.encoder.inHand = some unit ∧
      s.recording.calmStep (.push unit) = some s'.recording ∧ s'.encoder = s.encoder) ∨
    (∃ throws, a = .recorder (.observe throws) ∧
      s.recording.calmStep (.observe throws) = some s'.recording ∧
      s.encoder.step (.output none false) = some s'.encoder) ∨
    ∃ b, a = .recorder b ∧ a.streamAction = none ∧ (∀ unit, b ≠ .push unit) ∧
      s.recording.calmStep b = some s'.recording ∧ s'.encoder = s.encoder := by
  have hmap : ∀ b, (s.recording.calmStep b).map (fun recording => { s with recording }) = some s' →
      s.recording.calmStep b = some s'.recording ∧ s'.encoder = s.encoder := by
    intro b hb
    obtain ⟨recording, hrecording, rfl⟩ := Option.map_eq_some_iff.mp hb
    exact ⟨hrecording, rfl⟩
  match a, hs with
  | .encoder b, hs =>
    obtain ⟨hreturns, hs⟩ := Option.ite_none_left_eq_some.mp hs
    obtain ⟨encoder, hencoder, rfl⟩ := Option.map_eq_some_iff.mp hs
    exact .inl ⟨b, rfl, by simpa using hreturns, hencoder, rfl⟩
  | .recorder (.push unit), hs =>
    obtain ⟨hunit, hs⟩ := Option.ite_none_right_eq_some.mp hs
    exact .inr (.inl ⟨unit, rfl, hunit, hmap _ hs⟩)
  | .recorder (.observe throws), hs =>
    obtain ⟨recording, hrecording, hs⟩ := Option.bind_eq_some_iff.mp hs
    obtain ⟨encoder, hencoder, rfl⟩ := Option.map_eq_some_iff.mp hs
    exact .inr (.inr (.inl ⟨throws, rfl, hrecording, hencoder⟩))
  | .recorder (.trigger ..), hs | .recorder .clear, hs | .recorder (.thread _), hs =>
    exact .inr (.inr (.inr ⟨_, rfl, rfl, by rintro _ ⟨⟩, hmap _ hs⟩))

/-- The encoder has a run of its own. -/
theorem encoder_run (h : Run step (initial fps config ring) history s) :
    Run EncoderStream.step (.initial fps) (encoderHistory history) s.encoder := by
  refine h.project encoder (fun _ a => a.streamAction) ?_ ?_
  · intro s a s' b hs hb
    rcases step_cases hs with ⟨c, rfl, -, hc, -⟩ | ⟨unit, rfl, -⟩ | ⟨throws, rfl, -, hc⟩ |
      ⟨c, -, hnone, -⟩
    · cases hb
      exact hc
    · cases hb
    · cases hb
      exact hc
    · rw [hnone] at hb
      cases hb
  · intro s a s' hs hb
    rcases step_cases hs with ⟨c, rfl, -⟩ | ⟨unit, rfl, -, -, heq⟩ | ⟨throws, rfl, -⟩ |
      ⟨c, -, -, -, -, heq⟩
    · cases hb
    · exact heq
    · cases hb
    · exact heq

/-- So does the recorder. -/
theorem recording_reachable (h : Run step (initial fps config ring) history s) :
    Reachable Recording.calmStep (.initial config ring) s.recording := by
  refine h.reachable.map recording fun s a s' hs => ?_
  rcases step_cases hs with ⟨c, -, -, -, heq⟩ | ⟨unit, -, -, hc, -⟩ | ⟨throws, -, hc, -⟩ |
    ⟨c, -, -, -, hc, -⟩
  · exact .inl heq
  · exact .inr ⟨_, hc⟩
  · exact .inr ⟨_, hc⟩
  · exact .inr ⟨_, hc⟩

/-- The recorder's stream is the encoder's, with the unit in hand from its push on. -/
structure Linked (s : Station) : Prop where
  delivered : s.recording.delivered = s.encoder.delivered ++ s.recording.pushed.toList
  inHand : ∀ unit, s.recording.pushed = some unit → s.encoder.inHand = some unit

theorem linked_initial (fps : ℕ) (config : EventConfig) (ring : EncodedRingBuffer) :
    Linked (initial fps config ring) := ⟨rfl, by rintro _ ⟨⟩⟩

theorem Linked.step (h : Linked s) (hs : s.step a = some s') : Linked s' := by
  rcases step_cases hs with ⟨b, rfl, hreturns, hencoder, heq⟩ |
    ⟨unit, rfl, hunit, hrecording, heq⟩ | ⟨throws, rfl, hrecording, hencoder⟩ |
    ⟨b, rfl, hnone, hpush, hrecording, heq⟩
  · rcases EncoderStream.step_handed hencoder with ⟨-, hdelivered, hinHand⟩ |
      ⟨pulled, throws, sample, bytes, rfl, hout, -, hdelivered, -⟩ | ⟨unit, htrue, -⟩
    · refine ⟨?_, ?_⟩
      · rw [heq, hdelivered]
        exact h.delivered
      · rw [heq, hinHand]
        exact h.inHand
    · -- nothing is in hand yet, so nothing was pushed
      have hempty : s.recording.pushed = none := by
        cases hpushed : s.recording.pushed with
        | none => rfl
        | some unit =>
          have := h.inHand unit hpushed
          simp [EncoderStream.inHand, hout] at this
      refine ⟨?_, ?_⟩
      · rw [heq, hdelivered]
        exact h.delivered
      · rw [heq, hempty]
        rintro _ ⟨⟩
    · rw [hreturns] at htrue
      cases htrue
  · rcases Recording.calmStep_threads hrecording with
      ⟨other, hother, hempty, hnext⟩ | ⟨hclear, -⟩ | ⟨_, _, hact, -⟩
    · cases hother
      have hdelivered := h.delivered
      rw [hempty, Option.toList_none, List.append_nil] at hdelivered
      refine ⟨?_, ?_⟩
      · rw [hnext, heq, hdelivered]
        rfl
      · rw [hnext, heq]
        rintro _ ⟨⟩
        exact hunit
    · cases hclear
    · cases hact
  · rcases Recording.calmStep_threads hrecording with
      ⟨_, hother, -⟩ | ⟨hclear, -⟩ | ⟨_, threads, hact, -, hnext⟩
    · cases hother
    · cases hclear
    · obtain ⟨unit, hpushed, -⟩ := Option.map_eq_some_iff.mp hact
      have hunit := h.inHand unit hpushed
      rcases EncoderStream.step_handed hencoder with ⟨hfalse, -⟩ |
        ⟨_, _, _, _, -, hout, -⟩ | ⟨other, -, hother, hdelivered, -⟩
      · simp [EncoderStream.returns, hunit] at hfalse
      · simp [EncoderStream.inHand, hout] at hunit
      · obtain rfl := Option.some.inj (hunit.symm.trans hother)
        refine ⟨?_, ?_⟩
        · rw [hnext, hdelivered]
          simpa [Recording.pushedAfter, hpushed] using h.delivered
        · rw [hnext]
          rintro _ ⟨⟩
  · have hkept : s'.recording.pushed = s.recording.pushed ∧
        s'.recording.delivered = s.recording.delivered := by
      rcases Recording.calmStep_threads hrecording with
        ⟨unit, hother, -⟩ | ⟨-, hnext⟩ | ⟨_, threads, -, -, hnext⟩
      · exact absurd hother (hpush unit)
      · rw [hnext]
        exact ⟨rfl, rfl⟩
      · rw [hnext]
        refine ⟨?_, rfl⟩
        cases b with
        | push unit => exact absurd rfl (hpush unit)
        | observe throws => cases hnone
        | trigger | clear | thread => rfl
    exact ⟨by rw [hkept.1, hkept.2, heq]; exact h.delivered,
      by rw [hkept.1, heq]; exact h.inHand⟩

/-- What the recorder was given is what the encoder made, but for a unit that was just made. -/
theorem Linked.prefix_made (h : Linked s) : s.recording.delivered <+: s.encoder.made := by
  rw [h.delivered, EncoderStream.made]
  cases hpushed : s.recording.pushed with
  | none => simp
  | some unit => rw [h.inHand unit hpushed]

/-! ### Every run -/

/-- What `footage` says of a clip. -/
structure Shows (shown : List (ℕ × ℕ)) (delivered : List EncodedAccessUnit) (job : EventJob) :
    Prop where
  unbroken : job.units <:+: delivered
  frames : (job.units.map EncoderStream.unitStamp).Sublist shown
  wellFormed : WellFormed delivered job
  forward : job.localTimestamps.Pairwise (· < ·)
  accepted : Accepted job

/-- **From frames to footage.** The encoder is given frames whose sensor timestamps increase, and
makes no unit that is empty or larger than the ring. Then every clip that is handed to the worker is
an unbroken stretch of the delivered units, its units are frames of the camera in their order, and
`muxVideo` accepts it, with timestamps that increase: whatever the threads of the encoder and of the
recorder do meanwhile, and however often the encoder fails and is started again. -/
theorem footage {retentionNs : ℕ} (hring : EncodedRingBuffer.new retentionNs maxBytes = .ok ring)
    (h : Run step (initial fps config ring) history s)
    (hkeeps : ∀ x ∈ encoderHistory history, EncoderStream.KeepsPts x)
    (hthreadless : ∀ x ∈ encoderHistory history, EncoderStream.StartsThreadless x)
    (hsized : ∀ x ∈ encoderHistory history, EncoderStream.Sized maxBytes x)
    (hnonzero : ∀ x ∈ EncoderStream.frames (encoderHistory history), x.2 ≠ 0)
    (hincreasing : (EncoderStream.frames (encoderHistory history)).Pairwise fun x y => x.2 < y.2)
    {job : EventJob} (hjob : job ∈ s.recording.threads.finished) (hne : job.units ≠ []) :
    Shows (EncoderStream.frames (encoderHistory history)) s.recording.delivered job := by
  have hrun := encoder_run h
  have hrecording := recording_reachable h
  have hlinked := h.reachable.invariant Linked (linked_initial fps config ring)
    fun _ _ _ => Linked.step
  have hfilling := EncoderStream.filling_of_run hrun hsized
  have hmade := EncoderStream.made_sublist hrun hkeeps hthreadless
    ⟨hnonzero, hincreasing.imp Nat.le_of_lt⟩
  have hdelivered : (s.recording.delivered.map EncoderStream.unitStamp).Sublist
      (EncoderStream.frames (encoderHistory history)) :=
    (hlinked.prefix_made.sublist.map _).trans hmade
  have haccepted : ∀ unit ∈ s.recording.delivered, ring.rejection? unit = none := by
    intro unit hunit
    have hfilled := hfilling.made unit (hlinked.prefix_made.subset hunit)
    rw [← EncodedRingBuffer.new_maxBytes hring] at hfilled
    exact hfilled.accepted (hnonzero _ (hdelivered.subset (List.mem_map_of_mem hunit)))
  have hnewer : s.recording.delivered.Pairwise fun u v =>
      u.sensorTimestampNs < v.sensorTimestampNs :=
    (List.pairwise_map (f := EncoderStream.unitStamp) (R := fun x y => x.2 < y.2)).mp
      (hincreasing.sublist hdelivered)
  have hstitched := hrecording.invariant (Recording.Stitched ring)
    (Recording.stitched_initial config (Recording.new_units hring))
    fun _ _ _ => Recording.Stitched.calmStep
  obtain ⟨pre, stretch, post, hsplit, hcut⟩ := hstitched.finished job hjob hne
  have hpart : stretch <:+: s.recording.delivered := ⟨pre, post, hsplit.symm⟩
  have hunits : job.units = stretch :=
    hcut.eq_stretch (fun unit hunit => haccepted unit (hpart.subset hunit))
      (hnewer.sublist hpart.sublist)
  rw [← hunits] at hpart
  have hwell := (Recording.wellFormed_of_calm hring hrecording hjob).1
  refine ⟨hpart, (hpart.sublist.map _).trans hdelivered, hwell,
    EventJob.localTimestamps_increasing (hnewer.sublist hpart.sublist), ?_⟩
  refine (EventRecorder.accepted_iff hne).mpr ⟨hwell.independent, fun unit hunit => ?_⟩
  obtain ⟨⟨bytes, hpayload, hbytes, -⟩, -⟩ :=
    hfilling.made unit (hlinked.prefix_made.subset (hpart.subset hunit))
  refine ⟨?_, hwell.generation unit hunit⟩
  rw [EncodedAccessUnit.sizeBytes, hpayload]
  exact fun hzero => hbytes (List.eq_nil_of_length_eq_zero hzero)

/-- A frame on its way through the encoder, into the ring and past the recorder. -/
def film (sensorTimestampNs : UInt64) (pts : ℕ) (bytes : List UInt8) : List StationAction :=
  (EncoderStream.encodeOne sensorTimestampNs pts bytes).map .encoder ++
    [.recorder (.push (accessUnit 30 5 1 (EncoderStream.sampleAt pts bytes) bytes)),
      .recorder (.observe fun _ => false)]

/-- A keyframe, the trigger, a frame that is lost, and two more. -/
def filmed : List StationAction :=
  [.recorder (.thread (.setup true)), .recorder (.thread (.start true))] ++
    EncoderStream.bringUp.map .encoder ++ film 5 0 EncoderStream.keyBytes ++
    [.recorder (Recording.triggerAt 5),
      .encoder (.submit { main := {}, sensorTimestampNs := 6 } false)] ++
    film 7 2 EncoderStream.deltaBytes ++ film 12 7 EncoderStream.deltaBytes

theorem footage_filmed : ∃ ring history s job, EncodedRingBuffer.new 100 100 = .ok ring ∧
    Run step (initial 30 ⟨true, 5, 5, 3⟩ ring) history s ∧
    job ∈ s.recording.threads.finished ∧
    job.units.map EncoderStream.unitStamp = [(1, 5), (1, 7), (1, 12)] ∧
    EncoderStream.frames (encoderHistory history) = [(1, 5), (1, 6), (1, 7), (1, 12)] ∧
    Shows (EncoderStream.frames (encoderHistory history)) s.recording.delivered job := by
  have hring : EncodedRingBuffer.new 100 100 =
      .ok ⟨100, 100, [], 0, 0, 0, 0, 0, by decide, by decide⟩ := rfl
  obtain ⟨s, hs, hjob⟩ := (Option.any_eq_true
    (fun s : Station => s.recording.threads.finished.any fun job =>
      job.units.map EncoderStream.unitStamp == [(1, 5), (1, 7), (1, 12)])
    (exec step (initial 30 ⟨true, 5, 5, 3⟩ ⟨100, 100, [], 0, 0, 0, 0, 0, by decide, by decide⟩)
      filmed)).mp (by decide)
  obtain ⟨job, hmem, hunits⟩ := List.any_eq_true.mp hjob
  have hunits := eq_of_beq hunits
  have hrun := Run.ofExec filmed hs
  have hframes : EncoderStream.frames (encoderHistory (trace step (initial 30 ⟨true, 5, 5, 3⟩
      ⟨100, 100, [], 0, 0, 0, 0, 0, by decide, by decide⟩) filmed)) =
        [(1, 5), (1, 6), (1, 7), (1, 12)] := by decide
  refine ⟨_, _, s, job, hring, hrun, hmem, hunits, hframes, ?_⟩
  refine footage hring hrun (by decide) (by decide) (by decide) ?_ ?_ hmem ?_
  · rw [hframes]
    decide
  · rw [hframes]
    decide
  · rintro hnil
    rw [hnil] at hunits
    cases hunits

end Station

end EggVision
