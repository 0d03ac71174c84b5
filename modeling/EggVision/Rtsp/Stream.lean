import EggVision.Lib.History
import EggVision.Rtsp.Epochs

/-!
# What a bound source receives

The feeder numbers the buffers of one source and waits for a keyframe before the first. Both start
over when it sees another generation of the source or of the encoder. The log of its decisions is
cut into streams: the units of one encoder generation for one binding.

## Main definitions

* `StreamInv` — how the feeder's variables continue its log
* `FeedInv` — one feeder after the other, each with generations of its own

## Main results

* `FeedInv.reachable`
* `source_of_generation` — a generation names one binding
* `step_log` — how the log grows
-/

namespace EggVision

open Transition History RtspState

namespace Feeder

variable {f : Feeder} {generation : ℕ}

/-- A unit that follows a buffer in its stream did not wait, and has a later place. -/
def Follows (buffer : GstBuffer) (e : FeedEntry) : Prop :=
  e.outcome ≠ .awaited ∧ ∀ next, e.buffer = some next → buffer.offset < next.offset

/-- The feeder's variables go on where its log ends. -/
structure StreamInv (f : Feeder) (generation : ℕ) : Prop where
  ordered : f.log.Pairwise fun a b => a.binding ≤ b.binding
  bounded : ∀ e ∈ f.log, e.binding ≤ f.observedGeneration
  current : f.observedGeneration ≤ generation
  item : ∀ item, f.phase = .offering item →
    item.binding = f.observedGeneration ∧
      f.observedEncoderGeneration = item.submitted.unit.generation ∧
      f.awaitingKeyframe = false ∧
      (item.opening = true → item.submitted.unit.independentlyDecodable = true)
  within : ∀ before a between b after buffer, f.log = before ++ a :: (between ++ b :: after) →
    a.buffer = some buffer → (∀ e ∈ between, a.SameStream e) → a.SameStream b → Follows buffer b
  continues : ∀ before a after buffer, f.log = before ++ a :: after → a.buffer = some buffer →
    (∀ e ∈ after, a.SameStream e) → f.observedGeneration = a.binding →
    (∀ item, f.phase = .offering item →
      item.submitted.unit.generation = a.submitted.unit.generation) →
    f.observedEncoderGeneration = a.submitted.unit.generation ∧
      f.awaitingKeyframe = false ∧ buffer.offset < f.frameIndex

theorem StreamInv.mono (h : StreamInv f generation) {later : ℕ} (hle : generation ≤ later) :
    StreamInv f later :=
  ⟨h.ordered, h.bounded, Nat.le_trans h.current hle, h.item, h.within, h.continues⟩

/-- Between two units only the place in the loop changes. -/
theorem StreamInv.setPhase (h : StreamInv f generation) {phase : FeederPhase}
    (hbefore : ∀ item, f.phase ≠ .offering item) (hafter : ∀ item, phase ≠ .offering item) :
    StreamInv { f with phase } generation := by
  refine ⟨h.ordered, h.bounded, h.current, fun item hitem => absurd hitem (hafter item),
    h.within, ?_⟩
  intro before a after buffer hlog hbuffer hsame hobserved _
  exact h.continues before a after buffer hlog hbuffer hsame hobserved
    fun item hitem => absurd hitem (hbefore item)

theorem StreamInv.begin (h : StreamInv f generation)
    (hfresh : ∀ e ∈ f.log, e.binding < generation) : StreamInv (f.begin generation) generation := by
  refine ⟨h.ordered, fun e he => Nat.le_of_lt (hfresh e he), Nat.le_refl _, by simp [Feeder.begin],
    h.within, ?_⟩
  intro before a after buffer hlog hbuffer hsame hobserved
  have : a ∈ f.log := by
    change f.log = _ at hlog
    simp [hlog]
  have := hfresh a this
  simp only [Feeder.begin] at hobserved
  omega

/-- One decision more: it has to follow the streams that the log ends with. -/
theorem StreamInv.within_snoc (h : StreamInv f generation) {x : FeedEntry}
    (hlast : ∀ before a after buffer, f.log = before ++ a :: after → a.buffer = some buffer →
      (∀ e ∈ after, a.SameStream e) → a.SameStream x → Follows buffer x) :
    ∀ before a between b after buffer, f.log ++ [x] = before ++ a :: (between ++ b :: after) →
      a.buffer = some buffer → (∀ e ∈ between, a.SameStream e) → a.SameStream b →
      Follows buffer b := by
  intro before a between b after buffer hlog hbuffer hbetween hb
  rcases append_cons_eq_snoc hlog with ⟨hnil, -, -⟩ | ⟨rest, hrest, hcut⟩
  · simp at hnil
  · rcases append_cons_eq_snoc hrest.symm with ⟨-, rfl, rfl⟩ | ⟨more, -, rfl⟩
    · exact hlast before a between buffer hcut hbuffer hbetween hb
    · exact h.within before a between b more buffer hcut hbuffer hbetween hb

@[simp] theorem observe_log (generation : ℕ) (unit : EncodedAccessUnit) (f : Feeder) :
    (f.observe generation unit).log = f.log := by
  unfold observe
  split <;> rfl

/-- `observe` starts over, or there is nothing to start over for. -/
theorem observe_cases (generation : ℕ) (unit : EncodedAccessUnit) (f : Feeder) :
    ((f.observe generation unit) = f ∧ generation = f.observedGeneration ∧
        f.observedEncoderGeneration = unit.generation) ∨
      ((generation ≠ f.observedGeneration ∨ f.observedEncoderGeneration ≠ unit.generation) ∧
        f.observe generation unit = { f with
          observedGeneration := generation
          observedEncoderGeneration := unit.generation
          frameIndex := 0
          awaitingKeyframe := true }) := by
  unfold observe
  split
  next h => exact Or.inr ⟨h, rfl⟩
  next h =>
    simp only [ne_eq, not_or, not_not] at h
    exact Or.inl ⟨rfl, h.1, h.2⟩

/-- A stream that the log ends with is continued by the next unit of the same stream. -/
theorem StreamInv.observe (h : StreamInv f generation) {submitted : Submitted}
    (hphase : f.phase = .popped submitted) {before after : List FeedEntry} {a : FeedEntry}
    {buffer : GstBuffer} (hlog : f.log = before ++ a :: after) (hbuffer : a.buffer = some buffer)
    (hsame : ∀ e ∈ after, a.SameStream e) (hbinding : a.binding = generation)
    (hgeneration : submitted.unit.generation = a.submitted.unit.generation) :
    f.observe generation submitted.unit = f ∧ f.awaitingKeyframe = false ∧
      buffer.offset < f.frameIndex := by
  have hmem : a ∈ f.log := by simp [hlog]
  have hobserved : f.observedGeneration = a.binding := by
    have := h.bounded a hmem
    have := h.current
    omega
  obtain ⟨hencoder, hawaiting, hoffset⟩ :=
    h.continues before a after buffer hlog hbuffer hsame hobserved (by simp [hphase])
  refine ⟨?_, hawaiting, hoffset⟩
  rcases observe_cases generation submitted.unit f with ⟨heq, -⟩ | ⟨hreset, -⟩
  · exact heq
  · rcases hreset with hreset | hreset
    · exact absurd (hbinding.symm.trans hobserved.symm) hreset
    · exact absurd (hencoder.trans hgeneration.symm) hreset

/-- After a decision about a unit, the log grows in order. -/
theorem StreamInv.ordered_snoc (h : StreamInv f generation) {e : FeedEntry}
    (he : f.observedGeneration ≤ e.binding) :
    (f.log ++ [e]).Pairwise fun a b => a.binding ≤ b.binding := by
  refine List.pairwise_append.mpr ⟨h.ordered, List.pairwise_singleton _ _, ?_⟩
  intro a ha b hb
  rw [List.mem_singleton.mp hb]
  exact Nat.le_trans (h.bounded a ha) he

theorem StreamInv.screen (h : StreamInv f generation) {submitted : Submitted}
    (hphase : f.phase = .popped submitted) (source mediaGeneration : ℕ) :
    StreamInv (f.screen submitted source generation mediaGeneration) generation := by
  have hlog := observe_log generation submitted.unit f
  have hobserved : (f.observe generation submitted.unit).observedGeneration = generation ∧
      (f.observe generation submitted.unit).observedEncoderGeneration =
        submitted.unit.generation := by
    rcases observe_cases generation submitted.unit f with ⟨heq, hg, he⟩ | ⟨-, heq⟩
    · rw [heq]
      exact ⟨hg.symm, he⟩
    · rw [heq]
      exact ⟨rfl, rfl⟩
  unfold Feeder.screen
  simp only
  split
  next hawaited =>
    simp only [Bool.and_eq_true] at hawaited
    -- a unit that has to wait belongs to no stream that was begun
    have hnone : ∀ before a after buffer, f.log = before ++ a :: after → a.buffer = some buffer →
        (∀ e ∈ after, a.SameStream e) → a.binding = generation →
        submitted.unit.generation ≠ a.submitted.unit.generation := by
      intro before a after buffer hcut hbuffer hsame hbinding hgeneration
      obtain ⟨heq, hopen, -⟩ := h.observe hphase hcut hbuffer hsame hbinding hgeneration
      rw [heq, hopen] at hawaited
      cases hawaited.1
    refine ⟨?_, ?_, ?_, by simp, ?_, ?_⟩
    · simp only [hlog]
      exact h.ordered_snoc h.current
    · simp only [hlog, hobserved.1]
      intro e he
      rcases List.mem_append.mp he with he | he
      · exact Nat.le_trans (h.bounded e he) h.current
      · exact Nat.le_of_eq (congrArg FeedEntry.binding (List.mem_singleton.mp he))
    · simp only [hobserved.1, Nat.le_refl]
    · simp only [hlog]
      refine h.within_snoc fun before a after buffer hcut hbuffer hsame hx => ?_
      exact absurd hx.2 (hnone before a after buffer hcut hbuffer hsame hx.1.symm)
    · simp only [hlog, hobserved.1, hobserved.2]
      intro before a after buffer hsplit hbuffer hsame
      rcases append_cons_eq_snoc hsplit with ⟨-, rfl, -⟩ | ⟨rest, rfl, hcut⟩
      · cases hbuffer
      · have hlast := hsame _ (List.mem_append_right _ (List.mem_singleton_self _))
        exact absurd hlast.2 (hnone before a rest buffer hcut hbuffer
          (fun e he => hsame e (List.mem_append_left _ he)) hlast.1.symm)
  next hadmitted =>
    refine ⟨?_, ?_, ?_, ?_, ?_, ?_⟩
    · simp only [hlog]
      exact h.ordered
    · simp only [hlog, hobserved.1]
      exact fun e he => Nat.le_trans (h.bounded e he) h.current
    · simp only [hobserved.1, Nat.le_refl]
    · intro item hitem
      cases hitem
      refine ⟨hobserved.1.symm, hobserved.2, rfl, fun hopening => ?_⟩
      simpa [show (f.observe generation submitted.unit).awaitingKeyframe = true from hopening]
        using hadmitted
    · simp only [hlog]
      exact h.within
    · simp only [hlog, hobserved.1, hobserved.2]
      intro before a after buffer hcut hbuffer hsame hbinding hitem
      have hgeneration := hitem _ rfl
      obtain ⟨heq, -, hoffset⟩ := h.observe hphase hcut hbuffer hsame hbinding.symm hgeneration
      exact ⟨hgeneration, trivial, by rwa [heq]⟩

/-- What `offer` leaves behind: one decision more, and one frame index used up. -/
theorem offer_spec (fps : ℕ) (allocated : Bool) (flow : FlowReturn) (item : FeedItem)
    (f : Feeder) :
    ∃ e phase, f.offer fps allocated flow item =
        { f with phase, frameIndex := f.frameIndex + 1, log := f.log ++ [e] } ∧
      e.submitted = item.submitted ∧ e.binding = item.binding ∧ e.source = item.source ∧
      e.outcome ≠ .awaited ∧ (∀ item, phase ≠ .offering item) ∧ phase ≠ .starting ∧
      (∀ buffer, e.buffer = some buffer →
        buffer.pts = presentationTime fps f.frameIndex ∧ buffer.offset = f.frameIndex) ∧
      e.accepted = ((makeBuffer fps allocated item.submitted.unit f.frameIndex).isSome &&
        decide (flow = .ok)) := by
  unfold Feeder.offer
  cases hbuffer : makeBuffer fps allocated item.submitted.unit f.frameIndex with
  | none =>
    exact ⟨_, _, rfl, rfl, rfl, rfl, by rintro ⟨⟩, by rintro _ ⟨⟩, by rintro ⟨⟩, by rintro _ ⟨⟩,
      rfl⟩
  | some buffer =>
    refine ⟨_, _, rfl, rfl, rfl, rfl, by rintro ⟨⟩, by rintro _ ⟨⟩, by rintro ⟨⟩, ?_, rfl⟩
    rintro _ ⟨⟩
    exact makeBuffer_pts hbuffer

theorem StreamInv.offer (h : StreamInv f generation) {item : FeedItem}
    (hphase : f.phase = .offering item) (fps : ℕ) (allocated : Bool) (flow : FlowReturn) :
    StreamInv (f.offer fps allocated flow item) generation := by
  obtain ⟨e, phase, heq, hsubmitted, hbinding, -, houtcome, hnext, -, hbuffer, -⟩ :=
    offer_spec fps allocated flow item f
  obtain ⟨hobserved, hencoder, hawaiting, -⟩ := h.item item hphase
  -- the offered unit goes on with the stream that the log ends with
  have hgo : ∀ before a after buffer, f.log = before ++ a :: after → a.buffer = some buffer →
      (∀ x ∈ after, a.SameStream x) → a.SameStream e →
      f.observedEncoderGeneration = a.submitted.unit.generation ∧
        buffer.offset < f.frameIndex := by
    intro before a after buffer hcut hsome hsame he
    obtain ⟨henc, -, hoffset⟩ := h.continues before a after buffer hcut hsome hsame
      (by rw [← he.1, hbinding, hobserved]) (by
        rintro _ hitem
        rw [hphase] at hitem
        cases hitem
        rw [← hsubmitted]
        exact he.2)
    exact ⟨henc, hoffset⟩
  rw [heq]
  refine ⟨?_, ?_, h.current, fun item hitem => absurd hitem (hnext item), ?_, ?_⟩
  · exact h.ordered_snoc (Nat.le_of_eq (by rw [hbinding, hobserved]))
  · intro x hx
    rcases List.mem_append.mp hx with hx | hx
    · exact h.bounded x hx
    · rw [List.mem_singleton.mp hx]
      exact Nat.le_of_eq (by rw [hbinding, hobserved])
  · refine h.within_snoc fun before a after buffer hcut hsome hsame he => ⟨houtcome, ?_⟩
    intro next hnextbuffer
    rw [(hbuffer next hnextbuffer).2]
    exact (hgo before a after buffer hcut hsome hsame he).2
  · intro before a after buffer hsplit hsome hsame _ _
    rcases append_cons_eq_snoc hsplit with ⟨rfl, rfl, rfl⟩ | ⟨rest, rfl, hcut⟩
    · refine ⟨?_, hawaiting, ?_⟩
      · rw [hsubmitted]
        exact hencoder
      · rw [(hbuffer buffer hsome).2]
        exact Nat.lt_succ_self _
    · obtain ⟨henc, hoffset⟩ := hgo before a rest buffer hcut hsome
        (fun x hx => hsame x (List.mem_append_left _ hx))
        (hsame e (List.mem_append_right _ (List.mem_singleton_self _)))
      exact ⟨henc, hawaiting, Nat.lt_succ_of_lt hoffset⟩

end Feeder

/-! ### One feeder after the other -/

/-- There is no feeder thread. -/
def Lifecycle.feederless : Lifecycle → Bool
  | .stopped => true
  | .starting stage => decide (stage ≠ .loop)
  | .started | .stopping .publish | .stopping .closeQueue | .stopping .joinFeeder => false
  | .stopping _ => true

/-- The last epoch has taken its generation along, and no feeder has begun since. -/
def Lifecycle.renewed : Lifecycle → Bool
  | .stopped | .stopping .release => true
  | .starting stage => decide (stage ≠ .loop)
  | .started | .stopping _ => false

theorem Lifecycle.feederless_of_renewed {phase : Lifecycle} (h : phase.renewed = true) :
    phase.feederless = true := by
  unfold Lifecycle.renewed at h
  split at h <;> simp_all [Lifecycle.feederless]

namespace RtspServer

variable {t t' : RtspServer} {a : RtspAction} {fps : ℕ}

/-- The feeder's log belongs to generations that are over whenever a new feeder begins. -/
structure FeedInv (t : RtspServer) : Prop where
  stream : t.feeder.StreamInv t.shared.generation
  absent : t.lifecycle.feederless = true → t.feeder.phase = .absent
  fresh : t.lifecycle.renewed = true ∨ t.feeder.phase = .starting →
    ∀ e ∈ t.feeder.log, e.binding < t.shared.generation

theorem rearms_step (hepoch : EpochInv t) (hs : t.step a = some t') :
    Rearms t.shared t'.shared := by
  rw [step_shared hs]
  cases hsec : t.entered a with
  | none => exact ⟨Nat.le_refl _, fun _ => rfl⟩
  | some sec =>
    refine Section.rearms ?_
    rintro now rfl
    exact hepoch.retired (by rw [entered_publishStart hsec]; rfl)

/-- `start` has no feeder before it comes to the loop, and has one from there on. -/
theorem startStep_feederless {stage : StartStage} (hphase : t.lifecycle = .starting stage)
    (env : OwnerEnv) :
    ((t.startStep stage env).lifecycle.feederless = true →
        t.lifecycle.feederless = true ∨ (t.startStep stage env).feeder.phase = .absent) ∧
      ((t.startStep stage env).lifecycle.renewed = true → t.lifecycle.renewed = true ∨
        (t.startStep stage env).shared.generation = t.shared.generation + 1) := by
  by_cases hloop : stage = .loop
  · subst hloop
    obtain ⟨ok, id, now, counted⟩ := env
    cases ok <;> exact ⟨by rintro ⟨⟩, by rintro ⟨⟩⟩
  · have hless : t.lifecycle.feederless = true ∧ t.lifecycle.renewed = true := by
      rw [hphase]
      simp [Lifecycle.feederless, Lifecycle.renewed, hloop]
    exact ⟨fun _ => Or.inl hless.1, fun _ => Or.inl hless.2⟩

theorem stopStep_feederless (hepoch : EpochInv t) {stage : StopStage}
    (hphase : t.lifecycle = .stopping stage) {env : OwnerEnv}
    (hs : t.stopStep stage env = some t') :
    (t'.lifecycle.feederless = true →
        t.lifecycle.feederless = true ∨ t'.feeder.phase = .absent) ∧
      (t'.lifecycle.renewed = true → t.lifecycle.renewed = true ∨
        t'.shared.generation = t.shared.generation + 1) := by
  cases stage with
  | publish =>
    have hrunning : t.shared.running = true := by rw [hepoch.running, hphase]; rfl
    simp only [RtspServer.stopStep, publishStop, hrunning] at hs
    cases hs
    exact ⟨by rintro ⟨⟩, by rintro ⟨⟩⟩
  | closeQueue =>
    cases hs
    exact ⟨by rintro ⟨⟩, by rintro ⟨⟩⟩
  | joinFeeder =>
    simp only [stopStep] at hs
    split at hs <;> cases hs
    exact ⟨fun _ => Or.inr rfl, by rintro ⟨⟩⟩
  | retire =>
    cases hs
    exact ⟨fun _ => Or.inl (by rw [hphase]; rfl), fun _ => Or.inr rfl⟩
  | release =>
    cases hs
    exact ⟨fun _ => Or.inl (by rw [hphase]; rfl), fun _ => Or.inl (by rw [hphase]; rfl)⟩
  | waitJob waitFor =>
    refine ⟨fun _ => Or.inl (by rw [hphase]; rfl), ?_⟩
    simp only [stopStep] at hs
    split at hs
    · cases hs
      rintro ⟨⟩
    · split at hs <;> cases hs
      exact Or.inl
  | joinWorker =>
    simp only [stopStep] at hs
    split at hs <;> cases hs
    exact ⟨fun _ => Or.inl (by rw [hphase]; rfl), by rintro ⟨⟩⟩
  | waitCallbacks =>
    simp only [stopStep] at hs
    split at hs <;> cases hs
    exact ⟨fun _ => Or.inl (by rw [hphase]; rfl), by rintro ⟨⟩⟩
  | _ =>
    cases hs
    exact ⟨fun _ => Or.inl (by rw [hphase]; rfl), by rintro ⟨⟩⟩

/-- How the owner gets to a point without a feeder, and to one with no binding of the last epoch. -/
theorem step_feederless (hepoch : EpochInv t) (hs : t.step a = some t') :
    (t'.lifecycle.feederless = true →
        t.lifecycle.feederless = true ∨ t'.feeder.phase = .absent) ∧
      (t'.lifecycle.renewed = true → t.lifecycle.renewed = true ∨
        t'.shared.generation = t.shared.generation + 1) := by
  by_cases hcall : ∃ call ok, a = .call call ok
  · obtain ⟨call, ok, rfl⟩ := hcall
    obtain ⟨hphase, rfl | rfl | ⟨hrunning, rfl⟩ | ⟨-, rfl⟩⟩ := callStep_cases hs
    · exact ⟨Or.inl, Or.inl⟩
    · exact ⟨Or.inl, Or.inl⟩
    · have hstopped : t.lifecycle = .stopped := hphase.resolve_right fun hstarted => by
        rw [hepoch.running, hstarted] at hrunning
        cases hrunning
      exact ⟨fun _ => Or.inl (by rw [hstopped]; rfl), fun _ => Or.inl (by rw [hstopped]; rfl)⟩
    · exact ⟨by rintro ⟨⟩, by rintro ⟨⟩⟩
  by_cases howner : ∃ env, a = .owner env
  · obtain ⟨env, rfl⟩ := howner
    rcases step_owner hs with ⟨stage, hphase, rfl⟩ | ⟨stage, hphase, hs⟩
    · exact startStep_feederless hphase env
    · exact stopStep_feederless hepoch hphase hs
  · rw [(step_epoch hs (by simpa using hcall) (by simpa using howner)).1]
    exact ⟨Or.inl, Or.inl⟩

/-- The feeder's own steps. -/
theorem FeedInv.feederStep (h : FeedInv t) {env : FeederEnv} (hs : t.feederStep env = some t') :
    t'.feeder.StreamInv t'.shared.generation ∧ t'.feeder.phase ≠ .starting := by
  rcases feederStep_cases hs with ⟨hphase, hshared, heq⟩ |
      ⟨phase, hbefore, hphase, hshared, heq⟩ | ⟨mediaGeneration, flow, hphase, hshared, heq⟩ |
      ⟨submitted, source, hphase, -, hshared, heq⟩ | ⟨item, hphase, hshared, heq⟩
  · rw [heq, hshared]
    exact ⟨h.stream.begin (h.fresh (Or.inr hphase)), by rintro ⟨⟩⟩
  · rw [heq, hshared]
    refine ⟨h.stream.setPhase (FeederPhase.not_offering hbefore)
      (FeederPhase.not_offering hphase), ?_⟩
    rintro rfl
    cases hphase
  · rw [heq, hshared, (SameSource.recordPush mediaGeneration flow t.shared).generation]
    exact ⟨h.stream.setPhase (by simp [hphase]) (by rintro _ ⟨⟩), by rintro ⟨⟩⟩
  · rw [heq, hshared]
    refine ⟨h.stream.screen hphase _ _, ?_⟩
    unfold Feeder.screen
    simp only
    split <;> rintro ⟨⟩
  · rw [heq, hshared]
    refine ⟨h.stream.offer hphase _ _ _, ?_⟩
    obtain ⟨e, phase, hoffer, -, -, -, -, -, hnext, -⟩ :=
      Feeder.offer_spec t.fps env.allocated env.flow item t.feeder
    simpa [hoffer] using hnext

theorem FeedInv.step (h : FeedInv t) (hepoch : EpochInv t) (hs : t.step a = some t') :
    FeedInv t' := by
  obtain ⟨hfeederless, hrenewed⟩ := step_feederless hepoch hs
  have hmono := (rearms_step hepoch hs).monotone
  by_cases hfeeder : ∃ env, a = .feeder env
  · obtain ⟨env, rfl⟩ := hfeeder
    obtain ⟨hstream, hstarting⟩ := h.feederStep hs
    have hsome : t.lifecycle.feederless = false := Bool.eq_false_iff.mpr fun hless => by
      simp [RtspServer.step, RtspServer.feederStep, h.absent hless] at hs
    have hsame := (step_epoch hs (by rintro _ _ ⟨⟩) (by rintro _ ⟨⟩)).1
    refine ⟨hstream, fun hless => ?_, ?_⟩
    · rw [hsame, hsome] at hless
      cases hless
    · rintro (hrenew | hphase)
      · have := Lifecycle.feederless_of_renewed hrenew
        rw [hsame, hsome] at this
        cases this
      · exact absurd hphase hstarting
  -- the log is left alone, and a new epoch leaves the generations in it behind
  have hfresh : t'.lifecycle.renewed = true →
      ∀ e ∈ t.feeder.log, e.binding < t'.shared.generation := by
    intro hrenew e he
    rcases hrenewed hrenew with hbefore | hgeneration
    · exact Nat.lt_of_lt_of_le (h.fresh (Or.inl hbefore) e he) hmono
    · have := h.stream.bounded e he
      have := h.stream.current
      omega
  rcases step_feeder hs (by simpa using hfeeder) with
    heq | ⟨hphase, hloop, heq⟩ | ⟨-, heq, hdone⟩
  · refine ⟨heq ▸ h.stream.mono hmono, fun hless => ?_, ?_⟩
    · rcases hfeederless hless with hbefore | habsent
      · rw [heq]
        exact h.absent hbefore
      · exact habsent
    · rw [heq]
      rintro (hrenew | hphase) e he
      · exact hfresh hrenew e he
      · exact Nat.lt_of_lt_of_le (h.fresh (Or.inr hphase) e he) hmono
  · have habsent := h.absent (by rw [hphase]; rfl)
    refine ⟨?_, fun hless => ?_, fun _ e he => ?_⟩
    · rw [heq]
      refine .mono (h.stream.setPhase (by simp [habsent]) ?_) hmono
      rintro _ ⟨⟩
    · rw [hloop] at hless
      cases hless
    · rw [heq] at he
      exact Nat.lt_of_lt_of_le (h.fresh (Or.inl (by rw [hphase]; rfl)) e he) hmono
  · refine ⟨?_, fun _ => by rw [heq], ?_⟩
    · rw [heq]
      refine .mono (h.stream.setPhase (fun item hitem => ?_) ?_) hmono
      · rcases hdone with hdone | hdone <;> rw [hdone] at hitem <;> cases hitem
      · rintro _ ⟨⟩
    · rw [heq]
      rintro (hrenew | hphase) e he
      · exact hfresh hrenew e he
      · cases hphase

theorem FeedInv.reachable (h : Reachable RtspServer.step (initial fps) t) : FeedInv t := by
  suffices h' : EpochInv t ∧ FeedInv t from h'.2
  refine h.invariant (fun t => EpochInv t ∧ FeedInv t) ⟨.initial fps, ?_⟩ ?_
  · refine ⟨?_, fun _ => rfl, fun _ => (by rintro _ ⟨⟩)⟩
    constructor <;> simp [initial]
  · rintro t a t' ⟨hepoch, hfeed⟩ hs
    exact ⟨hepoch.step hs, hfeed.step hepoch hs⟩

/-- **As long as the generation is the same, so is the bound source.** A generation read together
with a source therefore names one binding. -/
theorem source_of_generation {start s : RtspServer} (hstart : Reachable step (initial fps) start)
    (h : Reachable step start s) :
    start.shared.generation ≤ s.shared.generation ∧
      (s.shared.generation = start.shared.generation → s.shared.appsrc = start.shared.appsrc) := by
  suffices h' : EpochInv s ∧ Rearms start.shared s.shared from ⟨h'.2.monotone, h'.2.source⟩
  refine h.invariant (fun s => EpochInv s ∧ Rearms start.shared s.shared)
    ⟨.reachable hstart, Nat.le_refl _, fun _ => rfl⟩ ?_
  rintro s a s' ⟨hepoch, hrearms⟩ hs
  have hstep := rearms_step hepoch hs
  refine ⟨hepoch.step hs, Nat.le_trans hrearms.monotone hstep.monotone, fun heq => ?_⟩
  have := hrearms.monotone
  have := hstep.monotone
  exact (hstep.source (by omega)).trans (hrearms.source (by omega))

/-! ### The log, step by step -/

theorem step_fps (hs : t.step a = some t') : t'.fps = t.fps := by
  cases a with
  | call call ok => rcases callStep_cases hs with ⟨-, rfl | rfl | ⟨-, rfl⟩ | ⟨-, rfl⟩⟩ <;> rfl
  | owner env =>
    obtain ⟨_, _, _, _, _, _, _, _, _, rfl, -⟩ := ownerStep_frame hs
    rfl
  | signal signal =>
    obtain ⟨-, rfl⟩ := step_signal hs
    rfl
  | callback index env =>
    obtain ⟨_, _, _, _, rfl, -⟩ := step_callback hs
    rfl
  | tick now =>
    obtain ⟨-, -, _, _, rfl⟩ := step_tick hs
    rfl
  | watchdog env =>
    obtain ⟨_, _, _, _, _, _, rfl, -⟩ := watchdogStep_frame hs
    rfl
  | worker =>
    obtain ⟨_, rfl⟩ := step_worker hs
    rfl
  | feeder env =>
    obtain ⟨_, _, _, _, rfl, -⟩ := feederStep_frame hs
    rfl
  | submit unit =>
    obtain ⟨_, _, _, rfl⟩ := submitStep_frame hs
    rfl
  | submitNext =>
    obtain ⟨_, _, _, _, rfl, -⟩ := submitNextStep_frame hs
    rfl

/-- How the log grows: by a unit that has to wait, or by the one that was offered. -/
theorem step_log (hs : t.step a = some t') :
    t'.feeder.log = t.feeder.log ∨
      (∃ e submitted, t.feeder.phase = .popped submitted ∧ e.submitted = submitted ∧
        e.outcome = .awaited ∧ t'.feeder.log = t.feeder.log ++ [e]) ∨
      ∃ item env, t.feeder.phase = .offering item ∧ a = .feeder env ∧
        t'.feeder = t.feeder.offer t.fps env.allocated env.flow item := by
  by_cases hfeeder : ∃ env, a = .feeder env
  · obtain ⟨env, rfl⟩ := hfeeder
    rcases feederStep_cases hs with ⟨-, -, heq⟩ | ⟨phase, -, -, -, heq⟩ | ⟨-, -, -, -, heq⟩ |
        ⟨submitted, source, hphase, -, -, heq⟩ | ⟨item, hphase, -, heq⟩
    · exact Or.inl (by rw [heq]; rfl)
    · exact Or.inl (by rw [heq])
    · exact Or.inl (by rw [heq])
    · rw [heq]
      unfold Feeder.screen
      simp only [Feeder.observe_log]
      split
      · exact Or.inr (Or.inl ⟨_, submitted, hphase, rfl, rfl, rfl⟩)
      · exact Or.inl rfl
    · exact Or.inr (Or.inr ⟨item, env, hphase, rfl, heq⟩)
  · refine Or.inl ?_
    rcases step_feeder hs (by simpa using hfeeder) with heq | ⟨-, -, heq⟩ | ⟨-, heq, -⟩ <;> rw [heq]

/-- Between two decisions for one binding there are none for another. -/
theorem sameStream_between (h : Reachable step (initial fps) t)
    {before between after : List FeedEntry} {a b : FeedEntry}
    (hlog : t.feeder.log = before ++ a :: (between ++ b :: after))
    (hbinding : a.binding = b.binding)
    (hgeneration : ∀ e ∈ between ++ [b],
      e.submitted.unit.generation = a.submitted.unit.generation) :
    (∀ e ∈ between, a.SameStream e) ∧ a.SameStream b := by
  have hordered := (FeedInv.reachable h).stream.ordered
  rw [hlog] at hordered
  simp only [List.pairwise_append, List.pairwise_cons] at hordered
  obtain ⟨-, ⟨hafter, -, -, hbetween⟩, -⟩ := hordered
  refine ⟨fun e he => ⟨?_, hgeneration e (List.mem_append_left _ he)⟩,
    hbinding.symm, hgeneration b (by simp)⟩
  have hlow := hafter e (List.mem_append_left _ he)
  have hhigh := hbetween e he b (by simp)
  omega

/-! ### A stream of keyframes -/

/-- One unit on its way from `submit` to the source, with nothing in between. -/
def feedOne (unit : EncodedAccessUnit) (flow : FlowReturn) : List RtspAction :=
  [.submit (some unit), .submitNext, .submitNext, .feeder {}, .feeder {}, .feeder {},
    .feeder { flow }, .feeder {}]

/-- A source is bound, and the feeder waits for the first unit. -/
def readyToFeed : List RtspAction := startUp ++ configureMedia 10 20 ++ [.feeder {}]

/-- The keyframe of a stream of keyframes. -/
def keyUnit : EncodedAccessUnit := .ofTest 0 1 true 1

/-- What becomes of the keyframe with the given number. -/
def keyEntry (n : ℕ) : FeedEntry where
  submitted := { index := n, unit := keyUnit }
  binding := 2
  source := 20
  outcome := .pushed
    { payload := [0x5a], pts := presentationTime 30 n, dts := presentationTime 30 n
      duration := 100, offset := n, offsetEnd := n + 1, live := true, deltaUnit := false } .ok

/-- A server that has streamed so many keyframes to one source. -/
def streaming (n : ℕ) : RtspServer where
  fps := 30
  shared := {
    running := true
    server := true
    recoveryWorker := true
    generation := 2
    appsrc := some 20
    currentMedia := some 10
    currentFactory := some 1
    listenerSource := some 2
    watchdogSource := some 3
    acceptingClients := true
    mediaGeneration := 2
    observedStatus := .preparing }
  metrics := { rtspPushed := n }
  lifecycle := .started
  loop := true
  callbacksOpen := true
  watchdogAttached := true
  worker := { thread := .waiting }
  feeder := {
    phase := .checking
    observedGeneration := 2
    frameIndex := n
    observedEncoderGeneration := 1
    awaitingKeyframe := false
    log := (List.range n).map keyEntry }
  submissions := n

theorem streaming_succ (n : ℕ) :
    exec step (streaming n) (feedOne keyUnit .ok) = some (streaming (n + 1)) := by
  unfold streaming
  rw [List.range_succ, List.map_append]
  rfl

theorem reachable_streaming (n : ℕ) : Reachable step (initial 30) (streaming (n + 1)) := by
  induction n with
  | zero => exact Reachable.refl.exec (readyToFeed ++ feedOne keyUnit .ok) (by decide)
  | succ n ih => exact ih.exec (feedOne keyUnit .ok) (streaming_succ (n + 1))

end RtspServer

end EggVision
