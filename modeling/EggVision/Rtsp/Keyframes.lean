import EggVision.Rtsp.Stream

/-!
# The first unit of a binding

A new client has to start on a unit that can be decoded by itself. The feeder waits for one after
every rebinding, but stops waiting before it knows whether the source took it.

## Main definitions

* `OpensDecodable` — the first unit a binding accepts can be decoded by itself
* `losesOpening` — the steps that stop waiting for nothing

## Main results

* `opensDecodable_run` — when a client never starts on a delta frame
-/

namespace EggVision

open Transition RtspState

namespace RtspServer

variable {t t' : RtspServer} {a : RtspAction} {fps : ℕ}

/-- The first unit that was accepted on a binding. -/
def firstAccepted (binding : ℕ) (log : List FeedEntry) : Option FeedEntry :=
  log.find? fun e => e.accepted && decide (e.binding = binding)

/-- The first unit that each binding accepts can be decoded by itself. -/
def OpensDecodable (log : List FeedEntry) : Prop :=
  ∀ binding e, firstAccepted binding log = some e →
    e.submitted.unit.independentlyDecodable = true

theorem firstAccepted_snoc (binding : ℕ) (log : List FeedEntry) (x : FeedEntry) :
    firstAccepted binding (log ++ [x]) =
      (firstAccepted binding log).or
        (if x.accepted = true ∧ x.binding = binding then some x else none) := by
  simp [firstAccepted, List.find?_append, List.find?_singleton]

theorem OpensDecodable.snoc {log : List FeedEntry} (h : OpensDecodable log) {x : FeedEntry}
    (hx : x.accepted = true → firstAccepted x.binding log = none →
      x.submitted.unit.independentlyDecodable = true) : OpensDecodable (log ++ [x]) := by
  intro binding e he
  rw [firstAccepted_snoc] at he
  rcases Option.or_eq_some_iff.mp he with hold | ⟨hnone, hnew⟩
  · exact h binding e hold
  · obtain ⟨⟨haccepted, rfl⟩, heq⟩ := Option.ite_none_right_eq_some.mp hnew
    cases heq
    exact hx haccepted hnone

/-- The feeder stopped waiting because its source has accepted a unit, or because of the one that
it is about to offer. -/
def Keyed (f : Feeder) : Prop :=
  f.awaitingKeyframe = false →
    (∃ item, f.phase = .offering item ∧ item.opening = true) ∨
      (firstAccepted f.observedGeneration f.log).isSome = true

/-- The step opens the gate with a unit that the source does not get, though it has accepted
nothing yet: there is no buffer, or the push is not accepted. -/
def losesOpening (t : RtspServer) (a : RtspAction) : Bool :=
  match a, t.feeder.phase with
  | .feeder env, .offering item =>
    item.opening && (firstAccepted item.binding t.feeder.log).isNone &&
      !((makeBuffer t.fps env.allocated item.submitted.unit t.feeder.frameIndex).isSome &&
        decide (env.flow = .ok))
  | _, _ => false

theorem Keyed.setPhase {f : Feeder} (h : Keyed f) {phase : FeederPhase}
    (hbefore : ∀ item, f.phase ≠ .offering item) : Keyed { f with phase } := by
  intro hopen
  rcases h hopen with ⟨item, hitem, -⟩ | hsome
  · exact absurd hitem (hbefore item)
  · exact Or.inr hsome

theorem Keyed.screen {f : Feeder} (h : Keyed f) {submitted : Submitted}
    (hphase : f.phase = .popped submitted) (source generation mediaGeneration : ℕ) :
    Keyed (f.screen submitted source generation mediaGeneration) := by
  unfold Feeder.screen
  simp only
  split
  next hawaited =>
    intro hopen
    simp only [Bool.and_eq_true] at hawaited
    exact absurd hopen (by simp [hawaited.1])
  · intro _
    cases hawaiting : (f.observe generation submitted.unit).awaitingKeyframe with
    | true => exact Or.inl ⟨_, rfl, rfl⟩
    | false =>
      rcases Feeder.observe_cases generation submitted.unit f with ⟨heq, -⟩ | ⟨-, heq⟩
      · rw [heq] at hawaiting ⊢
        rcases h hawaiting with ⟨item, hitem, -⟩ | hsome
        · rw [hphase] at hitem
          cases hitem
        · exact Or.inr hsome
      · rw [heq] at hawaiting
        cases hawaiting

theorem Keyed.offer {f : Feeder} {generation : ℕ} (h : Keyed f) {item : FeedItem}
    (hphase : f.phase = .offering item) (hinv : f.StreamInv generation) {fps : ℕ}
    {allocated : Bool} {flow : FlowReturn}
    (hgood : item.opening = true → firstAccepted item.binding f.log = none →
      (makeBuffer fps allocated item.submitted.unit f.frameIndex).isSome = true ∧ flow = .ok) :
    Keyed (f.offer fps allocated flow item) := by
  obtain ⟨e, phase, heq, -, hbinding, -, -, -, -, -, haccepted⟩ :=
    Feeder.offer_spec fps allocated flow item f
  obtain ⟨hobserved, -⟩ := hinv.item item hphase
  rw [heq]
  intro hopen
  right
  simp only [firstAccepted_snoc]
  cases hfirst : firstAccepted f.observedGeneration f.log with
  | some first => rfl
  | none =>
    -- nothing is accepted yet, so this is the unit that opened the gate
    rcases h hopen with ⟨opened, hitem, hopening⟩ | hsome
    · rw [hphase] at hitem
      cases hitem
      obtain ⟨hbuffer, hflow⟩ := hgood hopening (by rw [hobserved]; exact hfirst)
      rw [if_pos ⟨by rw [haccepted, hbuffer, hflow]; rfl, hbinding.trans hobserved⟩]
      rfl
    · rw [hfirst] at hsome
      cases hsome

theorem losesOpening_offering {env : FeederEnv} {item : FeedItem}
    (hgood : t.losesOpening (.feeder env) = false) (hphase : t.feeder.phase = .offering item)
    (hopening : item.opening = true) (hfirst : firstAccepted item.binding t.feeder.log = none) :
    (makeBuffer t.fps env.allocated item.submitted.unit t.feeder.frameIndex).isSome = true ∧
      env.flow = .ok := by
  simpa [losesOpening, hphase, hopening, hfirst] using hgood

theorem Keyed.step (h : Keyed t.feeder) (hinv : FeedInv t) (hgood : t.losesOpening a = false)
    (hs : t.step a = some t') : Keyed t'.feeder := by
  by_cases hfeeder : ∃ env, a = .feeder env
  · obtain ⟨env, rfl⟩ := hfeeder
    rcases feederStep_cases hs with ⟨-, -, heq⟩ | ⟨phase, hbefore, -, -, heq⟩ |
        ⟨mediaGeneration, flow, hphase, -, heq⟩ | ⟨submitted, source, hphase, -, -, heq⟩ |
        ⟨item, hphase, -, heq⟩ <;> rw [heq]
    · rintro ⟨⟩
    · exact h.setPhase (FeederPhase.not_offering hbefore)
    · exact h.setPhase (by simp [hphase])
    · exact h.screen hphase _ _ _
    · exact h.offer hphase hinv.stream (losesOpening_offering hgood hphase)
  · rcases step_feeder hs (by simpa using hfeeder) with heq | ⟨hphase, -, heq⟩ | ⟨-, heq, hdone⟩ <;>
      rw [heq]
    · exact h
    · exact h.setPhase (by simp [hinv.absent (by rw [hphase]; rfl)])
    · exact h.setPhase fun item hitem => by
        rcases hdone with hdone | hdone <;> rw [hdone] at hitem <;> cases hitem

/-- The next unit a source accepts is not its first, or opened the gate. -/
theorem OpensDecodable.step (h : OpensDecodable t.feeder.log) (hkeyed : Keyed t.feeder)
    (hinv : FeedInv t) (hs : t.step a = some t') : OpensDecodable t'.feeder.log := by
  rcases step_log hs with heq | ⟨x, -, -, -, hx, heq⟩ | ⟨item, env, hphase, -, heq⟩
  · rw [heq]
    exact h
  · rw [heq]
    refine h.snoc fun haccepted _ => ?_
    simp [FeedEntry.accepted, hx] at haccepted
  · obtain ⟨x, phase, hoffer, hsubmitted, hbinding, -⟩ :=
      Feeder.offer_spec t.fps env.allocated env.flow item t.feeder
    obtain ⟨hobserved, -, hopen, hdecodable⟩ := hinv.stream.item item hphase
    rw [heq, hoffer]
    refine h.snoc fun _ hfirst => ?_
    rw [hsubmitted]
    rcases hkeyed hopen with ⟨opened, hitem, hopening⟩ | hsome
    · rw [hphase] at hitem
      cases hitem
      exact hdecodable hopening
    · rw [hbinding, hobserved] at hfirst
      rw [hfirst] at hsome
      cases hsome

/-- **A client never starts on a delta frame** in the runs in which every unit that opens the gate
of a source that has accepted nothing is accepted. -/
theorem opensDecodable_run {history : List (RtspServer × RtspAction)}
    (h : Run step (initial fps) history t)
    (hgood : ∀ x ∈ history, x.1.losesOpening x.2 = false) :
    (∀ x ∈ history, OpensDecodable x.1.feeder.log) ∧ OpensDecodable t.feeder.log := by
  obtain ⟨hall, hlast⟩ := h.forall_of
    (fun t => OpensDecodable t.feeder.log ∧ Keyed t.feeder)
    (fun t a => t.losesOpening a = false)
    ⟨by simp [OpensDecodable, firstAccepted, initial], by simp [Keyed, initial]⟩
    (fun t a t' hr ⟨hopens, hkeyed⟩ hgood hs =>
      have hinv := FeedInv.reachable hr
      ⟨hopens.step hkeyed hinv hs, hkeyed.step hinv hgood hs⟩) hgood
  exact ⟨fun x hx => (hall x hx).1, hlast.1⟩

/-- A keyframe and the delta frame after it, both accepted. -/
theorem opensDecodable_run_accepted :
    ∃ history t, Run step (initial 30) history t ∧ t.feeder.log.length = 2 ∧
      (∀ x ∈ history, OpensDecodable x.1.feeder.log) ∧ OpensDecodable t.feeder.log := by
  let actions := readyToFeed ++ feedOne keyUnit .ok ++ feedOne (.ofTest 1 1 false 1) .ok
  have hrun : Run step (initial 30) _ _ := Run.ofExec actions rfl
  exact ⟨_, _, hrun, rfl, opensDecodable_run hrun (by decide)⟩

/-- The source is still flushing when the keyframe comes: the keyframe is lost, the feeder does not
wait for another, and the first unit the source accepts is a delta frame. -/
theorem not_opensDecodable :
    ¬ ∀ fps t, Reachable step (initial fps) t → OpensDecodable t.feeder.log := by
  intro h
  obtain ⟨t, hr, hfirst⟩ := exists_reachable step (initial 30)
    (readyToFeed ++ feedOne keyUnit .flushing ++ feedOne (.ofTest 1 1 false 1) .ok)
    (fun t => ∃ e ∈ firstAccepted 2 t.feeder.log,
      e.submitted.unit.independentlyDecodable = false) (by decide)
  obtain ⟨e, he, hdelta⟩ := hfirst
  rw [h 30 t hr 2 e he] at hdelta
  cases hdelta

end RtspServer

end EggVision
