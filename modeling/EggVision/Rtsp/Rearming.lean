import EggVision.Rtsp.Pipeline

/-!
# Every source change re-arms the feeder

The bound source is written in seven places on several threads. Each of them raises the generation
that the feeder reads together with the source, and the feeder waits for a keyframe when it sees
another generation than before. Nothing but the last unit that was handed over therefore decides
whether the next one may be a delta frame.

## Main definitions

* `FeedEntry.HandedOver` — the unit got as far as `gst_app_src_push_buffer`
* `Opens` — every unit that is handed over can be decoded by itself or goes on with the stream of
  the one before
* `RtspAction.fills` — units have bytes, and buffers can be allocated

## Main results

* `Section.renumbers` — a section that changes the source raises the generation
* `submitted_of_underWay` — every unit on its way was submitted
* `rearmed_of_run` — what the feeder hands over first
-/

namespace EggVision

open Transition History RtspState

/-! ### The sections -/

namespace RtspState

/-- **A section that changes the bound source raises the generation.** `start` finds no source to
give up. -/
theorem Section.renumbers {sec : Section} {s : RtspState}
    (hstart : ∀ now, sec = .publishStart now → s.appsrc = none)
    (hchange : (sec.apply s).appsrc ≠ s.appsrc) :
    (sec.apply s).generation = s.generation + 1 := by
  cases hmoves : sec.movesSource with
  | false => exact absurd (sec.sameSource hmoves s).source hchange
  | true =>
    cases sec with
    | publishStart now => exact absurd (hstart now rfl).symm hchange
    | retireAll now => rfl
    | configure factory media now =>
      simp only [Section.apply, RtspState.configure] at hchange ⊢
      split at hchange
      next haccepted => rw [if_pos haccepted]
      · exact absurd rfl hchange
    | bind media source =>
      simp only [Section.apply, RtspState.bind] at hchange ⊢
      split at hchange
      · exact absurd rfl hchange
      next haccepted =>
        split at hchange
        · exact absurd rfl hchange
        next hother => rw [if_neg haccepted, if_neg hother]
    | unprepare media now =>
      simp only [Section.apply, RtspState.unprepare] at hchange ⊢
      split at hchange
      next hmedia =>
        rw [if_pos hmedia]
        simp only
        split <;> rfl
      · exact absurd rfl hchange
    | recoverMedia expected reason now id accepts =>
      simp only [Section.apply] at hchange ⊢
      rcases recoverMedia_cases expected reason now id accepts s with
        ⟨heq, -⟩ | ⟨-, -, heq⟩ | ⟨-, -, -, -, -, -, heq⟩
      · exact absurd (by rw [heq]) hchange
      · exact absurd (by rw [heq]; rfl) hchange
      · rw [heq]
        rfl
    | _ => cases hmoves

end RtspState

/-! ### What is handed over -/

namespace FeedEntry

/-- The unit was handed to `gst_app_src_push_buffer`. -/
def HandedOver (e : FeedEntry) : Prop := e.buffer.isSome = true

instance (e : FeedEntry) : Decidable e.HandedOver :=
  inferInstanceAs (Decidable (e.buffer.isSome = true))

end FeedEntry

namespace Feeder

variable {f : Feeder}

/-- Every unit that is handed over can be decoded by itself, or goes on with the stream of the
decision right before it, which was to hand a unit over, too. -/
def Opens (log : List FeedEntry) : Prop :=
  ∀ before e after, log = before ++ e :: after → e.HandedOver →
    e.submitted.unit.independentlyDecodable = true ∨
      ∃ last, before.getLast? = some last ∧ last.HandedOver ∧ last.SameStream e

/-- The feeder stopped waiting because of the unit it is about to offer, or it is in the stream of
the unit that it handed over just before. -/
def Engaged (f : Feeder) : Prop :=
  f.awaitingKeyframe = false →
    (∃ item, f.phase = .offering item ∧ item.opening = true) ∨
      ∃ last, f.log.getLast? = some last ∧ last.HandedOver ∧
        last.binding = f.observedGeneration ∧
        last.submitted.unit.generation = f.observedEncoderGeneration

theorem Opens.snoc {log : List FeedEntry} (h : Opens log) {x : FeedEntry}
    (hx : x.HandedOver → x.submitted.unit.independentlyDecodable = true ∨
      ∃ last, log.getLast? = some last ∧ last.HandedOver ∧ last.SameStream x) :
    Opens (log ++ [x]) := by
  intro before e after hlog hover
  rcases append_cons_eq_snoc hlog with ⟨-, rfl, rfl⟩ | ⟨rest, -, hcut⟩
  · exact hx hover
  · exact h before e rest hcut hover

theorem Engaged.setPhase (h : Engaged f) {phase : FeederPhase}
    (hbefore : ∀ item, f.phase ≠ .offering item) : Engaged { f with phase } := by
  intro hopen
  rcases h hopen with ⟨item, hitem, -⟩ | hlast
  · exact absurd hitem (hbefore item)
  · exact Or.inr hlast

theorem Engaged.screen (h : Engaged f) {submitted : Submitted}
    (hphase : f.phase = .popped submitted) (source generation mediaGeneration : ℕ) :
    Engaged (f.screen submitted source generation mediaGeneration) := by
  unfold Feeder.screen
  simp only
  split
  next hawaited =>
    intro hopen
    simp only [Bool.and_eq_true] at hawaited
    exact absurd hopen (by simp [hawaited.1])
  · intro _
    cases hawaiting : (f.observe generation submitted.unit).awaitingKeyframe with
    | true => exact Or.inl ⟨_, rfl, rfl⟩
    | false =>
      rcases observe_cases generation submitted.unit f with ⟨heq, -⟩ | ⟨-, heq⟩
      · rw [heq] at hawaiting ⊢
        rcases h hawaiting with ⟨item, hitem, -⟩ | hlast
        · rw [hphase] at hitem
          cases hitem
        · exact Or.inr hlast
      · rw [heq] at hawaiting
        cases hawaiting

/-- The unit on offer opens its stream, or goes on with it. -/
theorem Engaged.item (h : Engaged f) {generation : ℕ} (hinv : f.StreamInv generation)
    {item : FeedItem} (hphase : f.phase = .offering item) :
    item.submitted.unit.independentlyDecodable = true ∨
      ∃ last, f.log.getLast? = some last ∧ last.HandedOver ∧ last.binding = item.binding ∧
        last.submitted.unit.generation = item.submitted.unit.generation := by
  obtain ⟨hobserved, hencoder, hawaiting, hdecodable⟩ := hinv.item item hphase
  rcases h hawaiting with ⟨opened, hitem, hopening⟩ | ⟨last, hlast, hover, hbinding, hunit⟩
  · rw [hphase] at hitem
    cases hitem
    exact Or.inl (hdecodable hopening)
  · exact Or.inr ⟨last, hlast, hover, hbinding.trans hobserved.symm, hunit.trans hencoder⟩

/-- With a buffer, the unit that is offered becomes the last one that was handed over. -/
theorem Engaged.offer {generation : ℕ} (hinv : f.StreamInv generation) {item : FeedItem}
    (hphase : f.phase = .offering item) {fps : ℕ} {allocated : Bool} {flow : FlowReturn}
    (hbuffer : (makeBuffer fps allocated item.submitted.unit f.frameIndex).isSome = true) :
    Engaged (f.offer fps allocated flow item) := by
  obtain ⟨hobserved, hencoder, -, -⟩ := hinv.item item hphase
  obtain ⟨buffer, hbuffer⟩ := Option.isSome_iff_exists.mp hbuffer
  intro _
  right
  simp only [Feeder.offer, hbuffer]
  exact ⟨_, List.getLast?_concat, rfl, hobserved, hencoder.symm⟩

end Feeder

/-- A unit that is submitted has bytes, and a buffer can be allocated. -/
def RtspAction.fills : RtspAction → Bool
  | .submit (some unit) => decide (unit.sizeBytes ≠ 0)
  | .feeder env => env.allocated
  | _ => true

namespace RtspServer

variable {t t' : RtspServer} {a : RtspAction} {fps : ℕ}

/-- The unit on offer gets no buffer. -/
def withoutBuffer (t : RtspServer) (a : RtspAction) : Bool :=
  match a, t.feeder.phase with
  | .feeder env, .offering item =>
    (makeBuffer t.fps env.allocated item.submitted.unit t.feeder.frameIndex).isNone
  | _, _ => false

open Feeder in
theorem engaged_step (h : Engaged t.feeder) (hinv : FeedInv t) (hgood : t.withoutBuffer a = false)
    (hs : t.step a = some t') : Engaged t'.feeder := by
  by_cases hfeeder : ∃ env, a = .feeder env
  · obtain ⟨env, rfl⟩ := hfeeder
    rcases feederStep_cases hs with ⟨-, -, heq⟩ | ⟨phase, hbefore, -, -, heq⟩ |
        ⟨mediaGeneration, flow, hphase, -, heq⟩ | ⟨submitted, source, hphase, -, -, heq⟩ |
        ⟨item, hphase, -, heq⟩ <;> rw [heq]
    · rintro ⟨⟩
    · exact h.setPhase (FeederPhase.not_offering hbefore)
    · exact h.setPhase (by simp [hphase])
    · exact h.screen hphase _ _ _
    · exact .offer hinv.stream hphase (by simpa [withoutBuffer, hphase] using hgood)
  · rcases step_feeder hs (by simpa using hfeeder) with heq | ⟨hphase, -, heq⟩ | ⟨-, heq, hdone⟩ <;>
      rw [heq]
    · exact h
    · exact h.setPhase (by simp [hinv.absent (by rw [hphase]; rfl)])
    · exact h.setPhase fun item hitem => by
        rcases hdone with hdone | hdone <;> rw [hdone] at hitem <;> cases hitem

open Feeder in
/-- The next unit that is handed over opens its stream, or goes on with it. -/
theorem opens_step (h : Opens t.feeder.log) (hengaged : Engaged t.feeder) (hinv : FeedInv t)
    (hs : t.step a = some t') : Opens t'.feeder.log := by
  rcases step_log hs with heq | ⟨x, -, -, -, hx, heq⟩ | ⟨item, env, hphase, -, heq⟩
  · rw [heq]
    exact h
  · rw [heq]
    refine h.snoc fun hover => ?_
    simp [FeedEntry.HandedOver, FeedEntry.buffer, hx] at hover
  · obtain ⟨x, phase, hoffer, hsubmitted, hbinding, -⟩ :=
      offer_spec t.fps env.allocated env.flow item t.feeder
    rw [heq, hoffer]
    refine h.snoc fun _ => ?_
    rw [hsubmitted]
    refine (hengaged.item hinv.stream hphase).imp id ?_
    rintro ⟨last, hlast, hover, hsame, hunit⟩
    refine ⟨last, hlast, hover, ?_, ?_⟩
    · rw [hbinding, hsame]
    · rw [hsubmitted, hunit]

/-! ### Where the units come from -/

/-- The unit is in `submit`, in the queue, or in the hands of the feeder. -/
def UnderWay (submitted : Submitted) (t : RtspServer) : Prop :=
  (t.submitter = .locking submitted ∨ t.submitter = .pushing submitted) ∨
    t.latest.value = some submitted ∨
    t.feeder.phase = .popped submitted ∨
    ∃ item, t.feeder.phase = .offering item ∧ item.submitted = submitted

variable {submitted : Submitted}

/-- The feeder's steps hand a unit on. -/
theorem feederStep_underWay {env : FeederEnv} (hs : t.feederStep env = some t')
    (h : UnderWay submitted t') : UnderWay submitted t := by
  have hsubmitter := (feederStep_submitter hs).2
  unfold UnderWay at h ⊢
  rw [hsubmitter] at h
  unfold RtspServer.feederStep at hs
  cases hphase : t.feeder.phase with
  | absent => simp [hphase] at hs
  | exited => simp [hphase] at hs
  | starting =>
    simp only [hphase, Option.some.injEq] at hs
    subst hs
    simpa [Feeder.begin] using h
  | checking =>
    simp only [hphase, Option.some.injEq] at hs
    subst hs
    cases hrunning : t.shared.running <;> simpa [Feeder.check, hrunning] using h
  | popping =>
    simp only [hphase, LatestFrameQueue.waitPop] at hs
    cases hvalue : t.latest.value with
    | some queued =>
      simp only [hvalue, Option.some.injEq] at hs
      subst hs
      simp only [Feeder.pop, FeederPhase.popped.injEq, reduceCtorEq, false_and, exists_false,
        false_or, or_false] at h
      rcases h with h | rfl
      · exact Or.inl h
      · exact Or.inr (Or.inl rfl)
    | none =>
      cases hclosed : t.latest.closed with
      | false => simp [hvalue, hclosed] at hs
      | true =>
        simp only [hvalue, hclosed, if_true, Option.some.injEq] at hs
        subst hs
        simpa [Feeder.pop, hvalue] using h
  | popped popped =>
    simp only [hphase] at hs
    split at hs
    · cases hs
      simp only [reduceCtorEq, false_and, exists_false, or_false] at h
      exact h.imp id Or.inl
    · cases hs
      refine h.imp id (Or.imp id fun hfeeder => Or.inl ?_)
      unfold Feeder.screen at hfeeder
      simp only at hfeeder
      split at hfeeder
      · simp at hfeeder
      · simpa using hfeeder
  | offering item =>
    simp only [hphase, Option.some.injEq] at hs
    subst hs
    obtain ⟨e, phase, heq, -, -, -, -, hnext, -⟩ :=
      Feeder.offer_spec t.fps env.allocated env.flow item t.feeder
    have hgone : ∀ submitted, phase ≠ .popped submitted := by
      rintro popped rfl
      have : (t.feeder.offer t.fps env.allocated env.flow item).phase = .popped popped := by
        rw [heq]
      unfold Feeder.offer at this
      simp only at this
      split at this <;> cases this
    simp only [heq, hgone, hnext, false_and, exists_false, or_false] at h
    exact h.imp id Or.inl
  | recording mediaGeneration flow =>
    simp only [hphase, Option.some.injEq] at hs
    subst hs
    simp only [reduceCtorEq, false_and, exists_false, or_false] at h
    exact h.imp id Or.inl

/-- A unit that is under way was so before, or has just been submitted. -/
theorem step_underWay (hs : t.step a = some t') (h : UnderWay submitted t') :
    UnderWay submitted t ∨ a = .submit (some submitted.unit) := by
  by_cases hfeeder : ∃ env, a = .feeder env
  · obtain ⟨env, rfl⟩ := hfeeder
    exact Or.inl (feederStep_underWay hs h)
  by_cases hsubmit : ∃ unit, a = .submit unit
  · obtain ⟨unit, rfl⟩ := hsubmit
    simp only [RtspServer.step, submitStep] at hs
    split at hs
    next unit hidle =>
      split at hs
      · cases hs
        simp only [UnderWay, SubmitPhase.locking.injEq, reduceCtorEq, or_false] at h
        rcases h with rfl | h
        · exact Or.inr rfl
        · exact Or.inl (Or.inr h)
      · cases hs
        exact Or.inl h
    · cases hs
      exact Or.inl h
    · cases hs
    · cases hs
  by_cases hnext : a = .submitNext
  · subst hnext
    refine Or.inl ?_
    obtain ⟨-, hfeeder, -, ⟨locked, hbefore, -, hafter, hlatest, -⟩ |
      ⟨locked, hbefore, hafter, hlatest, -⟩ |
      ⟨pushed, hbefore, hafter, ⟨-, hlatest, -⟩ | ⟨-, hvalue, -, -⟩⟩⟩ := submitNextStep_cases hs
    all_goals unfold UnderWay at h ⊢
    · rw [hafter, hlatest, hfeeder] at h
      simpa using Or.inr h
    · rw [hafter, hlatest, hfeeder] at h
      rw [hbefore]
      simpa using h
    · rw [hafter, hlatest, hfeeder] at h
      simpa using Or.inr h
    · rw [hafter, hvalue, hfeeder] at h
      rw [hbefore]
      simp only [reduceCtorEq, or_self, false_or, Option.some.injEq] at h
      rcases h with rfl | h
      · exact Or.inl (Or.inr rfl)
      · exact Or.inr (Or.inr h)
  -- the other threads leave a unit where it is, or drop it
  refine Or.inl ?_
  obtain ⟨-, hsubmitter, hspares⟩ :=
    step_queue hs (by simpa using hfeeder) (by simpa using hsubmit) hnext
  have hqueue : t'.latest.value = some submitted → t.latest.value = some submitted := by
    intro hvalue
    rcases hspares with ⟨heq, -⟩ | ⟨hnone, -⟩
    · rw [← heq, hvalue]
    · rw [hnone] at hvalue
      cases hvalue
  unfold UnderWay at h ⊢
  rw [hsubmitter] at h
  rcases step_feeder hs (by simpa using hfeeder) with heq | ⟨-, -, heq⟩ | ⟨-, heq, -⟩ <;>
    rw [heq] at h
  · exact h.imp id (Or.imp hqueue id)
  · simp only [reduceCtorEq, false_and, exists_false, or_false] at h
    exact h.imp id fun hvalue => Or.inl (hqueue hvalue)
  · simp only [reduceCtorEq, false_and, exists_false, or_false] at h
    exact h.imp id fun hvalue => Or.inl (hqueue hvalue)

/-- Every unit that is under way was submitted. -/
theorem submitted_of_underWay {history : List (RtspServer × RtspAction)}
    (h : Run step (initial fps) history t) (hunder : UnderWay submitted t) :
    ∃ x ∈ history, x.2 = .submit (some submitted.unit) := by
  induction h with
  | nil => simp [UnderWay, initial] at hunder
  | snoc _ hs ih =>
    rcases step_underWay hs hunder with hbefore | rfl
    · obtain ⟨x, hx, heq⟩ := ih hbefore
      exact ⟨x, List.mem_append_left _ hx, heq⟩
    · exact ⟨_, List.mem_append_right _ (List.mem_singleton_self _), rfl⟩

/-! ### Whole runs -/

/-- A source that was looked up was bound at that time, with the generation read with it. -/
def LookedUp (history : List (RtspServer × RtspAction)) (source binding : ℕ) : Prop :=
  ∃ x ∈ history, x.1.shared.appsrc = some source ∧ x.1.shared.generation = binding

/-- Every decision was made for a source that was bound then. -/
theorem lookedUp_of_run {history : List (RtspServer × RtspAction)}
    (h : Run step (initial fps) history t) :
    (∀ e ∈ t.feeder.log, LookedUp history e.source e.binding) ∧
      ∀ item, t.feeder.phase = .offering item → LookedUp history item.source item.binding := by
  induction h with
  | nil => exact ⟨by rintro _ ⟨⟩, by rintro _ ⟨⟩⟩
  | @snoc history t t' a _ hs ih =>
    obtain ⟨hlog, hitem⟩ := ih
    have hgrow : ∀ {source binding : ℕ}, LookedUp history source binding →
        LookedUp (history ++ [(t, a)]) source binding := by
      rintro source binding ⟨x, hx, hfound⟩
      exact ⟨x, List.mem_append_left _ hx, hfound⟩
    by_cases hfeeder : ∃ env, a = .feeder env
    · obtain ⟨env, rfl⟩ := hfeeder
      rcases feederStep_cases hs with ⟨-, -, heq⟩ | ⟨phase, -, hphase, -, heq⟩ |
          ⟨-, -, -, -, heq⟩ | ⟨submitted, source, -, hsource, -, heq⟩ | ⟨item, hphase, -, heq⟩
      · rw [heq]
        exact ⟨fun e he => hgrow (hlog e he), by rintro _ ⟨⟩⟩
      · rw [heq]
        exact ⟨fun e he => hgrow (hlog e he),
          fun item hoffer => absurd hoffer (FeederPhase.not_offering hphase item)⟩
      · rw [heq]
        exact ⟨fun e he => hgrow (hlog e he), by rintro _ ⟨⟩⟩
      · have hnow : LookedUp (history ++ [(t, RtspAction.feeder env)]) source
            t.shared.generation := ⟨(t, .feeder env), by simp, hsource, rfl⟩
        rw [heq]
        unfold Feeder.screen
        simp only [Feeder.observe_log]
        split
        · refine ⟨fun e he => ?_, by rintro _ ⟨⟩⟩
          rcases List.mem_append.mp he with he | he
          · exact hgrow (hlog e he)
          · rw [List.mem_singleton.mp he]
            exact hnow
        · refine ⟨fun e he => hgrow (hlog e he), ?_⟩
          rintro _ ⟨⟩
          exact hnow
      · obtain ⟨x, phase, hoffer, -, hbinding, hsource, -, hnext, -⟩ :=
          Feeder.offer_spec t.fps env.allocated env.flow item t.feeder
        rw [heq, hoffer]
        refine ⟨fun e he => ?_, fun item hoffer => absurd hoffer (hnext item)⟩
        rcases List.mem_append.mp he with he | he
        · exact hgrow (hlog e he)
        · rw [List.mem_singleton.mp he, hbinding, hsource]
          exact hgrow (hitem item hphase)
    · rcases step_feeder hs (by simpa using hfeeder) with heq | ⟨-, -, heq⟩ | ⟨-, heq, -⟩ <;>
        rw [heq]
      · exact ⟨fun e he => hgrow (hlog e he), fun item hoffer => hgrow (hitem item hoffer)⟩
      · exact ⟨fun e he => hgrow (hlog e he), by rintro _ ⟨⟩⟩
      · exact ⟨fun e he => hgrow (hlog e he), by rintro _ ⟨⟩⟩

/-- Units with bytes get their buffers, as long as these can be allocated. -/
theorem not_withoutBuffer {history : List (RtspServer × RtspAction)}
    (h : Run step (initial fps) history t)
    (hfills : ∀ x ∈ history, x.2.fills = true) (hbuffer : a.fills = true) :
    t.withoutBuffer a = false := by
  unfold withoutBuffer
  split
  next env item hphase =>
    obtain ⟨x, hx, hsubmit⟩ :=
      submitted_of_underWay h (Or.inr (Or.inr (Or.inr ⟨item, hphase, rfl⟩)))
    have hbytes : item.submitted.unit.sizeBytes ≠ 0 := by
      simpa [RtspAction.fills, hsubmit] using hfills x hx
    have hallocated : env.allocated = true := hbuffer
    unfold EncodedAccessUnit.sizeBytes at hbytes
    unfold makeBuffer
    cases hpayload : item.submitted.unit.payload with
    | none => simp [hpayload] at hbytes
    | some payload =>
      rw [hpayload] at hbytes
      cases payload with
      | nil => exact absurd rfl hbytes
      | cons byte rest => simp [hallocated]
  · rfl

theorem opens_of_run {history : List (RtspServer × RtspAction)}
    (h : Run step (initial fps) history t)
    (hfills : ∀ x ∈ history, x.2.fills = true) :
    Feeder.Opens t.feeder.log ∧ Feeder.Engaged t.feeder := by
  induction h with
  | nil => exact ⟨by simp [Feeder.Opens, initial], by simp [Feeder.Engaged, initial]⟩
  | @snoc history t t' a hrun hs ih =>
    have hold : ∀ x ∈ history, x ∈ history ++ [(t, a)] := fun x => List.mem_append_left _
    obtain ⟨hopens, hengaged⟩ := ih fun x hx => hfills x (hold x hx)
    have hinv := FeedInv.reachable hrun.reachable
    have hgood : t.withoutBuffer a = false :=
      not_withoutBuffer hrun (fun x hx => hfills x (hold x hx)) (hfills (t, a) (by simp))
    exact ⟨opens_step hopens hengaged hinv hs, engaged_step hengaged hinv hgood hs⟩

/-- **Every source change re-arms the feeder.** A step that changes the bound source raises the
generation with it. With units that have bytes and buffers that can be allocated, the first unit
that is handed over on a binding, and the first after the units have changed their encoder
generation, can be decoded by itself. -/
theorem rearmed_of_run {history : List (RtspServer × RtspAction)}
    (h : Run step (initial fps) history t)
    (hfills : ∀ x ∈ history, x.2.fills = true) :
    (∀ x ∈ history, ∀ t', x.1.step x.2 = some t' → t'.shared.appsrc ≠ x.1.shared.appsrc →
        t'.shared.generation = x.1.shared.generation + 1) ∧
      ∀ before e after, t.feeder.log = before ++ e :: after → e.HandedOver →
        LookedUp history e.source e.binding ∧
          ((∀ x ∈ before, x.HandedOver → x.binding ≠ e.binding) →
            e.submitted.unit.independentlyDecodable = true) ∧
          ∀ earlier last between, before = earlier ++ last :: between →
            (∀ x ∈ between, ¬ x.HandedOver) →
            (∃ x ∈ between ++ [e],
              x.submitted.unit.generation ≠ last.submitted.unit.generation) →
            e.submitted.unit.independentlyDecodable = true := by
  refine ⟨fun x hx t' hs hchange => ?_, fun before e after hlog hover => ⟨?_, ?_, ?_⟩⟩
  · rw [step_shared hs] at hchange ⊢
    cases hsec : x.1.entered x.2 with
    | none => exact absurd (by rw [hsec]; rfl) hchange
    | some sec =>
      rw [hsec] at hchange
      refine Section.renumbers ?_ hchange
      rintro now rfl
      have hepoch := EpochInv.reachable (h.reachable_of_mem x hx)
      exact hepoch.retired (by rw [entered_publishStart hsec]; rfl)
  · exact (lookedUp_of_run h).1 e (by simp [hlog])
  all_goals have hopens := (opens_of_run h hfills).1 before e after hlog hover
  · intro hfirst
    refine hopens.resolve_right ?_
    rintro ⟨last, hlast, hlastover, hsame, -⟩
    exact hfirst last (List.mem_of_getLast? hlast) hlastover hsame.symm
  · rintro earlier last between rfl hnone ⟨x, hx, hother⟩
    refine hopens.resolve_right ?_
    rintro ⟨previous, hprevious, hlastover, -, hsame⟩
    rcases List.eq_nil_or_concat between with rfl | ⟨rest, final, rfl⟩
    · rw [List.getLast?_concat, Option.some.injEq] at hprevious
      rw [List.nil_append, List.mem_singleton] at hx
      subst hprevious hx
      exact hother hsame
    · rw [List.concat_eq_append, ← List.cons_append, ← List.append_assoc, List.getLast?_concat,
        Option.some.injEq] at hprevious
      subst hprevious
      exact hnone final (by simp) hlastover

/-- A source receives a keyframe and a delta frame and goes away with its media. The next one has to
wait until there is a keyframe again. -/
theorem rearmed_of_run_rebound :
    ∃ history t, Run step (initial 30) history t ∧
      t.feeder.log.map (fun e => (e.source, decide e.HandedOver)) =
        [(20, true), (20, true), (21, false), (21, true)] ∧
      ∀ before e after, t.feeder.log = before ++ e :: after → e.HandedOver →
        (∀ x ∈ before, x.HandedOver → x.binding ≠ e.binding) →
        e.submitted.unit.independentlyDecodable = true := by
  let actions := readyToFeed ++ feedOne keyUnit .ok ++ feedOne (.ofTest 1 1 false 1) .ok ++
    [.signal (.unprepared 10), .callback 0 {}, .callback 0 {}] ++ configureMedia 11 21 ++
    (feedOne (.ofTest 2 1 false 1) .ok).take 6 ++ feedOne (.ofTest 3 1 true 1) .ok
  have hrun : Run step (initial 30) _ _ := Run.ofExec actions rfl
  obtain ⟨-, hrearmed⟩ := rearmed_of_run hrun (by decide)
  exact ⟨_, _, hrun, by decide,
    fun before e after hlog hover => (hrearmed before e after hlog hover).2.1⟩

end RtspServer

end EggVision
