import EggVision.Rtsp.Stream

/-!
# From `submit` to the source

Between the encoder and a source there is one place in the queue and one unit in the hands of the
feeder. A unit is overtaken by none, and each is somewhere: in the feeder's log, on its way, or lost
for a reason.

## Main definitions

* `indices` — the units in the feeder's log and those on their way, in order
* `Accounted` — every submitted unit is accounted for
* `feedStep` — the steps of `submit` and of the feeder alone

## Main results

* `Accounted.reachable`
* `streamed_gop` — what is missing between two units that follow each other on a source
-/

namespace EggVision

open Transition RtspState

/-- The unit in the hands of the feeder. -/
def FeederPhase.held : FeederPhase → List ℕ
  | .popped submitted => [submitted.index]
  | .offering item => [item.submitted.index]
  | .absent | .starting | .checking | .popping | .recording _ _ | .exited => []

/-- The unit in the hands of `submit`. -/
def SubmitPhase.held : SubmitPhase → List ℕ
  | .locking submitted | .pushing submitted => [submitted.index]
  | .idle => []

namespace RtspServer

variable {t t' : RtspServer} {a : RtspAction} {fps : ℕ}

/-- The unit in the queue. -/
def waiting (t : RtspServer) : List ℕ := t.latest.value.toList.map (·.index)

/-- The units that the feeder has decided about, and then those on their way to it. -/
def indices (t : RtspServer) : List ℕ :=
  t.feeder.log.map (·.submitted.index) ++ t.feeder.phase.held ++ t.waiting ++ t.submitter.held

/-- Every submitted unit is in the log, on its way, or lost, and none overtakes another. -/
structure Accounted (t : RtspServer) : Prop where
  ordered : t.indices.Pairwise (· < ·)
  bound : ∀ i ∈ t.indices, i < t.submissions
  complete : ∀ i < t.submissions, i ∈ t.indices ∨ ∃ loss, (i, loss) ∈ t.lost
  lost : ∀ x ∈ t.lost, x.1 < t.submissions

/-! ### What a step does to the units -/

/-- The step loses some of the units that are on their way, or none. -/
structure Loses (t t' : RtspServer) : Prop where
  submissions : t'.submissions = t.submissions
  sublist : t'.indices.Sublist t.indices
  lost : ∃ more, t'.lost = t.lost ++ more ∧ (∀ x ∈ more, x.1 ∈ t.indices) ∧
    ∀ i ∈ t.indices, i ∈ t'.indices ∨ ∃ loss, (i, loss) ∈ more

theorem Loses.accounted (h : Loses t t') (hacc : Accounted t) : Accounted t' := by
  obtain ⟨more, hlost, hfrom, hmore⟩ := h.lost
  refine ⟨hacc.ordered.sublist h.sublist, fun i hi => ?_, fun i hi => ?_, fun x hx => ?_⟩
  · rw [h.submissions]
    exact hacc.bound i (h.sublist.subset hi)
  · rw [h.submissions] at hi
    rcases hacc.complete i hi with hin | ⟨loss, hloss⟩
    · rcases hmore i hin with hstays | ⟨loss, hloss⟩
      · exact Or.inl hstays
      · exact Or.inr ⟨loss, by rw [hlost]; exact List.mem_append_right _ hloss⟩
    · exact Or.inr ⟨loss, by rw [hlost]; exact List.mem_append_left _ hloss⟩
  · rw [h.submissions]
    rw [hlost] at hx
    rcases List.mem_append.mp hx with hx | hx
    · exact hacc.lost x hx
    · exact hacc.bound x.1 (hfrom x hx)

theorem Loses.of_eq (hsubmissions : t'.submissions = t.submissions)
    (hindices : t'.indices = t.indices) (hlost : t'.lost = t.lost) : Loses t t' :=
  ⟨hsubmissions, by rw [hindices], [], by simp [hlost], by rintro _ ⟨⟩,
    fun i hi => Or.inl (hindices ▸ hi)⟩

/-- The unit in the queue is on its way. -/
theorem mem_indices_of_queued {loss : Loss} {x : ℕ × Loss} (hx : x ∈ t.queued loss) :
    x.1 ∈ t.indices := by
  obtain ⟨submitted, hmem, rfl⟩ := List.mem_map.mp hx
  have : submitted.index ∈ t.waiting := List.mem_map_of_mem hmem
  simp [indices, this]

/-- The queue is emptied. -/
theorem Loses.queue {loss : Loss} (hsubmissions : t'.submissions = t.submissions)
    (hlog : t'.feeder.log = t.feeder.log) (hheld : t'.feeder.phase.held = t.feeder.phase.held)
    (hsubmitter : t'.submitter = t.submitter) (hvalue : t'.latest.value = none)
    (hlost : t'.lost = t.lost ++ t.queued loss) : Loses t t' := by
  have hindices : t'.indices =
      t.feeder.log.map (·.submitted.index) ++ t.feeder.phase.held ++ [] ++ t.submitter.held := by
    simp [indices, waiting, hlog, hheld, hsubmitter, hvalue]
  refine ⟨hsubmissions, ?_, _, hlost, fun x hx => mem_indices_of_queued hx, fun i hi => ?_⟩
  · rw [hindices]
    exact ((List.Sublist.refl _).append (List.nil_sublist _)).append (List.Sublist.refl _)
  · rw [hindices]
    simp only [indices, List.mem_append] at hi
    rcases hi with ((hi | hi) | hi) | hi
    · simp [hi]
    · simp [hi]
    · refine Or.inr ⟨loss, ?_⟩
      simp only [waiting, List.mem_map] at hi
      obtain ⟨submitted, hmem, rfl⟩ := hi
      exact List.mem_map.mpr ⟨submitted, hmem, rfl⟩
    · simp [hi]

/-- The threads that only pass by the queue leave it alone, or empty it. -/
theorem step_queue (hs : t.step a = some t') (hfeeder : ∀ env, a ≠ .feeder env)
    (hsubmit : ∀ unit, a ≠ .submit unit) (hnext : a ≠ .submitNext) :
    t'.submissions = t.submissions ∧ t'.submitter = t.submitter ∧
      t.Spares t'.latest t'.lost := by
  cases a with
  | call call ok =>
    rcases callStep_cases hs with ⟨-, rfl | rfl | ⟨-, rfl⟩ | ⟨-, rfl⟩⟩
    · exact ⟨rfl, rfl, .refl _⟩
    · exact ⟨rfl, rfl, .refl _⟩
    · exact ⟨rfl, rfl, Or.inr ⟨rfl, rfl⟩⟩
    · exact ⟨rfl, rfl, .refl _⟩
  | owner env =>
    obtain ⟨_, _, _, _, _, _, _, _, _, rfl, hspares, -⟩ := ownerStep_frame hs
    exact ⟨rfl, rfl, hspares⟩
  | signal signal =>
    obtain ⟨-, rfl⟩ := step_signal hs
    exact ⟨rfl, rfl, .refl _⟩
  | callback index env =>
    obtain ⟨_, _, _, _, rfl, -, hspares, -⟩ := step_callback hs
    exact ⟨rfl, rfl, hspares⟩
  | tick now =>
    obtain ⟨-, -, _, _, rfl⟩ := step_tick hs
    exact ⟨rfl, rfl, .refl _⟩
  | watchdog env =>
    obtain ⟨_, _, _, _, _, _, rfl, -, hspares, -⟩ := watchdogStep_frame hs
    exact ⟨rfl, rfl, hspares⟩
  | worker =>
    obtain ⟨_, rfl⟩ := step_worker hs
    exact ⟨rfl, rfl, .refl _⟩
  | feeder env => exact absurd rfl (hfeeder env)
  | submit unit => exact absurd rfl (hsubmit unit)
  | submitNext => exact absurd rfl hnext

theorem feederStep_submitter {env : FeederEnv} (hs : t.feederStep env = some t') :
    t'.submissions = t.submissions ∧ t'.submitter = t.submitter := by
  obtain ⟨_, _, _, _, rfl, -⟩ := feederStep_frame hs
  exact ⟨rfl, rfl⟩

/-- The feeder's steps hand one unit on. The only one it loses has no source to go to. -/
theorem feederStep_indices {env : FeederEnv} (hs : t.feederStep env = some t') :
    (t'.indices = t.indices ∧ t'.lost = t.lost) ∨
      ∃ submitted, t.feeder.phase = .popped submitted ∧ t.shared.appsrc = none ∧
        t'.feeder = { t.feeder with phase := .checking } ∧ t'.latest = t.latest ∧
        t'.lost = t.lost ++ [(submitted.index, .unsourced)] := by
  have hsubmitter := (feederStep_submitter hs).2
  unfold RtspServer.feederStep at hs
  cases hphase : t.feeder.phase with
  | absent => simp [hphase] at hs
  | exited => simp [hphase] at hs
  | starting =>
    simp only [hphase, Option.some.injEq] at hs
    subst hs
    exact Or.inl ⟨by simp [indices, waiting, Feeder.begin, FeederPhase.held, hphase], rfl⟩
  | checking =>
    simp only [hphase, Option.some.injEq] at hs
    subst hs
    refine Or.inl ⟨?_, rfl⟩
    cases hrun : t.shared.running <;>
      simp [indices, waiting, Feeder.check, FeederPhase.held, hphase]
  | popping =>
    simp only [hphase, LatestFrameQueue.waitPop] at hs
    refine Or.inl ?_
    cases hvalue : t.latest.value with
    | some submitted =>
      simp only [hvalue, Option.some.injEq] at hs
      subst hs
      exact ⟨by simp [indices, waiting, Feeder.pop, FeederPhase.held, hphase, hvalue], rfl⟩
    | none =>
      cases hclosed : t.latest.closed with
      | false => simp [hvalue, hclosed] at hs
      | true =>
        simp only [hvalue, hclosed, if_true, Option.some.injEq] at hs
        subst hs
        exact ⟨by simp [indices, waiting, Feeder.pop, FeederPhase.held, hphase], rfl⟩
  | popped submitted =>
    simp only [hphase] at hs
    split at hs
    next hsource =>
      cases hs
      exact Or.inr ⟨submitted, rfl, hsource, rfl, rfl, rfl⟩
    · cases hs
      refine Or.inl ⟨?_, rfl⟩
      simp only [indices, waiting, hphase]
      unfold Feeder.screen
      simp only [Feeder.observe_log]
      split <;> simp [FeederPhase.held]
  | offering item =>
    simp only [hphase, Option.some.injEq] at hs
    subst hs
    obtain ⟨e, phase, heq, hsubmitted, -, -, -, hnext, -⟩ :=
      Feeder.offer_spec t.fps env.allocated env.flow item t.feeder
    refine Or.inl ⟨?_, rfl⟩
    have hheld : (t.feeder.offer t.fps env.allocated env.flow item).phase.held = [] := by
      unfold Feeder.offer
      split <;> rfl
    have hlog : (t.feeder.offer t.fps env.allocated env.flow item).log = t.feeder.log ++ [e] := by
      rw [heq]
    simp only [indices, waiting, hheld, hlog, hphase]
    simp [FeederPhase.held, hsubmitted]
  | recording mediaGeneration flow =>
    simp only [hphase, Option.some.injEq] at hs
    subst hs
    exact Or.inl ⟨by simp [indices, waiting, FeederPhase.held, hphase], rfl⟩

theorem Loses.feederStep {env : FeederEnv} (hs : t.feederStep env = some t') : Loses t t' := by
  obtain ⟨hsubmissions, hsubmitter⟩ := feederStep_submitter hs
  rcases feederStep_indices hs with ⟨hindices, hlost⟩ | ⟨submitted, hphase, -, heq, hlatest, hlost⟩
  · exact .of_eq hsubmissions hindices hlost
  · have hbefore : t.indices = t.feeder.log.map (·.submitted.index) ++ [submitted.index] ++
        t.waiting ++ t.submitter.held := by simp [indices, hphase, FeederPhase.held]
    have hafter : t'.indices = t.feeder.log.map (·.submitted.index) ++ [] ++
        t.waiting ++ t.submitter.held := by
      simp [indices, waiting, heq, hlatest, hsubmitter, FeederPhase.held]
    refine ⟨hsubmissions, ?_, _, hlost, fun x hx => ?_, fun i hi => ?_⟩
    · rw [hbefore, hafter]
      exact (((List.Sublist.refl _).append (List.nil_sublist _)).append (.refl _)).append (.refl _)
    · rw [hbefore, List.mem_singleton.mp hx]
      simp
    · rw [hbefore] at hi
      rw [hafter]
      simp only [List.mem_append, List.mem_singleton] at hi ⊢
      rcases hi with ((hi | rfl) | hi) | hi
      · simp [hi]
      · exact Or.inr ⟨.unsourced, rfl⟩
      · simp [hi]
      · simp [hi]

/-- The second half of `submit`: the unit is refused, or takes the place of the one in the queue. -/
theorem submitNextStep_cases (hs : t.submitNextStep = some t') :
    t'.submissions = t.submissions ∧ t'.feeder = t.feeder ∧ t'.shared = t.shared ∧
      ((∃ submitted, t.submitter = .locking submitted ∧ t.shared.appsrc = none ∧
          t'.submitter = .idle ∧ t'.latest = t.latest ∧
          t'.lost = t.lost ++ [(submitted.index, .unbound)]) ∨
        (∃ submitted, t.submitter = .locking submitted ∧ t'.submitter = .pushing submitted ∧
          t'.latest = t.latest ∧ t'.lost = t.lost) ∨
        ∃ submitted, t.submitter = .pushing submitted ∧ t'.submitter = .idle ∧
          ((t.latest.closed = true ∧ t'.latest = t.latest ∧
              t'.lost = t.lost ++ [(submitted.index, .queueClosed)]) ∨
            (t.latest.closed = false ∧ t'.latest.value = some submitted ∧
              t'.latest.closed = false ∧ t'.lost = t.lost ++ t.queued .replaced))) := by
  unfold submitNextStep at hs
  cases hphase : t.submitter with
  | idle => simp [hphase] at hs
  | locking submitted =>
    simp only [hphase] at hs
    split at hs
    next hsource =>
      cases hs
      exact ⟨rfl, rfl, rfl, Or.inl ⟨submitted, rfl, by simpa using hsource, rfl, rfl, rfl⟩⟩
    · cases hs
      exact ⟨rfl, rfl, rfl, Or.inr (Or.inl ⟨submitted, rfl, rfl, rfl, rfl⟩)⟩
  | pushing submitted =>
    simp only [hphase, Option.some.injEq] at hs
    subst hs
    refine ⟨rfl, rfl, rfl, Or.inr (Or.inr ⟨submitted, rfl, rfl, ?_⟩)⟩
    cases hclosed : t.latest.closed with
    | true => exact Or.inl ⟨rfl, by simp [LatestFrameQueue.push, hclosed], rfl⟩
    | false =>
      exact Or.inr ⟨rfl, by simp [LatestFrameQueue.push, hclosed],
        by simp [LatestFrameQueue.push, hclosed], rfl⟩

/-- The unit in the hands of `submit` is lost. -/
theorem Loses.submitter {submitted : Submitted} {loss : Loss}
    (hsubmissions : t'.submissions = t.submissions) (hfeeder : t'.feeder = t.feeder)
    (hlatest : t'.latest = t.latest) (hbefore : t.submitter.held = [submitted.index])
    (hafter : t'.submitter = .idle) (hlost : t'.lost = t.lost ++ [(submitted.index, loss)]) :
    Loses t t' := by
  have hindices : t.indices = t'.indices ++ [submitted.index] := by
    simp only [indices, waiting, hfeeder, hlatest, hbefore, hafter]
    simp [SubmitPhase.held]
  refine ⟨hsubmissions, ?_, _, hlost, fun x hx => ?_, fun i hi => ?_⟩
  · rw [hindices]
    exact List.sublist_append_left _ _
  · rw [hindices, List.mem_singleton.mp hx]
    simp
  · rw [hindices] at hi
    rcases List.mem_append.mp hi with hi | hi
    · exact Or.inl hi
    · exact Or.inr ⟨loss, by simp [List.mem_singleton.mp hi]⟩

theorem Loses.submitNextStep (hs : t.submitNextStep = some t') : Loses t t' := by
  obtain ⟨hsubmissions, hfeeder, -, hcases⟩ := submitNextStep_cases hs
  rcases hcases with ⟨submitted, hbefore, -, hafter, hlatest, hlost⟩ |
    ⟨submitted, hbefore, hafter, hlatest, hlost⟩ |
    ⟨submitted, hbefore, hafter, ⟨-, hlatest, hlost⟩ | ⟨-, hvalue, -, hlost⟩⟩
  · exact .submitter hsubmissions hfeeder hlatest (by rw [hbefore]; rfl) hafter hlost
  · refine .of_eq hsubmissions ?_ hlost
    simp [indices, waiting, hfeeder, hlatest, hbefore, hafter, SubmitPhase.held]
  · exact .submitter hsubmissions hfeeder hlatest (by rw [hbefore]; rfl) hafter hlost
  -- the new unit takes the place in the queue
  · have hindices : t.indices = t.feeder.log.map (·.submitted.index) ++ t.feeder.phase.held ++
        t.waiting ++ [submitted.index] := by simp [indices, hbefore, SubmitPhase.held]
    have hindices' : t'.indices = t.feeder.log.map (·.submitted.index) ++ t.feeder.phase.held ++
        [] ++ [submitted.index] := by
      simp [indices, waiting, hfeeder, hvalue, hafter, SubmitPhase.held]
    refine ⟨hsubmissions, ?_, _, hlost, fun x hx => mem_indices_of_queued hx, fun i hi => ?_⟩
    · rw [hindices, hindices']
      exact ((List.Sublist.refl _).append (List.nil_sublist _)).append (.refl _)
    · rw [hindices']
      rw [hindices] at hi
      simp only [List.mem_append] at hi
      rcases hi with ((hi | hi) | hi) | hi
      · simp [hi]
      · simp [hi]
      · simp only [waiting, List.mem_map] at hi
        obtain ⟨old, hmem, rfl⟩ := hi
        exact Or.inr ⟨.replaced, List.mem_map.mpr ⟨old, hmem, rfl⟩⟩
      · simp [hi]

/-- A new unit comes last, unless the server does not run. -/
theorem Accounted.submitStep {unit : Option EncodedAccessUnit} (h : Accounted t)
    (hs : t.submitStep unit = some t') : Accounted t' := by
  unfold RtspServer.submitStep at hs
  cases hphase : t.submitter with
  | locking submitted => simp [hphase] at hs
  | pushing submitted => simp [hphase] at hs
  | idle =>
    cases unit with
    | none =>
      simp only [hphase, Option.some.injEq] at hs
      exact hs ▸ h
    | some unit =>
      simp only [hphase] at hs
      split at hs
      · cases hs
        have hindices : ({ t with
            submissions := t.submissions + 1
            submitter := .locking { index := t.submissions, unit } } : RtspServer).indices =
              t.indices ++ [t.submissions] := by
          simp [indices, waiting, hphase, SubmitPhase.held]
        refine ⟨?_, ?_, fun i hi => ?_, fun x hx => Nat.lt_succ_of_lt (h.lost x hx)⟩
        · rw [hindices]
          refine List.pairwise_append.mpr ⟨h.ordered, List.pairwise_singleton _ _, ?_⟩
          intro i hi j hj
          rw [List.mem_singleton.mp hj]
          exact h.bound i hi
        · rw [hindices]
          intro i hi
          rcases List.mem_append.mp hi with hi | hi
          · exact Nat.lt_succ_of_lt (h.bound i hi)
          · rw [List.mem_singleton.mp hi]
            exact Nat.lt_succ_self _
        · rw [hindices]
          rcases Nat.lt_succ_iff_lt_or_eq.mp hi with hi | rfl
          · rcases h.complete i hi with hin | hloss
            · exact Or.inl (List.mem_append_left _ hin)
            · exact Or.inr hloss
          · exact Or.inl (by simp)
      · cases hs
        have hindices : ({ t with
            submissions := t.submissions + 1
            submitter := .idle
            lost := t.lost ++ [(t.submissions, .notRunning)] } : RtspServer).indices =
              t.indices := by
          simp [indices, waiting, hphase]
        refine ⟨hindices ▸ h.ordered, ?_, fun i hi => ?_, fun x hx => ?_⟩
        · rw [hindices]
          exact fun i hi => Nat.lt_succ_of_lt (h.bound i hi)
        · rw [hindices]
          rcases Nat.lt_succ_iff_lt_or_eq.mp hi with hi | rfl
          · rcases h.complete i hi with hin | ⟨loss, hloss⟩
            · exact Or.inl hin
            · exact Or.inr ⟨loss, List.mem_append_left _ hloss⟩
          · exact Or.inr ⟨.notRunning, by simp⟩
        · rcases List.mem_append.mp hx with hx | hx
          · exact Nat.lt_succ_of_lt (h.lost x hx)
          · rw [List.mem_singleton.mp hx]
            exact Nat.lt_succ_self _

theorem Accounted.step (h : Accounted t) (hinv : FeedInv t) (hs : t.step a = some t') :
    Accounted t' := by
  by_cases hfeeder : ∃ env, a = .feeder env
  · obtain ⟨env, rfl⟩ := hfeeder
    exact (Loses.feederStep hs).accounted h
  by_cases hsubmit : ∃ unit, a = .submit unit
  · obtain ⟨unit, rfl⟩ := hsubmit
    exact h.submitStep hs
  by_cases hnext : a = .submitNext
  · subst hnext
    exact (Loses.submitNextStep hs).accounted h
  obtain ⟨hsubmissions, hsubmitter, hqueue⟩ :=
    step_queue hs (by simpa using hfeeder) (by simpa using hsubmit) hnext
  have hkept : t'.feeder.log = t.feeder.log ∧
      t'.feeder.phase.held = t.feeder.phase.held := by
    rcases step_feeder hs (by simpa using hfeeder) with heq | ⟨hphase, -, heq⟩ | ⟨-, heq, hdone⟩
    · rw [heq]
      exact ⟨rfl, rfl⟩
    · rw [heq, hinv.absent (by rw [hphase]; rfl)]
      exact ⟨rfl, rfl⟩
    · rw [heq]
      rcases hdone with hdone | hdone <;> rw [hdone] <;> exact ⟨rfl, rfl⟩
  refine Loses.accounted ?_ h
  rcases hqueue with ⟨hvalue, hlost⟩ | ⟨hvalue, hlost⟩
  · refine .of_eq hsubmissions ?_ hlost
    simp [indices, waiting, hkept.1, hkept.2, hvalue, hsubmitter]
  · exact .queue hsubmissions hkept.1 hkept.2 hsubmitter hvalue hlost

/-- **Every submitted unit is accounted for, in every reachable state.** -/
theorem Accounted.reachable (h : Reachable RtspServer.step (initial fps) t) : Accounted t := by
  suffices h' : Reachable RtspServer.step (initial fps) t ∧ Accounted t from h'.2
  refine h.invariant (fun t => Reachable RtspServer.step (initial fps) t ∧ Accounted t)
    ⟨.refl, ?_⟩ ?_
  · constructor <;> simp [indices, waiting, initial, FeederPhase.held, SubmitPhase.held]
  · rintro t a t' ⟨hr, hacc⟩ hs
    exact ⟨hr.tail hs, hacc.step (.reachable hr) hs⟩

/-! ### The encoder and the feeder alone -/

/-- The steps of `submit` and of the feeder. -/
def feedStep (t : RtspServer) (a : RtspAction) : Option RtspServer :=
  match a with
  | .feeder _ | .submit _ | .submitNext => t.step a
  | .call _ _ | .owner _ | .signal _ | .callback _ _ | .tick _ | .watchdog _ | .worker => none

theorem step_of_feedStep (h : t.feedStep a = some t') : t.step a = some t' := by
  cases a <;> first | exact h | cases h

/-- With a bound source and nobody else around, a unit is lost only to the next one. -/
structure OnlyReplaced (since : ℕ) (t : RtspServer) : Prop where
  running : t.shared.running = true
  bound : t.shared.appsrc ≠ none
  queue : t.latest.closed = false
  lost : ∀ x ∈ t.lost, since ≤ x.1 → x.2 = .replaced

theorem OnlyReplaced.step {since : ℕ} (h : OnlyReplaced since t) (hs : t.feedStep a = some t') :
    OnlyReplaced since t' := by
  have hstep := step_of_feedStep hs
  have hshared := step_shared hstep
  cases a with
  | feeder env =>
    have hclosed := (step_epoch hstep (by rintro _ _ ⟨⟩) (by rintro _ ⟨⟩)).2.2.2
    have hkept : t'.shared.running = t.shared.running ∧ t'.shared.appsrc = t.shared.appsrc := by
      rw [hshared]
      cases hsec : t.entered (.feeder env) with
      | none => exact ⟨rfl, rfl⟩
      | some sec =>
        simp only [entered] at hsec
        split at hsec
        · cases hsec
          exact ⟨(Section.sameEpoch rfl _).running, (SameSource.recordPush _ _ _).source⟩
        all_goals cases hsec
    refine ⟨hkept.1.trans h.running, ?_, hclosed.trans h.queue, ?_⟩
    · rw [hkept.2]
      exact h.bound
    · rcases feederStep_indices hstep with ⟨-, hlost⟩ | ⟨-, -, hnone, -⟩
      · rw [hlost]
        exact h.lost
      · exact absurd hnone h.bound
  | submit unit =>
    simp only [RtspServer.step, RtspServer.submitStep, h.running, if_true] at hstep
    split at hstep
    · cases hstep
      exact ⟨h.running, h.bound, h.queue, h.lost⟩
    · cases hstep
      exact h
    · cases hstep
    · cases hstep
  | submitNext =>
    obtain ⟨-, -, hsame, hcases⟩ := submitNextStep_cases hstep
    rcases hcases with ⟨-, -, hnone, -⟩ | ⟨-, -, -, hlatest, hlost⟩ |
      ⟨-, -, -, ⟨hclosed, -⟩ | ⟨-, -, hopen, hlost⟩⟩
    · exact absurd hnone h.bound
    · exact ⟨hsame ▸ h.running, hsame ▸ h.bound, hlatest ▸ h.queue, hlost ▸ h.lost⟩
    · rw [h.queue] at hclosed
      cases hclosed
    · refine ⟨hsame ▸ h.running, hsame ▸ h.bound, hopen, ?_⟩
      rw [hlost]
      intro x hx hsince
      rcases List.mem_append.mp hx with hx | hx
      · exact h.lost x hx hsince
      · obtain ⟨old, -, rfl⟩ := List.mem_map.mp hx
        rfl
  | _ => cases hs

theorem lt_of_cut {left mid right : List ℕ} {x y : ℕ}
    (h : (left ++ x :: (mid ++ y :: right)).Pairwise (· < ·)) : x < y := by
  obtain ⟨-, hx, -⟩ := List.pairwise_append.mp h
  exact (List.pairwise_cons.mp hx).1 y (by simp)

/-- What an ordered list holds between two of its elements stands between them. -/
theorem mem_of_cut {left mid right : List ℕ} {x y i : ℕ}
    (h : (left ++ x :: (mid ++ y :: right)).Pairwise (· < ·))
    (hi : i ∈ left ++ x :: (mid ++ y :: right)) (hx : x < i) (hy : i < y) : i ∈ mid := by
  obtain ⟨-, htail, hleft⟩ := List.pairwise_append.mp h
  obtain ⟨-, hrest⟩ := List.pairwise_cons.mp htail
  obtain ⟨-, hright, -⟩ := List.pairwise_append.mp hrest
  rcases List.mem_append.mp hi with hi | hi
  · have := hleft i hi x (by simp)
    omega
  rcases List.mem_cons.mp hi with rfl | hi
  · omega
  rcases List.mem_append.mp hi with hi | hi
  · exact hi
  rcases List.mem_cons.mp hi with rfl | hi
  · omega
  · have := (List.pairwise_cons.mp hright).1 i hi
    omega

/-- **What is missing inside a streamed group of pictures.** While the encoder and the feeder are
alone with one source, two units that follow each other on it were submitted in this order, and
what was submitted between them was replaced in the queue by a newer unit, or got no buffer. -/
theorem streamed_gop {s : RtspServer} (hs : Reachable step (initial fps) s)
    (hrunning : s.shared.running = true) (hbound : s.shared.appsrc ≠ none)
    (h : Reachable feedStep s t) {before between after : List FeedEntry} {a b : FeedEntry}
    (hlog : t.feeder.log = before ++ a :: (between ++ b :: after))
    (hbinding : a.binding = b.binding)
    (hgeneration : ∀ e ∈ between ++ [b],
      e.submitted.unit.generation = a.submitted.unit.generation)
    (ha : a.buffer.isSome = true) (hbetween : ∀ e ∈ between, e.buffer = none) :
    a.submitted.index < b.submitted.index ∧
      ∀ i, a.submitted.index < i → i < b.submitted.index → s.submissions ≤ i →
        (i, .replaced) ∈ t.lost ∨
          ∃ e ∈ between, e.submitted.index = i ∧ e.outcome = .unbuffered := by
  have hepoch := EpochInv.reachable hs
  have hstart : OnlyReplaced s.submissions s :=
    ⟨hrunning, hbound, hepoch.queue (Or.inl (hepoch.running ▸ hrunning)),
      fun x hx hsince => absurd ((Accounted.reachable hs).lost x hx) (Nat.not_lt.mpr hsince)⟩
  obtain ⟨hreach, honly⟩ : Reachable step (initial fps) t ∧ OnlyReplaced s.submissions t :=
    h.invariant (fun t => Reachable step (initial fps) t ∧ OnlyReplaced s.submissions t)
      ⟨hs, hstart⟩ fun _ _ _ ⟨hr, ho⟩ hf => ⟨hr.tail (step_of_feedStep hf), ho.step hf⟩
  have hacc := Accounted.reachable hreach
  obtain ⟨hsame, hsameb⟩ := sameStream_between hreach hlog hbinding hgeneration
  obtain ⟨buffer, hbuffer⟩ := Option.isSome_iff_exists.mp ha
  obtain ⟨rest, hindices⟩ : ∃ rest, t.indices = before.map (·.submitted.index) ++
      a.submitted.index :: (between.map (·.submitted.index) ++ b.submitted.index :: rest) :=
    ⟨_, by
      simp only [indices, hlog, List.map_append, List.map_cons, List.append_assoc,
        List.cons_append]
      rfl⟩
  have hordered := hindices ▸ hacc.ordered
  refine ⟨lt_of_cut hordered, fun i hai hib hsince => ?_⟩
  have hbound := hacc.bound b.submitted.index (by simp [hindices])
  rcases hacc.complete i (Nat.lt_trans hib hbound) with hi | ⟨loss, hloss⟩
  · -- the feeder has decided about the unit, and its stream did not have to wait any more
    obtain ⟨e, he, rfl⟩ := List.mem_map.mp (mem_of_cut hordered (hindices ▸ hi) hai hib)
    obtain ⟨front, back, hcut⟩ := List.append_of_mem he
    have hfollows := (FeedInv.reachable hreach).stream.within before a front e
      (back ++ b :: after) buffer (by rw [hlog, hcut]; simp) hbuffer
      (fun x hx => hsame x (by simp [hcut, hx])) (hsame e he)
    refine Or.inr ⟨e, he, rfl, ?_⟩
    have hnone := hbetween e he
    unfold FeedEntry.buffer at hnone
    cases houtcome : e.outcome with
    | awaited => exact absurd houtcome hfollows.1
    | unbuffered => rfl
    | pushed buffer flow => simp [houtcome] at hnone
  · have := honly.lost _ hloss hsince
    subst this
    exact Or.inl hloss

/-- The encoder is faster: a delta frame is replaced before the feeder takes it. -/
def overtaken : List RtspAction :=
  [.submit (some (.ofTest 1 1 false 1)), .submitNext, .submitNext] ++
    feedOne (.ofTest 2 1 false 1) .ok

/-- A keyframe, a delta frame that is replaced, and one that is pushed. -/
theorem streamed_gop_overtaken :
    ∃ t b, Reachable feedStep (streaming 1) t ∧ t.feeder.log = [keyEntry 0, b] ∧
      b.submitted.index = 2 ∧
      ((1, .replaced) ∈ t.lost ∨
        ∃ e ∈ ([] : List FeedEntry), e.submitted.index = 1 ∧ e.outcome = .unbuffered) := by
  have hrun : Reachable feedStep (streaming 1) _ := Reachable.refl.exec overtaken rfl
  refine ⟨_, _, hrun, rfl, rfl, ?_⟩
  exact (streamed_gop (reachable_streaming 0) rfl (by rintro ⟨⟩) hrun
    (show _ = [] ++ keyEntry 0 :: ([] ++ _ :: []) from rfl) rfl (by decide) rfl
    (by rintro _ ⟨⟩)).2 1 (by decide) (by decide) (by decide)

/-- Every delta frame that is handed over follows its predecessor. -/
def NoHole (log : List FeedEntry) : Prop :=
  ∀ before a between b after, log = before ++ a :: (between ++ b :: after) →
    a.buffer.isSome = true → b.buffer.isSome = true → (∀ e ∈ between, e.buffer = none) →
    b.submitted.unit.independentlyDecodable = false → b.submitted.index = a.submitted.index + 1

/-- With every push accepted, a delta frame is pushed without its predecessor. -/
theorem not_noHole :
    ¬ ∀ s t, Reachable step (initial 30) s → s.shared.running = true → s.shared.appsrc ≠ none →
        Reachable feedStep s t →
        (∀ e ∈ t.feeder.log, e.accepted = true ∧ e.submitted.unit.generation = 1) →
        NoHole t.feeder.log := by
  intro h
  have hrun : Reachable feedStep (streaming 1) _ := Reachable.refl.exec overtaken rfl
  have hhole := h (streaming 1) _ (reachable_streaming 0) rfl (by rintro ⟨⟩) hrun (by decide) []
    (keyEntry 0) [] _ [] rfl rfl rfl (by rintro _ ⟨⟩) rfl
  revert hhole
  decide

end RtspServer

end EggVision
