import EggVision.Encoder.Consumer
import EggVision.Rtsp.Rearming
import Mathlib.Data.List.NodupEquivFin

/-!
# The live picture

The encoder's consumer ends with a call of `RtspServer::submit`. The server may be stopped and
started while units come, its media may be unbound and replaced, and the encoder may be restarted
under it. Here both run together, and the units are those that the encoder makes of frames.

## Main definitions

* `Broadcast` — the encoder with the server as its consumer

## Main results

* `live_frames` — clients are shown frames of the camera, in their order
-/

namespace EggVision

open Transition

/-- What is picked from a list at increasing places is a part of it. -/
theorem sublist_of_places {α : Type} {sent : List α} {picked : List (ℕ × α)}
    (hordered : (picked.map Prod.fst).Pairwise (· < ·))
    (hplaces : ∀ x ∈ picked, sent[x.1]? = some x.2) : (picked.map Prod.snd).Sublist sent := by
  have hlt : ∀ i : Fin picked.length, (picked.get i).1 < sent.length := fun i =>
    (List.getElem?_eq_some_iff.mp (hplaces _ (List.get_mem picked i))).1
  have hmono : StrictMono fun i : Fin (picked.map Prod.snd).length =>
      (⟨(picked.get (i.cast (List.length_map _))).1, hlt _⟩ : Fin sent.length) := by
    intro i j hij
    have hpairwise := List.pairwise_map.mp hordered
    exact List.pairwise_iff_getElem.mp hpairwise i j (by simpa using i.2) (by simpa using j.2) hij
  refine List.sublist_iff_exists_fin_orderEmbedding_get_eq.mpr
    ⟨OrderEmbedding.ofStrictMono _ hmono, fun i => ?_⟩
  have hget := hplaces _ (List.get_mem picked (i.cast (List.length_map _)))
  obtain ⟨hbound, heq⟩ := List.getElem?_eq_some_iff.mp hget
  simpa using heq.symm

namespace RtspServer

variable {t t' : RtspServer} {a : RtspAction} {sent : List EncodedAccessUnit}

/-! ### Units and their places -/

/-- `sent` is what was submitted: whatever is under way or decided about has its place there. -/
structure Sent (sent : List EncodedAccessUnit) (t : RtspServer) : Prop where
  submissions : t.submissions = sent.length
  underWay : ∀ submitted, UnderWay submitted t → sent[submitted.index]? = some submitted.unit
  log : ∀ e ∈ t.feeder.log, sent[e.submitted.index]? = some e.submitted.unit

theorem sent_initial (fps : ℕ) : Sent [] (initial fps) where
  submissions := rfl
  underWay := by simp [UnderWay, initial]
  log := by rintro _ ⟨⟩

/-- What is decided about was under way. -/
theorem log_underWay (hs : t.step a = some t') {e : FeedEntry} (he : e ∈ t'.feeder.log) :
    e ∈ t.feeder.log ∨ UnderWay e.submitted t := by
  rcases step_log hs with heq | ⟨x, submitted, hphase, rfl, -, heq⟩ | ⟨item, env, hphase, -, heq⟩
  · exact .inl (heq ▸ he)
  · rw [heq] at he
    rcases List.mem_append.mp he with he | he
    · exact .inl he
    · obtain rfl := List.mem_singleton.mp he
      exact .inr (.inr (.inr (.inl hphase)))
  · obtain ⟨x, phase, hoffer, hsubmitted, -⟩ :=
      Feeder.offer_spec t.fps env.allocated env.flow item t.feeder
    rw [heq, hoffer] at he
    rcases List.mem_append.mp he with he | he
    · exact .inl he
    · obtain rfl := List.mem_singleton.mp he
      exact .inr (.inr (.inr (.inr ⟨item, hphase, hsubmitted.symm⟩)))

theorem step_submissions (hs : t.step a = some t') (ha : ∀ unit, a ≠ .submit unit) :
    t'.submissions = t.submissions := by
  by_cases hfeeder : ∃ env, a = .feeder env
  · obtain ⟨env, rfl⟩ := hfeeder
    exact (feederStep_submitter hs).1
  by_cases hnext : a = .submitNext
  · subst hnext
    exact (submitNextStep_cases hs).1
  · exact (step_queue hs (by simpa using hfeeder) ha hnext).1

/-- All but `submit` hand on what there is. -/
theorem Sent.step (h : Sent sent t) (hs : t.step a = some t') (ha : ∀ unit, a ≠ .submit unit) :
    Sent sent t' where
  submissions := (step_submissions hs ha).trans h.submissions
  underWay := fun submitted hunder =>
    h.underWay submitted ((step_underWay hs hunder).resolve_right (ha _))
  log := fun e he => (log_underWay hs he).elim (h.log e) (h.underWay e.submitted)

/-- A call of `submit` numbers its unit; what else is under way was so before. -/
theorem submitStep_spec {unit : EncodedAccessUnit} (hs : t.submitStep (some unit) = some t') :
    t'.submissions = t.submissions + 1 ∧ ∀ submitted, UnderWay submitted t' →
      UnderWay submitted t ∨ submitted = { index := t.submissions, unit } := by
  unfold submitStep at hs
  cases hphase : t.submitter with
  | locking | pushing => simp [hphase] at hs
  | idle =>
    simp only [hphase] at hs
    split at hs
    · obtain rfl := Option.some.inj hs
      refine ⟨rfl, fun submitted hunder => ?_⟩
      simp only [UnderWay, SubmitPhase.locking.injEq, reduceCtorEq, or_false] at hunder
      rcases hunder with rfl | hunder
      · exact .inr rfl
      · exact .inl (.inr hunder)
    · obtain rfl := Option.some.inj hs
      refine ⟨rfl, fun submitted hunder => .inl ?_⟩
      simpa only [UnderWay, hphase] using hunder

/-- `submit` gives the unit the next place. -/
theorem Sent.submit (h : Sent sent t) {unit : EncodedAccessUnit}
    (hs : t.step (.submit (some unit)) = some t') : Sent (sent ++ [unit]) t' := by
  obtain ⟨hsubmissions, hunderWay⟩ := submitStep_spec hs
  have hgrow : ∀ {submitted : Submitted}, sent[submitted.index]? = some submitted.unit →
      (sent ++ [unit])[submitted.index]? = some submitted.unit := by
    intro submitted hplace
    obtain ⟨hlt, -⟩ := List.getElem?_eq_some_iff.mp hplace
    rw [List.getElem?_append_left hlt, hplace]
  refine ⟨?_, fun submitted hunder => ?_, fun e he => ?_⟩
  · rw [hsubmissions, h.submissions, List.length_append, List.length_singleton]
  · rcases hunderWay submitted hunder with hunder | rfl
    · exact hgrow (h.underWay submitted hunder)
    · simp [h.submissions]
  · rcases log_underWay hs he with he | hunder
    · exact hgrow (h.log e he)
    · exact hgrow (h.underWay e.submitted hunder)

/-- The units in the log are submitted ones, in the order in which they were submitted. -/
theorem Sent.log_sublist {fps : ℕ} (h : Sent sent t)
    (hr : Reachable RtspServer.step (initial fps) t) :
    (t.feeder.log.map fun e => e.submitted.unit).Sublist sent := by
  have hordered := (Accounted.reachable hr).ordered
  rw [indices] at hordered
  have hlog := (List.pairwise_append.mp (List.pairwise_append.mp
    (List.pairwise_append.mp hordered).1).1).1
  let picked : List (ℕ × EncodedAccessUnit) :=
    t.feeder.log.map fun e => (e.submitted.index, e.submitted.unit)
  have hplaces : ∀ x ∈ picked, sent[x.1]? = some x.2 := by
    intro x hx
    obtain ⟨e, he, rfl⟩ := List.mem_map.mp hx
    exact h.log e he
  have hfirst : picked.map Prod.fst = t.feeder.log.map fun e => e.submitted.index := by
    simp [picked]
  have hpicked := sublist_of_places (hfirst ▸ hlog) hplaces
  simpa [picked, Function.comp_def] using hpicked

end RtspServer

/-! ### The encoder and the server -/

/-- The encoder, with the server at the end of its consumer. `handed` says that the call for the
unit in hand has begun; `sent` is what was submitted so far. -/
structure Broadcast where
  encoder : EncoderStream
  server : RtspServer
  handed : Bool := false
  sent : List EncodedAccessUnit := []

/-- The steps: those of the encoder and of the server, and the two ends of the consumer's call. -/
inductive BroadcastAction
  | encoder (a : StreamAction)
  | server (a : RtspAction)
  | submit
  | returns (throws : Bool)

namespace Broadcast

def initial (fps : ℕ) : Broadcast := { encoder := .initial fps, server := .initial fps }

/-- `submit` of the server is called for the unit in hand, once, by the encoder's output thread and
nobody else. An exception may end the consumer before that. -/
def step (s : Broadcast) : BroadcastAction → Option Broadcast
  | .encoder a =>
    if s.encoder.returns a then none
    else (s.encoder.step a).map fun encoder => { s with encoder }
  | .server (.submit _) => none
  | .server a => (s.server.step a).map fun server => { s with server }
  | .submit =>
    if s.handed then none
    else s.encoder.inHand.bind fun unit =>
      (s.server.step (.submit (some unit))).map fun server =>
        { s with server, handed := true, sent := s.sent ++ [unit] }
  | .returns throws =>
    if (s.handed || throws) ∧ s.server.submitter = .idle ∧ s.encoder.inHand.isSome then
      (s.encoder.step (.output none throws)).map fun encoder => { s with encoder, handed := false }
    else none

/-- What a step is for the encoder. -/
def streamAction : BroadcastAction → Option StreamAction
  | .encoder a => some a
  | .returns throws => some (.output none throws)
  | .server _ | .submit => none

/-- The steps of the encoder in a run. -/
def encoderHistory (history : List (Broadcast × BroadcastAction)) :
    List (EncoderStream × StreamAction) :=
  history.filterMap fun x => (streamAction x.2).map fun a => (x.1.encoder, a)

variable {s s' : Broadcast} {history : List (Broadcast × BroadcastAction)} {fps : ℕ}
  {a : BroadcastAction}

/-- Who takes part in a step. -/
theorem step_cases (hs : s.step a = some s') :
    (∃ b encoder, a = .encoder b ∧ s.encoder.returns b = false ∧ s.encoder.step b = some encoder ∧
      s' = { s with encoder }) ∨
    (∃ b server, a = .server b ∧ (∀ unit, b ≠ .submit unit) ∧ s.server.step b = some server ∧
      s' = { s with server }) ∨
    (∃ unit server, a = .submit ∧ s.handed = false ∧ s.encoder.inHand = some unit ∧
      s.server.step (.submit (some unit)) = some server ∧
      s' = { s with server, handed := true, sent := s.sent ++ [unit] }) ∨
    ∃ throws encoder, a = .returns throws ∧ s.encoder.inHand.isSome = true ∧
      s.encoder.step (.output none throws) = some encoder ∧
      s' = { s with encoder, handed := false } := by
  match a, hs with
  | .encoder b, hs =>
    obtain ⟨hreturns, hs⟩ := Option.ite_none_left_eq_some.mp hs
    obtain ⟨encoder, hencoder, heq⟩ := Option.map_eq_some_iff.mp hs
    exact .inl ⟨b, encoder, rfl, by simpa using hreturns, hencoder, heq.symm⟩
  | .submit, hs =>
    obtain ⟨hhanded, hs⟩ := Option.ite_none_left_eq_some.mp hs
    obtain ⟨unit, hunit, hs⟩ := Option.bind_eq_some_iff.mp hs
    obtain ⟨server, hserver, heq⟩ := Option.map_eq_some_iff.mp hs
    exact .inr (.inr (.inl ⟨unit, server, rfl, by simpa using hhanded, hunit, hserver, heq.symm⟩))
  | .returns throws, hs =>
    obtain ⟨⟨-, -, hunit⟩, hs⟩ := Option.ite_none_right_eq_some.mp hs
    obtain ⟨encoder, hencoder, heq⟩ := Option.map_eq_some_iff.mp hs
    exact .inr (.inr (.inr ⟨throws, encoder, rfl, hunit, hencoder, heq.symm⟩))
  | .server b, hs =>
    refine .inr (.inl ?_)
    cases b with
    | submit unit => cases hs
    | call | owner | signal | callback | tick | watchdog | worker | feeder | submitNext =>
      obtain ⟨server, hserver, heq⟩ := Option.map_eq_some_iff.mp hs
      exact ⟨_, server, rfl, by rintro _ ⟨⟩, hserver, heq.symm⟩

/-- The encoder has a run of its own. -/
theorem encoder_run (h : Run step (initial fps) history s) :
    Run EncoderStream.step (.initial fps) (encoderHistory history) s.encoder := by
  refine h.project encoder (fun _ => streamAction) ?_ ?_
  · intro s a s' b hs hb
    rcases step_cases hs with ⟨c, encoder, rfl, -, hc, rfl⟩ | ⟨c, server, rfl, -⟩ |
      ⟨unit, server, rfl, -⟩ | ⟨throws, encoder, rfl, -, hc, rfl⟩
    · cases hb
      exact hc
    · cases hb
    · cases hb
    · cases hb
      exact hc
  · intro s a s' hs hb
    rcases step_cases hs with ⟨c, encoder, rfl, -⟩ | ⟨c, server, -, -, -, rfl⟩ |
      ⟨unit, server, -, -, -, -, rfl⟩ | ⟨throws, encoder, rfl, -⟩
    · cases hb
    · rfl
    · rfl
    · cases hb

/-- So does the server. -/
theorem server_reachable (h : Reachable step (initial fps) s) :
    Reachable RtspServer.step (.initial fps) s.server := by
  refine h.map server fun s a s' hs => ?_
  rcases step_cases hs with ⟨c, encoder, -, -, -, rfl⟩ | ⟨c, server, -, -, hc, rfl⟩ |
    ⟨unit, server, -, -, -, hc, rfl⟩ | ⟨throws, encoder, -, -, -, rfl⟩
  · exact .inl rfl
  · exact .inr ⟨c, hc⟩
  · exact .inr ⟨_, hc⟩
  · exact .inl rfl

/-- What was submitted was delivered, or is in hand. -/
structure Linked (s : Broadcast) : Prop where
  sent : RtspServer.Sent s.sent s.server
  inHand : s.handed = true → s.encoder.inHand.isSome = true
  made : ∃ before, s.sent = before ++ (if s.handed then s.encoder.inHand.toList else []) ∧
    before.Sublist s.encoder.delivered

theorem linked_initial (fps : ℕ) : Linked (initial fps) :=
  ⟨RtspServer.sent_initial fps, by rintro ⟨⟩, [], rfl, .slnil⟩

theorem Linked.step (h : Linked s) (hs : s.step a = some s') : Linked s' := by
  obtain ⟨hsent, hinHand, before, hbefore, hsublist⟩ := h
  rcases step_cases hs with ⟨b, encoder, rfl, hreturns, hencoder, rfl⟩ |
    ⟨b, server, rfl, hsubmit, hserver, rfl⟩ | ⟨unit, server, rfl, hhanded, hunit, hserver, rfl⟩ |
    ⟨throws, encoder, rfl, hsome, hencoder, rfl⟩
  · rcases EncoderStream.step_handed hencoder with ⟨-, hdelivered, hsame⟩ |
      ⟨pulled, throws, sample, bytes, rfl, hout, -, hdelivered, -⟩ | ⟨unit, htrue, -⟩
    · refine ⟨hsent, ?_, before, ?_, ?_⟩
      · rw [hsame]
        exact hinHand
      · rw [hsame]
        exact hbefore
      · rw [hdelivered]
        exact hsublist
    · -- no call is under way while the thread makes a unit
      have hhanded : s.handed = false := by
        by_contra hhanded
        have := hinHand (by simpa using hhanded)
        simp [EncoderStream.inHand, hout] at this
      rw [hhanded] at hbefore
      refine ⟨hsent, ?_, before, ?_, ?_⟩
      · rw [hhanded]
        rintro ⟨⟩
      · rw [hhanded]
        exact hbefore
      · rw [hdelivered]
        exact hsublist
    · rw [hreturns] at htrue
      cases htrue
  · exact ⟨hsent.step hserver hsubmit, hinHand, before, hbefore, hsublist⟩
  · refine ⟨hsent.submit hserver, fun _ => ?_, before, ?_, hsublist⟩
    · rw [hunit]
      rfl
    · rw [hbefore, hhanded, hunit]
      simp
  · refine ⟨hsent, by rintro ⟨⟩, s.sent, by simp, ?_⟩
    obtain ⟨unit, hunit⟩ := Option.isSome_iff_exists.mp hsome
    rcases EncoderStream.step_handed hencoder with ⟨hfalse, -⟩ |
      ⟨_, _, _, _, -, hout, -⟩ | ⟨other, -, hother, hdelivered, -⟩
    · simp [EncoderStream.returns, hunit] at hfalse
    · simp [EncoderStream.inHand, hout] at hunit
    · rw [hdelivered, hbefore, hother]
      refine hsublist.append ?_
      split
      · exact List.Sublist.refl _
      · exact List.nil_sublist _

theorem Linked.sublist_made (h : Linked s) : s.sent.Sublist s.encoder.made := by
  obtain ⟨-, -, before, hbefore, hsublist⟩ := h
  rw [hbefore, EncoderStream.made]
  refine hsublist.append ?_
  split
  · exact List.Sublist.refl _
  · exact List.nil_sublist _

/-! ### Every run -/

/-- What the feeder has decided about, by generation and sensor timestamp. -/
def shown (s : Broadcast) : List (ℕ × ℕ) :=
  s.server.feeder.log.map fun e => EncoderStream.unitStamp e.submitted.unit

/-- **Clients are shown frames of the camera, in their order.** Whatever happens to the server and
its media, and however often the encoder fails and is started again: the units that the feeder has
taken, for whatever source, are some of the frames that the encoder was given, none of them twice
and none out of turn. -/
theorem live_frames (h : Run step (initial fps) history s)
    (hkeeps : ∀ x ∈ encoderHistory history, EncoderStream.KeepsPts x)
    (hthreadless : ∀ x ∈ encoderHistory history, EncoderStream.StartsThreadless x)
    (hmono : EncoderStream.Monotonic (EncoderStream.frames (encoderHistory history))) :
    s.shown.Sublist (EncoderStream.frames (encoderHistory history)) := by
  have hlinked := h.reachable.invariant Linked (linked_initial fps) fun _ _ _ => Linked.step
  have hlog := hlinked.sent.log_sublist (server_reachable h.reachable)
  have hmade := EncoderStream.made_sublist (encoder_run h) hkeeps hthreadless hmono
  have hshown : s.shown = (s.server.feeder.log.map fun e => e.submitted.unit).map
      EncoderStream.unitStamp := by simp [shown]
  rw [hshown]
  exact ((hlog.trans hlinked.sublist_made).map _).trans hmade

/-- A frame on its way through the encoder to the source that is bound. -/
def air (sensorTimestampNs : UInt64) (pts : ℕ) (bytes : List UInt8) : List BroadcastAction :=
  (EncoderStream.encodeOne sensorTimestampNs pts bytes).map .encoder ++
    [.submit, .server .submitNext, .server .submitNext, .returns false] ++
    List.replicate 5 (.server (.feeder {}))

/-- A keyframe, a frame that is lost, and another one. -/
def aired : List BroadcastAction :=
  RtspServer.readyToFeed.map .server ++ EncoderStream.bringUp.map .encoder ++
    air 5 0 EncoderStream.keyBytes ++
    [.encoder (.submit { main := {}, sensorTimestampNs := 6 } false)] ++
    air 7 2 EncoderStream.deltaBytes

theorem live_frames_aired : ∃ history s, Run step (initial 30) history s ∧
    s.server.metrics.rtspPushed = 2 ∧ s.shown = [(1, 5), (1, 7)] ∧
    s.shown.Sublist (EncoderStream.frames (encoderHistory history)) := by
  obtain ⟨s, hs, hshown⟩ := (Option.any_eq_true _ _).mp
    (show (exec step (initial 30) aired).any (fun s =>
      decide (s.server.metrics.rtspPushed = 2 ∧ s.shown = [(1, 5), (1, 7)])) = true by decide)
  have hshown := of_decide_eq_true hshown
  have hrun := Run.ofExec aired hs
  have hframes : EncoderStream.frames (encoderHistory (trace step (initial 30) aired)) =
      [(1, 5), (1, 6), (1, 7)] := by decide
  refine ⟨_, s, hrun, hshown.1, hshown.2, live_frames hrun (by decide) (by decide) ?_⟩
  rw [hframes]
  exact ⟨by decide, by decide⟩

end Broadcast

end EggVision
