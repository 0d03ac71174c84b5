import EggVision.Encoder.Stream
import EggVision.Lib.Transition

/-!
# Access units have the timestamps of their frames

The recorder finds the pre-roll of a detection by the sensor timestamps of the access units, and a
unit has never seen its frame. It has the frame's timestamp all the same, and the generation that
the frame came in, through whatever threads and pipelines failed on the way.

## Main definitions

* `EncoderStream.carried` — what is on its way, with the timestamps it will leave with
* `EncoderStream.Stamped` — the invariant

## Main results

* `EncoderStream.delivered_sublist`
-/

namespace EggVision

open Transition

namespace EncoderStream

variable {s s' : EncoderStream} {history : List (EncoderStream × StreamAction)} {fps : ℕ}
  {outcomes : RawOutcomes} {flow : FlowReturn}

/-! ### What is on its way -/

/-- The generation and the timestamp that a sample with this presentation time gets. -/
def stamp (s : EncoderStream) (pts : ℕ) : ℕ × ℕ := (s.generation, (s.base + pts) % 2 ^ 64)

/-- A frame that has no presentation time yet, in the hands of `inputLoop` or in the queue. -/
def fresh (s : EncoderStream) : List Frame :=
  (match s.input with
    | .making frame => [frame]
    | _ => []) ++ s.latest.value.toList

def handing (s : EncoderStream) : List (ℕ × ℕ) :=
  match s.output with
  | .mapping sample => [s.stamp (sample.pts.getD 0)]
  | .consuming unit => [(unit.generation, unit.sensorTimestampNs)]
  | _ => []

def piped (s : EncoderStream) : List (ℕ × ℕ) := s.pipeline.map fun buffer => s.stamp buffer.pts

def holding (s : EncoderStream) : List (ℕ × ℕ) :=
  match s.input with
  | .pushing buffer => [s.stamp buffer.pts]
  | _ => []

/-- What has a presentation time, the oldest first. -/
def stamped (s : EncoderStream) : List (ℕ × ℕ) := s.handing ++ s.piped ++ s.holding

/-- What is on its way, the oldest first. -/
def carried (s : EncoderStream) : List (ℕ × ℕ) :=
  s.stamped ++ s.fresh.map fun frame => (s.generation, frame.sensorTimestampNs.toNat)

/-- The generation and the timestamp of a unit. -/
def unitStamp (unit : EncodedAccessUnit) : ℕ × ℕ := (unit.generation, unit.sensorTimestampNs)

/-- What has left, and what is on its way. -/
def units (s : EncoderStream) : List (ℕ × ℕ) := s.delivered.map unitStamp ++ s.carried

/-! ### The invariant -/

/-- Sensor timestamps that are never zero and never go back. -/
structure Monotonic (sent : List (ℕ × ℕ)) : Prop where
  ne_zero : ∀ x ∈ sent, x.2 ≠ 0
  pairwise : sent.Pairwise fun x y => x.2 ≤ y.2

theorem Monotonic.left {sent later : List (ℕ × ℕ)} (h : Monotonic (sent ++ later)) :
    Monotonic sent :=
  ⟨fun x hx => h.ne_zero x (List.mem_append_left _ hx), (List.pairwise_append.mp h.pairwise).1⟩

/-- Everything that has left or is on its way is a frame that was sent, in the order in which the
frames were sent. -/
structure Stamped (sent : List (ℕ × ℕ)) (s : EncoderStream) : Prop where
  sublist : s.units.Sublist sent
  stamped_of_zero : s.base = 0 → s.stamped = []
  base_mem : s.base ≠ 0 → ∃ x ∈ sent, x.2 = s.base
  base_le : ∀ frame ∈ s.fresh, s.base ≤ frame.sensorTimestampNs.toNat
  pipeline_of_absent : s.input = .absent → s.output = .absent → s.pipeline = []

theorem stamped_initial (fps : ℕ) : Stamped [] (initial fps) where
  sublist := by simp [units, carried, stamped, handing, piped, holding, fresh, initial]
  stamped_of_zero := fun _ => rfl
  base_mem := fun h => absurd rfl h
  base_le := by simp [fresh, initial]
  pipeline_of_absent := fun _ _ => rfl

variable {sent : List (ℕ × ℕ)}

/-- A step that leaves the generation and the base as they are, and passes on or loses what is on
its way. -/
theorem Stamped.pass (h : Stamped sent s) (hgeneration : s'.generation = s.generation)
    (hbase : s'.base = s.base)
    (hunits : (s'.delivered.map unitStamp ++ s'.stamped).Sublist
      (s.delivered.map unitStamp ++ s.stamped))
    (hstamped : s.stamped = [] → s'.stamped = [])
    (hfresh : s'.fresh.Sublist s.fresh)
    (habsent : s'.input = .absent → s'.output = .absent → s'.pipeline = []) :
    Stamped sent s' where
  sublist := by
    have hsublist := h.sublist
    rw [units, carried, ← List.append_assoc] at hsublist
    rw [units, carried, hgeneration, ← List.append_assoc]
    exact (hunits.append (hfresh.map _)).trans hsublist
  stamped_of_zero := fun hzero => hstamped (h.stamped_of_zero (hbase.symm.trans hzero))
  base_mem := by
    rw [hbase]
    exact h.base_mem
  base_le := fun frame hframe => by
    rw [hbase]
    exact h.base_le frame (hfresh.subset hframe)
  pipeline_of_absent := habsent

/-! ### One step -/

/-- A frame that is sent is the last one. -/
theorem Stamped.snoc (h : Stamped sent s) (frame : Frame)
    (hmono : Monotonic (sent ++ [(s.generation, frame.sensorTimestampNs.toNat)])) :
    Stamped (sent ++ [(s.generation, frame.sensorTimestampNs.toNat)]) (s.submit frame false) := by
  have hlater : ∀ x ∈ sent, x.2 ≤ frame.sensorTimestampNs.toNat := by
    intro x hx
    exact (List.pairwise_append.mp hmono.pairwise).2.2 x hx _ (List.mem_singleton_self _)
  have hbase : s.base ≤ frame.sensorTimestampNs.toNat := by
    by_cases hzero : s.base = 0
    · omega
    · obtain ⟨x, hx, hbase⟩ := h.base_mem hzero
      exact hbase ▸ hlater x hx
  have hmem : s.base ≠ 0 →
      ∃ x ∈ sent ++ [(s.generation, frame.sensorTimestampNs.toNat)], x.2 = s.base := by
    intro hzero
    obtain ⟨x, hx, hbase⟩ := h.base_mem hzero
    exact ⟨x, List.mem_append_left _ hx, hbase⟩
  cases hclosed : s.latest.closed with
  | true =>
    have hsame : s.submit frame false = s := by simp [submit, LatestFrameQueue.push, hclosed]
    rw [hsame]
    exact { h with
      sublist := h.sublist.trans (List.sublist_append_left _ _)
      base_mem := hmem }
  | false =>
    obtain ⟨dropped, hsubmit⟩ : ∃ dropped, s.submit frame false =
        { s with latest := { s.latest with value := some frame }, dropped } := by
      refine ⟨s.dropped + s.latest.value.isSome.toNat, ?_⟩
      simp [submit, LatestFrameQueue.push, hclosed]
    rw [hsubmit]
    let made := match s.input with
      | .making frame => [frame]
      | _ => []
    have hmade : made.Sublist s.fresh := List.sublist_append_left _ _
    refine ⟨?_, h.stamped_of_zero, hmem, ?_, h.pipeline_of_absent⟩
    · have hkept : (s.delivered.map unitStamp ++ (s.stamped ++
          made.map fun frame => (s.generation, frame.sensorTimestampNs.toNat))).Sublist sent :=
        .trans (.append_left (.append_left (hmade.map _) _) _) h.sublist
      have hall := hkept.append_right [(s.generation, frame.sensorTimestampNs.toNat)]
      rw [List.append_assoc, List.append_assoc] at hall
      show (s.delivered.map unitStamp ++ (s.stamped ++ (made ++ [frame]).map fun frame =>
        (s.generation, frame.sensorTimestampNs.toNat))).Sublist _
      rw [List.map_append]
      exact hall
    · intro other hother
      rcases List.mem_append.mp (show other ∈ made ++ [frame] from hother) with hother | hother
      · exact h.base_le other (hmade.subset hother)
      · rw [List.mem_singleton.mp hother]
        exact hbase

/-- The presentation time of a frame, and the timestamp that comes of it. -/
theorem makeRawBuffer_pts {frame : Frame} {base frameIndex : ℕ} {buffer : RawBuffer}
    (h : makeRawBuffer fps outcomes frame.main frame.sensorTimestampNs.toNat base frameIndex =
      some buffer) (hbase : base ≤ frame.sensorTimestampNs.toNat) :
    (base + buffer.pts) % 2 ^ 64 = frame.sensorTimestampNs.toNat := by
  unfold makeRawBuffer at h
  split at h
  · cases h
  · split at h
    · cases h
    · obtain rfl := Option.some.inj h
      have hlt := frame.sensorTimestampNs.toNat_lt
      show (base + (frame.sensorTimestampNs.toNat - base)) % 2 ^ 64 = _
      omega

/-- Nothing is handed out, whatever else changes. -/
theorem handing_of_output (h : s.handing = []) (houtput : s'.output = s.output) :
    s'.handing = [] := by
  unfold handing at h ⊢
  rw [houtput]
  cases hstage : s.output <;> simp_all

/-- The first frame of a pipeline gets the presentation time zero, and the others come after it. -/
theorem Stamped.first (h : Stamped sent s) (hmono : Monotonic sent) {frame : Frame}
    (hinput : s.input = .making frame) (hzero : s.base = 0)
    (hs : (match makeRawBuffer s.fps outcomes frame.main frame.sensorTimestampNs.toNat
        frame.sensorTimestampNs.toNat 0 with
      | some buffer => some { s with
          base := frame.sensorTimestampNs.toNat, frameIndex := 0 + 1, input := .pushing buffer }
      | none => some { s with
          base := frame.sensorTimestampNs.toNat, frameIndex := 0 + 1, input := .checking,
          errors := s.errors + 1 }) = some s') : Stamped sent s' := by
  have hfresh : s.fresh = frame :: s.latest.value.toList := by simp [fresh, hinput]
  have hnone := h.stamped_of_zero hzero
  have hsublist := h.sublist
  rw [units, carried, hnone, hfresh] at hsublist
  have hmem : (s.generation, frame.sensorTimestampNs.toNat) ∈ sent :=
    hsublist.subset (by simp)
  have hne : frame.sensorTimestampNs.toNat ≠ 0 := hmono.ne_zero _ hmem
  have hlater : ∀ other ∈ s.latest.value.toList,
      frame.sensorTimestampNs.toNat ≤ other.sensorTimestampNs.toNat := by
    intro other hother
    have hpairwise := hmono.pairwise.sublist hsublist
    rw [List.nil_append, List.map_cons] at hpairwise
    exact (List.pairwise_cons.mp (List.pairwise_append.mp hpairwise).2.1).1 _
      (List.mem_map_of_mem hother)
  have houtput : s.handing = [] ∧ s.pipeline = [] := by
    simpa [stamped, piped, holding, hinput] using hnone
  obtain ⟨hhanding, hpipeline⟩ := houtput
  split at hs
  next buffer hmade =>
    obtain rfl := Option.some.inj hs
    have hpts := makeRawBuffer_pts hmade le_rfl
    refine ⟨?_, fun h0 => absurd h0 hne, fun _ => ⟨_, hmem, rfl⟩, hlater, fun h0 => by cases h0⟩
    rw [units, carried, stamped, handing_of_output hhanding]
    · simpa [-Nat.reducePow, piped, holding, stamp, fresh, hpipeline, hpts] using hsublist
    · rfl
  · obtain rfl := Option.some.inj hs
    refine ⟨?_, fun h0 => absurd h0 hne, fun _ => ⟨_, hmem, rfl⟩, hlater, fun h0 => by cases h0⟩
    rw [units, carried, stamped, handing_of_output hhanding]
    · have htail := (List.Sublist.append_left (List.sublist_cons_self _ _) _).trans hsublist
      simpa [piped, holding, fresh, hpipeline] using htail
    · rfl

theorem Stamped.inputStep (h : Stamped sent s) (hmono : Monotonic sent)
    (hs : s.inputStep outcomes flow = some s') : Stamped sent s' := by
  unfold EncoderStream.inputStep at hs
  cases hinput : s.input with
  | absent => simp [hinput] at hs
  | exited => simp [hinput] at hs
  | checking =>
    simp only [hinput, Option.some.injEq] at hs
    subst hs
    refine h.pass rfl rfl ?_ ?_ ?_ ?_
    · cases s.running <;> simp [stamped, handing, piped, holding, stamp, hinput]
    · cases s.running <;> simp [stamped, handing, piped, holding, stamp, hinput]
    · cases s.running <;> simp [fresh, hinput]
    · cases s.running <;> simp
  | popping =>
    simp only [hinput, Option.map_eq_some_iff] at hs
    obtain ⟨⟨popped, latest⟩, hpop, rfl⟩ := hs
    unfold LatestFrameQueue.waitPop at hpop
    cases hvalue : s.latest.value with
    | some frame =>
      simp only [hvalue, Option.some.injEq, Prod.mk.injEq] at hpop
      obtain ⟨rfl, rfl⟩ := hpop
      refine h.pass rfl rfl ?_ ?_ ?_ ?_
      · simp [stamped, handing, piped, holding, stamp, hinput]
      · simp [stamped, handing, piped, holding, stamp, hinput]
      · simp [fresh, hinput, hvalue]
      · simp
    | none =>
      simp only [hvalue, Option.ite_none_right_eq_some, Option.some.injEq, Prod.mk.injEq] at hpop
      obtain ⟨-, rfl, rfl⟩ := hpop
      refine h.pass rfl rfl ?_ ?_ ?_ ?_
      · simp [stamped, handing, piped, holding, stamp, hinput]
      · simp [stamped, handing, piped, holding, stamp, hinput]
      · simp [fresh, hinput, hvalue]
      · simp
  | making frame =>
    simp only [hinput] at hs
    have hfresh : s.fresh = frame :: s.latest.value.toList := by simp [fresh, hinput]
    by_cases hzero : s.base = 0
    · rw [if_pos hzero, if_pos hzero] at hs
      exact h.first hmono hinput hzero hs
    · rw [if_neg hzero, if_neg hzero] at hs
      split at hs
      next buffer hmade =>
        obtain rfl := Option.some.inj hs
        have hpts := makeRawBuffer_pts hmade (h.base_le frame (by simp [hfresh]))
        refine ⟨?_, fun h0 => absurd h0 hzero, h.base_mem, ?_, fun h0 => by cases h0⟩
        · have hsublist := h.sublist
          rw [units, carried, hfresh] at hsublist
          simpa [-Nat.reducePow, units, carried, stamped, handing, piped, holding, stamp, fresh,
            hinput, hpts] using hsublist
        · intro other hother
          exact h.base_le other (hfresh ▸ List.mem_cons_of_mem _ hother)
      · obtain rfl := Option.some.inj hs
        refine h.pass rfl rfl ?_ ?_ ?_ ?_
        · simp [stamped, handing, piped, holding, stamp, hinput]
        · simp [stamped, handing, piped, holding, stamp, hinput]
        · simp [fresh, hinput]
        · simp
  | pushing buffer =>
    simp only [hinput, Option.some.injEq] at hs
    subst hs
    refine h.pass rfl rfl ?_ ?_ ?_ ?_
    · cases flow <;> simp [stamped, handing, piped, holding, stamp, hinput]
    · cases flow <;> simp [stamped, handing, piped, holding, stamp, hinput]
    · simp [fresh, hinput]
    · simp

theorem Stamped.outputStep (h : Stamped sent s) {pulled : Option GstSample} {throws : Bool}
    (hkeeps : KeepsPts (s, .output pulled throws))
    (hs : s.outputStep pulled throws = some s') : Stamped sent s' := by
  unfold EncoderStream.outputStep at hs
  cases houtput : s.output with
  | absent => simp [houtput] at hs
  | exited => simp [houtput] at hs
  | checking =>
    simp only [houtput, Option.some.injEq] at hs
    subst hs
    refine h.pass rfl rfl ?_ ?_ (.refl _) ?_
    · cases s.running <;> simp [stamped, handing, piped, holding, stamp, houtput]
    · cases s.running <;> simp [stamped, handing, piped, holding, stamp, houtput]
    · cases s.running <;> simp
  | pulling =>
    simp only [houtput] at hs
    split at hs
    next hnone =>
      obtain rfl := Option.some.inj hs
      refine h.pass rfl rfl ?_ ?_ (.refl _) ?_
      · simp [stamped, handing, piped, holding, stamp, houtput]
      · simp [stamped, handing, piped, holding, stamp, houtput]
      · simp
    · cases hs
    next sample buffer pipeline hpipeline =>
      obtain rfl := Option.some.inj hs
      have hpts : sample.pts = some buffer.pts := by
        simpa [KeepsPts, houtput, hpipeline] using hkeeps
      refine h.pass rfl rfl ?_ ?_ (.refl _) ?_
      · simp [stamped, handing, piped, holding, stamp, houtput, hpipeline, hpts]
      · simp [stamped, handing, piped, holding, stamp, houtput, hpipeline]
      · simp
  | mapping sample =>
    simp only [houtput] at hs
    split at hs
    · obtain rfl := Option.some.inj hs
      refine h.pass rfl rfl ?_ ?_ (.refl _) ?_
      · simp [stamped, handing, piped, holding, stamp, houtput]
      · simp [stamped, handing, piped, holding, stamp, houtput]
      · simp
    · obtain rfl := Option.some.inj hs
      refine h.pass rfl rfl ?_ ?_ (.refl _) ?_
      · simp [stamped, handing, piped, holding, stamp, houtput, accessUnit]
      · simp [stamped, handing, piped, holding, stamp, houtput]
      · simp
  | consuming unit =>
    simp only [houtput, Option.some.injEq] at hs
    subst hs
    refine h.pass rfl rfl ?_ ?_ (.refl _) ?_
    · simp [stamped, handing, piped, holding, stamp, houtput, unitStamp]
    · simp [stamped, handing, piped, holding, stamp, houtput]
    · simp

theorem Stamped.lose (h : Stamped sent s) (index : ℕ) :
    Stamped sent { s with pipeline := s.pipeline.eraseIdx index } := by
  have hpiped : (({ s with pipeline := s.pipeline.eraseIdx index } : EncoderStream).piped).Sublist
      s.piped := (List.eraseIdx_sublist _ _).map _
  refine h.pass rfl rfl ?_ ?_ (.refl _) ?_
  · exact .append_left ((hpiped.append_left _).append_right _) _
  · intro hnone
    simp only [stamped, List.append_eq_nil_iff] at hnone
    obtain ⟨⟨hhanding, hnone⟩, hholding⟩ := hnone
    have hnone' : ({ s with pipeline := s.pipeline.eraseIdx index } : EncoderStream).piped = [] :=
      List.sublist_nil.mp (hnone ▸ hpiped)
    rw [stamped, hnone', List.append_nil]
    show s.handing ++ s.holding = []
    rw [hhanding, hholding, List.append_nil]
  · intro hinput houtput
    show s.pipeline.eraseIdx index = []
    rw [h.pipeline_of_absent hinput houtput]
    rfl

/-- A queue that is closed or opened again loses what is in it. -/
theorem Stamped.emptied (h : Stamped sent s) (closed : Bool) :
    Stamped sent { s with latest := { value := none, closed } } :=
  h.pass rfl rfl (.refl _) id (by simp [fresh]) h.pipeline_of_absent

theorem Stamped.busStep (h : Stamped sent s) {message : Bool}
    (hs : s.busStep message = some s') : Stamped sent s' := by
  unfold EncoderStream.busStep at hs
  split at hs
  · cases hs
  · cases hs
  · split_ifs at hs
    · obtain rfl := Option.some.inj hs
      exact { h with }
    · obtain rfl := Option.some.inj hs
      exact h
    · obtain rfl := Option.some.inj hs
      exact { h with }
  · obtain rfl := Option.some.inj hs
    exact { h.emptied true with }

/-- A thread is started, or not. -/
theorem spawn_eq_some {free ok : Bool} {spawned : EncoderStream}
    (hs : s.spawn free ok spawned = some s') : free = true ∧ (s' = spawned ∨
      s' = { s with errors := s.errors + 1, running := false, owner := .unwinding }) := by
  unfold spawn at hs
  cases free <;> cases ok <;> simp_all

/-- The threads are joined, and what the pipeline holds is gone. -/
theorem Stamped.joined (h : Stamped sent s) :
    Stamped sent { s with
      input := .absent, output := .absent, bus := .absent, pipeline := [] } := by
  refine h.pass rfl rfl ?_ (fun _ => rfl) (by simp [fresh]) fun _ _ => rfl
  exact .append_left (List.nil_sublist _) _

theorem Stamped.ownerStep (h : Stamped sent s) {ok : Bool} (hs : s.ownerStep ok = some s') :
    Stamped sent s' := by
  unfold EncoderStream.ownerStep at hs
  split at hs
  · cases hs
  · obtain rfl := Option.some.inj hs
    split
    · exact { h with }
    · exact { h with }
  · obtain ⟨hfree, rfl | rfl⟩ := spawn_eq_some hs
    · have hinput : s.input = .absent := by
        cases hinput : s.input <;> simp_all
      refine h.pass rfl rfl ?_ ?_ ?_ (by simp)
      · simp [stamped, handing, piped, holding, stamp, hinput]
      · simp [stamped, handing, piped, holding, stamp, hinput]
      · simp [fresh, hinput]
    · exact { h with }
  · obtain ⟨hfree, rfl | rfl⟩ := spawn_eq_some hs
    · have houtput : s.output = .absent := of_decide_eq_true hfree
      refine h.pass rfl rfl ?_ ?_ (.refl _) (by simp)
      · simp [stamped, handing, piped, holding, stamp, houtput]
      · simp [stamped, handing, piped, holding, stamp, houtput]
    · exact { h with }
  · obtain ⟨hfree, rfl | rfl⟩ := spawn_eq_some hs
    · exact { h with }
    · exact { h with }
  · obtain rfl := Option.some.inj hs
    exact { h.emptied true with }
  · split_ifs at hs
    obtain rfl := Option.some.inj hs
    exact { h.joined with }
  · obtain rfl := Option.some.inj hs
    exact { h.emptied true with }
  · split_ifs at hs
    obtain rfl := Option.some.inj hs
    exact { h.joined with }

theorem Threadless.absent (h : s.Threadless) :
    s.input = .absent ∧ s.output = .absent ∧ s.bus = .absent := by
  unfold Threadless at h
  split at h
  next hinput houtput hbus => exact ⟨hinput, houtput, hbus⟩
  · cases h

/-- A new generation begins with nothing on its way. -/
theorem Stamped.renewed (h : Stamped sent s) (hthreadless : s.Threadless) :
    Stamped sent { s with
      latest := { value := none, closed := false }
      base := 0
      generation := s.generation + 1 } := by
  obtain ⟨hinput, houtput, -⟩ := hthreadless.absent
  have hpipeline := h.pipeline_of_absent hinput houtput
  refine ⟨?_, ?_, fun h0 => absurd rfl h0, fun _ _ => Nat.zero_le _, h.pipeline_of_absent⟩
  · have hdelivered := (List.sublist_append_left _ _).trans h.sublist
    simpa [units, carried, stamped, handing, piped, holding, fresh, hinput, houtput, hpipeline]
      using hdelivered
  · intro _
    simp [stamped, handing, piped, holding, hinput, houtput, hpipeline]

theorem Stamped.call (h : Stamped sent s) {a : StreamAction}
    (hthreadless : a = .startEncoder → s.Threadless) (hs : s.call a = some s') :
    Stamped sent s' := by
  unfold EncoderStream.call at hs
  split at hs
  · obtain rfl := Option.some.inj hs
    split
    · exact { h with }
    · exact { h with }
  · obtain rfl := Option.some.inj hs
    split_ifs
    · exact { h with }
    · exact { h with }
    · exact { h.renewed (hthreadless rfl) with }
  · obtain rfl := Option.some.inj hs
    exact { h with }
  · cases hs

/-! ### Every run -/

/-- No thread object has a thread when `start` is called. -/
def StartsThreadless (x : EncoderStream × StreamAction) : Prop :=
  match x.2 with
  | .startEncoder => x.1.Threadless
  | _ => True

instance : (x : EncoderStream × StreamAction) → Decidable (StartsThreadless x)
  | (s, .startEncoder) => inferInstanceAs (Decidable s.Threadless)
  | (_, .submit ..) | (_, .input ..) | (_, .lose _) | (_, .output ..) | (_, .bus _)
  | (_, .initializeEncoder _) | (_, .stopEncoder) | (_, .owner _) => isTrue trivial

theorem Stamped.step (h : Stamped sent s) {a : StreamAction} (hkeeps : KeepsPts (s, a))
    (hthreadless : StartsThreadless (s, a)) (hmono : Monotonic (sent ++ (submitted (s, a)).toList))
    (hs : s.step a = some s') : Stamped (sent ++ (submitted (s, a)).toList) s' := by
  cases a with
  | submit frame refused =>
    obtain rfl := Option.some.inj hs
    cases refused with
    | true => simpa [submitted, EncoderStream.submit] using { h with }
    | false => exact h.snoc frame hmono
  | input outcomes flow =>
    rw [show (submitted (s, .input outcomes flow)).toList = [] from rfl, List.append_nil] at hmono ⊢
    exact h.inputStep hmono hs
  | lose index =>
    obtain rfl := Option.some.inj hs
    simpa [submitted] using h.lose index
  | output pulled throws => simpa [submitted] using h.outputStep hkeeps hs
  | bus message => simpa [submitted] using h.busStep hs
  | owner ok => simpa [submitted] using h.ownerStep hs
  | initializeEncoder ok =>
    obtain ⟨-, hs⟩ := Option.ite_none_right_eq_some.mp hs
    simpa [submitted] using h.call (by rintro ⟨⟩) hs
  | startEncoder =>
    obtain ⟨-, hs⟩ := Option.ite_none_right_eq_some.mp hs
    simpa [submitted] using h.call (fun _ => hthreadless) hs
  | stopEncoder =>
    obtain ⟨-, hs⟩ := Option.ite_none_right_eq_some.mp hs
    simpa [submitted] using h.call (by rintro ⟨⟩) hs

theorem frames_snoc (history : List (EncoderStream × StreamAction))
    (x : EncoderStream × StreamAction) :
    frames (history ++ [x]) = frames history ++ (submitted x).toList := by
  rw [frames, List.filterMap_append]
  cases h : submitted x <;> simp [frames, h]

theorem stamped_of_run (h : Run step (initial fps) history s)
    (hkeeps : ∀ x ∈ history, KeepsPts x) (hthreadless : ∀ x ∈ history, StartsThreadless x)
    (hmono : Monotonic (frames history)) : Stamped (frames history) s := by
  induction h with
  | nil => exact stamped_initial fps
  | snoc _ hs ih =>
    rw [frames_snoc] at hmono ⊢
    have hbefore := ih (fun x hx => hkeeps x (List.mem_append_left _ hx))
      (fun x hx => hthreadless x (List.mem_append_left _ hx)) hmono.left
    exact hbefore.step (hkeeps _ (by simp)) (hthreadless _ (by simp)) hmono hs

/-! ### Generations -/

/-- What the input thread may change. -/
theorem inputStep_eq (hs : s.inputStep outcomes flow = some s') :
    ∃ base frameIndex latest input pipeline errors,
      s' = { s with base, frameIndex, latest, input, pipeline, errors } := by
  unfold inputStep at hs
  split at hs
  · cases hs
  · cases hs
  · exact ⟨_, _, _, _, _, _, (Option.some.inj hs).symm⟩
  · obtain ⟨_, -, rfl⟩ := Option.map_eq_some_iff.mp hs
    exact ⟨_, _, _, _, _, _, rfl⟩
  · dsimp only at hs
    split at hs
    · exact ⟨_, _, _, _, _, _, (Option.some.inj hs).symm⟩
    · exact ⟨_, _, _, _, _, _, (Option.some.inj hs).symm⟩
  · exact ⟨_, _, _, _, _, _, (Option.some.inj hs).symm⟩

/-- What the output thread may change. -/
theorem outputStep_eq {pulled : Option GstSample} {throws : Bool}
    (hs : s.outputStep pulled throws = some s') :
    ∃ pipeline output errors accessUnits outputBytes independentFrameSeen delivered,
      s' = { s with
        pipeline, output, errors, accessUnits, outputBytes, independentFrameSeen, delivered } := by
  unfold outputStep at hs
  split at hs
  · cases hs
  · cases hs
  · exact ⟨_, _, _, _, _, _, _, (Option.some.inj hs).symm⟩
  · split at hs
    · exact ⟨_, _, _, _, _, _, _, (Option.some.inj hs).symm⟩
    · cases hs
    · exact ⟨_, _, _, _, _, _, _, (Option.some.inj hs).symm⟩
  · split at hs
    · exact ⟨_, _, _, _, _, _, _, (Option.some.inj hs).symm⟩
    · exact ⟨_, _, _, _, _, _, _, (Option.some.inj hs).symm⟩
  · exact ⟨_, _, _, _, _, _, _, (Option.some.inj hs).symm⟩

/-- What the bus thread may change. -/
theorem busStep_eq {message : Bool} (hs : s.busStep message = some s') :
    ∃ running recoveryRequested errors bus latest,
      s' = { s with running, recoveryRequested, errors, bus, latest } := by
  unfold busStep at hs
  split at hs
  · cases hs
  · cases hs
  · split_ifs at hs
    · exact ⟨_, _, _, _, _, (Option.some.inj hs).symm⟩
    · exact ⟨_, _, _, _, _, (Option.some.inj hs).symm⟩
    · exact ⟨_, _, _, _, _, (Option.some.inj hs).symm⟩
  · exact ⟨_, _, _, _, _, (Option.some.inj hs).symm⟩

/-- What `start` and `stop` may change, once they are called. -/
theorem ownerStep_eq {ok : Bool} (hs : s.ownerStep ok = some s') :
    ∃ initialized running latest frameIndex input pipeline output bus owner result errors,
      s' = { s with
        initialized, running, latest, frameIndex, input, pipeline, output, bus, owner, result,
        errors } := by
  unfold ownerStep at hs
  split at hs
  · cases hs
  · rw [← Option.some.inj hs]
    split
    · exact ⟨_, _, _, _, _, _, _, _, _, _, _, rfl⟩
    · exact ⟨_, _, _, _, _, _, _, _, _, _, _, rfl⟩
  · obtain ⟨-, rfl | rfl⟩ := spawn_eq_some hs
    · exact ⟨_, _, _, _, _, _, _, _, _, _, _, rfl⟩
    · exact ⟨_, _, _, _, _, _, _, _, _, _, _, rfl⟩
  · obtain ⟨-, rfl | rfl⟩ := spawn_eq_some hs
    · exact ⟨_, _, _, _, _, _, _, _, _, _, _, rfl⟩
    · exact ⟨_, _, _, _, _, _, _, _, _, _, _, rfl⟩
  · obtain ⟨-, rfl | rfl⟩ := spawn_eq_some hs
    · exact ⟨_, _, _, _, _, _, _, _, _, _, _, rfl⟩
    · exact ⟨_, _, _, _, _, _, _, _, _, _, _, rfl⟩
  · exact ⟨_, _, _, _, _, _, _, _, _, _, _, (Option.some.inj hs).symm⟩
  · obtain ⟨-, hs⟩ := Option.ite_none_right_eq_some.mp hs
    exact ⟨_, _, _, _, _, _, _, _, _, _, _, (Option.some.inj hs).symm⟩
  · exact ⟨_, _, _, _, _, _, _, _, _, _, _, (Option.some.inj hs).symm⟩
  · obtain ⟨-, hs⟩ := Option.ite_none_right_eq_some.mp hs
    exact ⟨_, _, _, _, _, _, _, _, _, _, _, (Option.some.inj hs).symm⟩

/-- A generation is never taken back. -/
theorem step_generation {a : StreamAction} (hs : s.step a = some s') :
    s.generation ≤ s'.generation := by
  cases a with
  | submit frame refused =>
    obtain rfl := Option.some.inj hs
    unfold submit
    split <;> exact le_rfl
  | input outcomes flow =>
    obtain ⟨_, _, _, _, _, _, rfl⟩ := inputStep_eq hs
    exact le_rfl
  | lose index =>
    obtain rfl := Option.some.inj hs
    exact le_rfl
  | output pulled throws =>
    obtain ⟨_, _, _, _, _, _, _, rfl⟩ := outputStep_eq hs
    exact le_rfl
  | bus message =>
    obtain ⟨_, _, _, _, _, rfl⟩ := busStep_eq hs
    exact le_rfl
  | owner ok =>
    obtain ⟨_, _, _, _, _, _, _, _, _, _, _, rfl⟩ := ownerStep_eq hs
    exact le_rfl
  | initializeEncoder ok =>
    obtain ⟨-, hs⟩ := Option.ite_none_right_eq_some.mp hs
    rw [← Option.some.inj hs]
    split <;> exact le_rfl
  | startEncoder =>
    obtain ⟨-, hs⟩ := Option.ite_none_right_eq_some.mp hs
    rw [← Option.some.inj hs]
    split_ifs
    · exact le_rfl
    · exact le_rfl
    · exact Nat.le_succ _
  | stopEncoder =>
    obtain ⟨-, hs⟩ := Option.ite_none_right_eq_some.mp hs
    rw [← Option.some.inj hs]

theorem frames_generation (h : Run step (initial fps) history s) :
    (∀ x ∈ frames history, x.1 ≤ s.generation) ∧
      (frames history).Pairwise fun x y => x.1 ≤ y.1 := by
  induction h with
  | nil => exact ⟨by simp [frames], by simp [frames]⟩
  | @snoc history s s' a _ hs ih =>
    obtain ⟨hle, hpairwise⟩ := ih
    have hnext := step_generation hs
    have hlast : ∀ x ∈ (submitted (s, a)).toList, x.1 = s.generation := by
      intro x hx
      unfold submitted at hx
      split at hx <;> simp_all
    rw [frames_snoc]
    refine ⟨fun x hx => ?_, List.pairwise_append.mpr ⟨hpairwise, ?_, fun x hx y hy => ?_⟩⟩
    · rcases List.mem_append.mp hx with hx | hx
      · exact (hle x hx).trans hnext
      · exact (hlast x hx).trans_le hnext
    · cases submitted (s, a) <;> simp
    · exact (hle x hx).trans_eq (hlast y hy).symm

/-- Two frames through the threads, with a third one lost in the pipeline. -/
def threeFrames : List StreamAction :=
  let outcomes : RawOutcomes :=
    { buffer := true, allocator := true, duplicated := fun _ => true, allocated := fun _ => true }
  let push (timestamp : UInt64) : List StreamAction :=
    .submit { main := { planes := [{}] }, sensorTimestampNs := timestamp } false ::
      List.replicate 4 (.input outcomes .ok)
  let pull (pts : ℕ) : List StreamAction :=
    let sample : GstSample := { pts, duration := none, deltaUnit := false, data := some [0, 0, 1] }
    [.output none false, .output (some sample) false, .output none false, .output none false]
  [.initializeEncoder true, .startEncoder] ++ List.replicate 4 (.owner true) ++
    push 5 ++ push 6 ++ push 8 ++ pull 0 ++ [.lose 0] ++ pull 3

end EncoderStream

end EggVision
