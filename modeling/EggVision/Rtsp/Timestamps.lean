import EggVision.Rtsp.Stream

/-!
# Presentation times

The feeder stamps a buffer with the number of buffers it has made for the stream, in units of the
frame rate. The encoder may be restarted while the source stays bound, and then the numbering
starts over.

## Main results

* `pts_nondecreasing` — within one stream presentation times do not go back
* `not_pts_nondecreasing` — across encoder generations they do, and after 2^64 nanoseconds
-/

namespace EggVision

open Transition RtspState

namespace RtspServer

variable {t t' : RtspServer} {a : RtspAction} {fps : ℕ}

theorem presentationTime_mono {frame later : ℕ} (hle : frame ≤ later)
    (hwrap : later * gstSecond < 2 ^ 64) :
    presentationTime fps frame ≤ presentationTime fps later := by
  unfold presentationTime
  have hmul : frame * gstSecond ≤ later * gstSecond := Nat.mul_le_mul_right _ hle
  rw [Nat.mod_eq_of_lt hwrap, Nat.mod_eq_of_lt (Nat.lt_of_le_of_lt hmul hwrap)]
  exact Nat.div_le_div_right hmul

/-- Every buffer in the log was stamped for its place. -/
theorem pts_of_log (h : Reachable step (initial fps) t) {e : FeedEntry} {buffer : GstBuffer}
    (he : e ∈ t.feeder.log) (hbuffer : e.buffer = some buffer) :
    buffer.pts = presentationTime fps buffer.offset := by
  suffices h' : t.fps = fps ∧ ∀ e ∈ t.feeder.log, ∀ buffer, e.buffer = some buffer →
      buffer.pts = presentationTime fps buffer.offset from h'.2 e he buffer hbuffer
  refine h.invariant (fun t => t.fps = fps ∧ ∀ e ∈ t.feeder.log, ∀ buffer, e.buffer = some buffer →
    buffer.pts = presentationTime fps buffer.offset) ⟨rfl, by rintro _ ⟨⟩⟩ ?_
  rintro t a t' ⟨hfps, hlog⟩ hs
  refine ⟨(step_fps hs).trans hfps, ?_⟩
  rcases step_log hs with heq | ⟨x, -, -, -, hx, heq⟩ | ⟨item, env, -, -, heq⟩
  · rw [heq]
    exact hlog
  · rw [heq]
    intro e he buffer hbuffer
    rcases List.mem_append.mp he with he | he
    · exact hlog e he buffer hbuffer
    · rw [List.mem_singleton.mp he, FeedEntry.buffer, hx] at hbuffer
      cases hbuffer
  · obtain ⟨x, phase, hoffer, -, -, -, -, -, -, hx, -⟩ :=
      Feeder.offer_spec t.fps env.allocated env.flow item t.feeder
    rw [heq, hoffer]
    intro e he buffer hbuffer
    rcases List.mem_append.mp he with he | he
    · exact hlog e he buffer hbuffer
    · rw [List.mem_singleton.mp he] at hbuffer
      obtain ⟨hpts, hoffset⟩ := hx buffer hbuffer
      rw [hpts, hoffset, hfps]

/-- **Presentation times never go back within one stream**: for two buffers handed to one bound
source, while the encoder generation of the units in between stays the same and the frame index is
in the range that 64 bits of nanoseconds allow. -/
theorem pts_nondecreasing (h : Reachable step (initial fps) t)
    {before between after : List FeedEntry} {a b : FeedEntry} {x y : GstBuffer}
    (hlog : t.feeder.log = before ++ a :: (between ++ b :: after))
    (hbinding : a.binding = b.binding)
    (hgeneration : ∀ e ∈ between ++ [b],
      e.submitted.unit.generation = a.submitted.unit.generation)
    (ha : a.buffer = some x) (hb : b.buffer = some y) (hwrap : y.offset * gstSecond < 2 ^ 64) :
    x.pts ≤ y.pts := by
  obtain ⟨hbetween, hsame⟩ := sameStream_between h hlog hbinding hgeneration
  have hoffset := ((FeedInv.reachable h).stream.within before a between b after x hlog ha hbetween
    hsame).2 y hb
  rw [pts_of_log h (by simp [hlog]) ha, pts_of_log h (by simp [hlog]) hb]
  exact presentationTime_mono (Nat.le_of_lt hoffset) hwrap

/-- The first two keyframes, thirty to a second. -/
theorem pts_nondecreasing_streaming :
    Reachable step (initial 30) (streaming 2) ∧
      (streaming 2).feeder.log = [keyEntry 0, keyEntry 1] ∧
      ∃ x y, (keyEntry 0).buffer = some x ∧ (keyEntry 1).buffer = some y ∧ x.pts ≤ y.pts :=
  ⟨reachable_streaming 1, rfl, _, _, rfl, rfl,
    pts_nondecreasing (reachable_streaming 1)
      (show (streaming 2).feeder.log = [] ++ keyEntry 0 :: ([] ++ keyEntry 1 :: []) from rfl) rfl
      (by decide) rfl rfl (by decide)⟩

/-- On one binding the later buffer is not stamped earlier. -/
def NotBefore (a b : FeedEntry) : Prop :=
  a.binding = b.binding → ∀ x ∈ a.buffer, ∀ y ∈ b.buffer, x.pts ≤ y.pts

instance (a b : FeedEntry) : Decidable (NotBefore a b) :=
  inferInstanceAs
    (Decidable (a.binding = b.binding → ∀ x ∈ a.buffer, ∀ y ∈ b.buffer, x.pts ≤ y.pts))

theorem notBefore_streaming {n i j : ℕ} (h : (streaming n).feeder.log.Pairwise NotBefore)
    (hij : i < j) (hj : j < n) : NotBefore (keyEntry i) (keyEntry j) := by
  have h' : (List.range n).Pairwise fun i j => NotBefore (keyEntry i) (keyEntry j) :=
    List.pairwise_map.mp h
  have := List.pairwise_iff_getElem.mp h' i j (by simp; omega) (by simpa using hj) hij
  simpa using this

/-- The frame index starts over with a new encoder generation while the source stays bound, and its
product with the nanoseconds of a second wraps around. -/
theorem not_pts_nondecreasing :
    (∃ t, Reachable step (initial 30) t ∧ ¬ t.feeder.log.Pairwise NotBefore ∧
        ∀ e ∈ t.feeder.log, e.binding = 2) ∧
      Reachable step (initial 30) (streaming 18446744075) ∧
      ¬ (streaming 18446744075).feeder.log.Pairwise NotBefore := by
  refine ⟨?_, reachable_streaming _, fun h => ?_⟩
  · exact exists_reachable step (initial 30)
      (readyToFeed ++ feedOne keyUnit .ok ++ feedOne (.ofTest 1 1 false 1) .ok ++
        feedOne (.ofTest 2 2 true 1) .ok) _ (by decide)
  · exact absurd (notBefore_streaming (i := 18446744073) (j := 18446744074) h (by decide)
      (by decide)) (by decide)

end RtspServer

end EggVision
