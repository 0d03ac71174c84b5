import EggVision.Ring.Retention

/-!
# Pruning and pre-roll

`selectPreRoll` searches what the pruning of every earlier push has left. This file compares it
with the same search over a history that was never pruned.

As long as the byte limit evicts nothing, the two agree for every trigger whose requested start is
not older than the retention: time pruning removes a decodable unit only when a later one is
already old enough to serve every such request.

## Main results

* `decodable_retained` — what pruning by time may have removed
* `preRollStart_retained` — the search finds the same unit in the pruned and in the whole history
* `selectPreRoll_eq_unpruned` — the selections agree
-/

namespace EggVision

namespace EncodedRingBuffer

open Suffix

/-! ### What pruning by time may have removed -/

variable {bound : ℕ} {history : List EncodedAccessUnit}

/-- A decodable unit of the history is still there with everything behind it, unless a later
decodable unit is there that is at least as old as the retention asks for. -/
theorem decodable_retained (retentionNs : ℕ) (hordered : TimeOrdered history)
    (htotal : totalBytes history ≤ bound) {pre post : List EncodedAccessUnit}
    {u : EncodedAccessUnit} (hsplit : history = pre ++ u :: post)
    (hu : u.independentlyDecodable = true) :
    u :: post <:+ longestSuffix (retainable retentionNs bound) history ∨
      ∃ w ∈ longestSuffix (retainable retentionNs bound) history,
        w.independentlyDecodable = true ∧
          w.sensorTimestampNs ≤ lastTimestamp history - retentionNs := by
  -- a decodable unit with nothing old enough behind it starts a retainable suffix
  have hretainable : ∀ (pre : List EncodedAccessUnit) (w : EncodedAccessUnit)
      (post : List EncodedAccessUnit), history = pre ++ w :: post →
      w.independentlyDecodable = true →
      (∀ v ∈ post, v.independentlyDecodable = true →
        lastTimestamp history - retentionNs < v.sensorTimestampNs) →
      w :: post <:+ longestSuffix (retainable retentionNs bound) history := by
    intro pre w post hsplit hw hpost
    have hsuf : w :: post <:+ history := ⟨pre, hsplit.symm⟩
    refine suffix_longestSuffix hsuf ?_
    rw [retainable, Bool.and_eq_true, Bool.and_eq_true, decide_eq_true_eq]
    refine ⟨⟨hw, ?_⟩, ?_⟩
    · rw [hsplit, totalBytes_append] at htotal
      exact le_trans (Nat.le_add_left _ _) htotal
    · rw [reachesBack_iff, lastTimestamp_of_suffix hsuf (List.cons_ne_nil _ _)]
      exact Or.inr hpost
  rcases newestIndependent_spec (lastTimestamp history - retentionNs) hordered 0 none with
    ⟨-, hnone⟩ | ⟨pre', w, post', hsplit', -, hw, hold, hpost'⟩
  · refine Or.inl (hretainable pre u post hsplit hu fun v hv => hnone v ?_)
    rw [hsplit]
    exact List.mem_append_right _ (List.mem_cons_of_mem _ hv)
  · have hkept := hretainable pre' w post' hsplit' hw hpost'
    exact Or.inr ⟨w, hkept.subset List.mem_cons_self, hw, hold⟩

/-! ### The search -/

/-- No decodable unit at or before the bound. -/
theorem newestIndependent_eq_none {limit : ℕ} {units : List EncodedAccessUnit}
    (hordered : TimeOrdered units) (h : ∀ v ∈ units, v.independentlyDecodable = true →
      limit < v.sensorTimestampNs) : newestIndependent limit units 0 none = none := by
  rcases newestIndependent_spec limit hordered 0 none with
    ⟨heq, -⟩ | ⟨pre, u, post, rfl, -, hu, hle, -⟩
  · exact heq
  · exact absurd (h u (by simp) hu) (Nat.not_lt.mpr hle)

/-- The loop finds the last decodable unit at or before the bound. -/
theorem newestIndependent_eq_some {limit : ℕ} {pre post : List EncodedAccessUnit}
    {u : EncodedAccessUnit} (hordered : TimeOrdered (pre ++ u :: post))
    (hu : u.independentlyDecodable = true) (hle : u.sensorTimestampNs ≤ limit)
    (hpost : ∀ v ∈ post, v.independentlyDecodable = true → limit < v.sensorTimestampNs) :
    newestIndependent limit (pre ++ u :: post) 0 none = some pre.length := by
  rcases newestIndependent_spec limit hordered 0 none with
    ⟨-, hnone⟩ | ⟨pre', u', post', hsplit, heq, hu', hle', hpost'⟩
  · exact absurd (hnone u (by simp) hu) (Nat.not_lt.mpr hle)
  · have hlast := append_cons_inj_of_last
      (P := fun v => v.independentlyDecodable = true ∧ v.sensorTimestampNs ≤ limit)
      hsplit ⟨hu, hle⟩ ⟨hu', hle'⟩
      (fun v hv hc => absurd (hpost v hv hc.1) (Nat.not_lt.mpr hc.2))
      (fun v hv hc => absurd (hpost' v hv hc.1) (Nat.not_lt.mpr hc.2))
    rw [heq, hlast.1, Nat.zero_add]

theorem firstIndependent_eq_none {limit : ℕ} {units : List EncodedAccessUnit}
    (hordered : TimeOrdered units) (h : ∀ v ∈ units, v.independentlyDecodable = true →
      limit < v.sensorTimestampNs) : firstIndependent limit units 0 = none := by
  rcases firstIndependent_spec limit hordered 0 with
    ⟨heq, -⟩ | ⟨pre, u, post, rfl, -, hu, hle, -⟩
  · exact heq
  · exact absurd (h u (by simp) hu) (Nat.not_lt.mpr hle)

/-- The fallback loop finds the first decodable unit when it precedes the bound. -/
theorem firstIndependent_eq_some {limit : ℕ} {pre post : List EncodedAccessUnit}
    {u : EncodedAccessUnit} (hordered : TimeOrdered (pre ++ u :: post))
    (hu : u.independentlyDecodable = true) (hle : u.sensorTimestampNs ≤ limit)
    (hpre : ∀ v ∈ pre, v.independentlyDecodable = false) :
    firstIndependent limit (pre ++ u :: post) 0 = some pre.length := by
  rcases firstIndependent_spec limit hordered 0 with
    ⟨-, hnone⟩ | ⟨pre', u', post', hsplit, heq, hu', -, hpre'⟩
  · exact absurd (hnone u (by simp) hu) (Nat.not_lt.mpr hle)
  · have hfirst := append_cons_inj_of_first (P := fun v => v.independentlyDecodable = true)
      hsplit hu hu' (by simpa using hpre) (by simpa using hpre')
    rw [heq, hfirst.1, Nat.zero_add]

/-- **The search is not misled by pruning.** Dropping `pre` shifts the index that is found, and
changes nothing else. -/
theorem preRollStart_retained {requested trigger : ℕ} {pre kept : List EncodedAccessUnit}
    (hordered : TimeOrdered (pre ++ kept))
    (hpre : (∀ v ∈ pre, v.independentlyDecodable = false) ∨
      ∃ w ∈ kept, w.independentlyDecodable = true ∧ w.sensorTimestampNs ≤ requested) :
    preRollStart requested trigger (pre ++ kept) =
      (preRollStart requested trigger kept).map (pre.length + ·) := by
  have hkept : TimeOrdered kept := hordered.of_suffix (List.suffix_append _ _)
  unfold preRollStart
  rcases newestIndependent_spec requested hkept 0 none with
    ⟨heq, hnone⟩ | ⟨a, u, post, rfl, heq, hu, hle, hpost⟩
  · -- nothing old enough was kept, so nothing decodable was dropped either
    have hdelta : ∀ v ∈ pre, v.independentlyDecodable = false :=
      hpre.resolve_right fun ⟨w, hw, hwd, hle⟩ =>
        absurd (hnone w hw hwd) (Nat.not_lt.mpr hle)
    have hwhole : newestIndependent requested (pre ++ kept) 0 none = none := by
      refine newestIndependent_eq_none hordered fun v hv hvd => ?_
      rcases List.mem_append.mp hv with hv | hv
      · rw [hdelta v hv] at hvd
        cases hvd
      · exact hnone v hv hvd
    rw [heq, hwhole]
    dsimp only
    rcases firstIndependent_spec trigger hkept 0 with
      ⟨heq', hnone'⟩ | ⟨a, u, post, rfl, heq', hu, hle, ha⟩
    · rw [heq', firstIndependent_eq_none hordered, Option.map_none]
      intro v hv hvd
      rcases List.mem_append.mp hv with hv | hv
      · rw [hdelta v hv] at hvd
        cases hvd
      · exact hnone' v hv hvd
    · have hbefore : ∀ v ∈ pre ++ a, v.independentlyDecodable = false := fun v hv =>
        (List.mem_append.mp hv).elim (hdelta v) (ha v)
      rw [← List.append_assoc] at hordered ⊢
      rw [heq', firstIndependent_eq_some hordered hu hle hbefore]
      simp
  · rw [← List.append_assoc] at hordered ⊢
    rw [heq, newestIndependent_eq_some hordered hu hle hpost]
    simp

/-! ### The selections -/

/-- The pushes of a list of units, one after the other. -/
def pushAll (ring : EncodedRingBuffer) (stream : List EncodedAccessUnit) : EncodedRingBuffer :=
  stream.foldl (fun ring u => (ring.push (some u)).1) ring

/-- The stream stays in one epoch, and the byte limit has nothing to evict: what each push retains
by time is within it. -/
structure OneEpoch (ring : EncodedRingBuffer) (stream : List EncodedAccessUnit) : Prop where
  sameGeneration : ∀ u ∈ stream, ∀ v ∈ stream, u.generation = v.generation
  ordered : TimeOrdered stream
  accepted : ∀ past u, past ++ [u] <+: stream →
    ((pushAll ring past).push (some u)).2.rejected = false
  withinBytes : ∀ past u, past ++ [u] <+: stream →
    (((pushAll ring past).startEpoch u).1.append u).pruneByTimeLocked.bytes ≤ ring.maxBytes

theorem OneEpoch.of_prefix {ring : EncodedRingBuffer} {stream past : List EncodedAccessUnit}
    (h : OneEpoch ring stream) (hp : past <+: stream) : OneEpoch ring past where
  sameGeneration := fun u hu v hv => h.sameGeneration u (hp.subset hu) v (hp.subset hv)
  ordered := h.ordered.sublist hp.sublist
  accepted := fun a u ha => h.accepted a u (ha.trans hp)
  withinBytes := fun a u ha => h.withinBytes a u (ha.trans hp)

/-- In one epoch the ring is the longest suffix that time pruning allows: any bound on the whole
payload may stand in for the byte limit. -/
theorem OneEpoch.retains (bound : ℕ) {retentionNs limit : ℕ} {ring : EncodedRingBuffer}
    (hring : new retentionNs limit = .ok ring) : ∀ {stream : List EncodedAccessUnit},
    OneEpoch ring stream → totalBytes stream ≤ bound →
    Retains bound { ring := pushAll ring stream, epoch := stream } ∧
      (pushAll ring stream).retentionNs = retentionNs ∧
      (pushAll ring stream).maxBytes = ring.maxBytes := by
  intro stream
  induction stream using List.reverseRecOn with
  | nil =>
    intro _ _
    obtain ⟨hr, hR, -⟩ := retains_new bound hring
    exact ⟨hr, hR, rfl⟩
  | append_singleton past u ih =>
    intro h htotal
    have hpast : totalBytes past ≤ bound := by
      rw [totalBytes_append] at htotal
      exact le_trans (Nat.le_add_right _ _) htotal
    obtain ⟨hr, hR, hM⟩ := ih (h.of_prefix (List.prefix_append _ _)) hpast
    have hepoch : epochAfter past u = past ++ [u] := by
      rcases List.eq_nil_or_concat past with rfl | ⟨front, last, rfl⟩
      · rfl
      · rw [List.concat_eq_append] at h ⊢
        have hgen : last.generation = u.generation :=
          h.sameGeneration last (by simp) u (by simp)
        have hle : last.sensorTimestampNs ≤ u.sensorTimestampNs :=
          (List.pairwise_append.mp h.ordered).2.2 last (by simp) u (by simp)
        simp [epochAfter, hgen, Nat.not_lt.mpr hle]
    have hwithin := h.withinBytes past u (List.prefix_refl _)
    obtain ⟨hr', hR', hM', hepoch'⟩ := hr.push (h.accepted past u (List.prefix_refl _))
      (Or.inr ⟨hM ▸ hwithin, by rw [hepoch]; exact htotal⟩)
    have hpush : pushAll ring (past ++ [u]) = ((pushAll ring past).push (some u)).1 := by
      simp [pushAll]
    have happly : Tracked.apply { ring := pushAll ring past, epoch := past } (.push (some u)) =
        { ring := pushAll ring (past ++ [u]), epoch := past ++ [u] } := by
      rw [hepoch] at hepoch'
      rw [hpush, ← hepoch']
      rfl
    rw [happly] at hr' hR' hM'
    exact ⟨hr', hR'.trans hR, hM'.trans hM⟩

/-- **Pruning never hurts pre-roll.** For every stream in one epoch whose retained bytes stay
within the limit, and every trigger whose requested start is not older than the retention, the
selection from the pruned ring is the selection from the whole stream. -/
theorem selectPreRoll_eq_unpruned {retentionNs maxBytes : ℕ} {ring : EncodedRingBuffer}
    (hring : new retentionNs maxBytes = .ok ring) {stream : List EncodedAccessUnit}
    (hstream : OneEpoch ring stream) {triggerSensorTimestampNs preRollNs : ℕ}
    (hreach : (pushAll ring stream).latestSensorTimestampNs - retentionNs ≤
      triggerSensorTimestampNs - preRollNs) :
    let pruned := (pushAll ring stream).selectPreRoll triggerSensorTimestampNs preRollNs
    let whole := { pushAll ring stream with units := stream }.selectPreRoll
      triggerSensorTimestampNs preRollNs
    pruned.hasIndependentStart = whole.hasIndependentStart ∧
      pruned.preRollComplete = whole.preRollComplete ∧
      pruned.actualStartSensorTimestampNs = whole.actualStartSensorTimestampNs ∧
      pruned.units = whole.units := by
  obtain ⟨hr, hR, -⟩ := hstream.retains (totalBytes stream) hring (Nat.le_refl _)
  set final := pushAll ring stream with hfinal
  have hrequested : (if triggerSensorTimestampNs > preRollNs then
      triggerSensorTimestampNs - preRollNs else 0) = triggerSensorTimestampNs - preRollNs := by
    split <;> omega
  have hunits := hr.units
  obtain ⟨pre, hpre⟩ := hr.suffix
  dsimp only at hunits hpre
  unfold selectPreRoll
  simp only [hrequested]
  set requested := triggerSensorTimestampNs - preRollNs with hreq
  by_cases hnil : final.units = []
  · -- nothing was kept, so the stream has no decodable unit at all
    have hdelta : ∀ v ∈ stream, v.independentlyDecodable = false := by
      intro v hv
      rw [← Bool.not_eq_true]
      intro hvd
      obtain ⟨a, post, hsplit⟩ := List.append_of_mem hv
      rcases decodable_retained final.retentionNs hstream.ordered (Nat.le_refl _) hsplit hvd with
        hsuf | ⟨w, hw, -⟩
      · rw [← hunits, hnil] at hsuf
        simp at hsuf
      · rw [← hunits, hnil] at hw
        simp at hw
    have hstart : preRollStart requested triggerSensorTimestampNs stream = none := by
      unfold preRollStart
      rw [newestIndependent_eq_none hstream.ordered fun v hv hvd => by simp [hdelta v hv] at hvd]
      exact firstIndependent_eq_none hstream.ordered fun v hv hvd => by simp [hdelta v hv] at hvd
    rw [hnil, hstart]
    cases stream <;> simp
  · have hlatest : final.latestSensorTimestampNs = lastTimestamp stream := by
      rw [hr.coherent.latest hnil]
      exact lastTimestamp_of_suffix ⟨pre, hpre⟩ hnil
    have hshift : preRollStart requested triggerSensorTimestampNs stream =
        (preRollStart requested triggerSensorTimestampNs final.units).map (pre.length + ·) := by
      rw [← hpre]
      refine preRollStart_retained (hpre ▸ hstream.ordered) ?_
      by_contra hc
      push Not at hc
      obtain ⟨⟨v, hv, hvd⟩, hnone⟩ := hc
      obtain ⟨a, b, hsplit⟩ := List.append_of_mem hv
      have hstreamSplit : stream = a ++ v :: (b ++ final.units) := by
        rw [← hpre, hsplit, List.append_assoc, List.cons_append]
      rcases decodable_retained final.retentionNs hstream.ordered (Nat.le_refl _) hstreamSplit
          (by simpa using hvd) with hsuf | ⟨w, hw, hwd, hold⟩
      · rw [← hunits] at hsuf
        have := hsuf.length_le
        simp only [List.length_cons, List.length_append] at this
        omega
      · rw [← hunits] at hw
        have := hnone w hw hwd
        omega
    have hstream : stream ≠ [] := fun hc => hnil (by rw [hc] at hpre; simp_all)
    have hdrop : ∀ start, stream.drop (pre.length + start) = final.units.drop start := by
      intro start
      rw [← hpre, ← List.drop_drop, List.drop_left]
    rw [hshift, List.isEmpty_eq_false_iff.mpr hnil, List.isEmpty_eq_false_iff.mpr hstream]
    cases preRollStart requested triggerSensorTimestampNs final.units with
    | none => simp
    | some start => simp [hdrop]

/-- The stream of `testTimeRetentionKeepsBoundaryKeyframe`. -/
def boundaryStream : List EncodedAccessUnit :=
  [.ofTest 1000 1 true 1, .ofTest 1500 1 false 1, .ofTest 2000 1 true 1, .ofTest 2500 1 false 1,
    .ofTest 3000 1 true 1]

/-- Time pruning has dropped the first GOP, and the selection starts behind it. -/
theorem selectPreRoll_eq_unpruned_boundary :
    ∃ ring, new 1000 10000 = .ok ring ∧
      ((pushAll ring boundaryStream).selectPreRoll 3000 900).units =
        ({ pushAll ring boundaryStream with
          units := boundaryStream }.selectPreRoll 3000 900).units ∧
      (pushAll ring boundaryStream).units.length = 3 := by
  have hunit : ∀ past u, past ++ [u] <+: boundaryStream →
      ∃ i : Fin 5, past = boundaryStream.take i ∧ u = boundaryStream[i] := by
    rintro past u ⟨post, hpost⟩
    have hlen := congrArg List.length hpost
    have hsize : boundaryStream.length = 5 := rfl
    simp only [List.length_append, List.length_cons, List.length_nil, hsize] at hlen
    refine ⟨⟨past.length, by omega⟩, by simp [← hpost], by simp [← hpost]⟩
  have hring : new 1000 10000 = .ok ⟨1000, 10000, [], 0, 0, 0, 0, 0, by decide, by decide⟩ := rfl
  refine ⟨_, hring, (selectPreRoll_eq_unpruned hring
    ⟨by decide, by unfold TimeOrdered; decide, ?_, ?_⟩ (by decide)).2.2.2, by decide⟩
  · intro past u h
    obtain ⟨i, rfl, rfl⟩ := hunit past u h
    revert i
    decide
  · intro past u h
    obtain ⟨i, rfl, rfl⟩ := hunit past u h
    revert i
    decide

end EncodedRingBuffer

end EggVision
