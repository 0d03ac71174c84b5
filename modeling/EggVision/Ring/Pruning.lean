import EggVision.Lib.LongestSuffix
import EggVision.Ring.Buffer
import Mathlib.Tactic.Common
import Mathlib.Order.Nat

/-!
# Pruning the ring

`push` drops units from the front in three passes: by time, by bytes, and then every unit that
cannot be decoded without a predecessor. Each pass only ever drops a front that starts nothing the
ring may keep, so the three together end at the longest list of units the ring may keep, and the
order of the passes does not matter.

The byte limit of `retainable` is a parameter of its own. For the ring's exact contents it is
`maxBytes`; when the byte pass has nothing to do it may be any bound on the payload, which is how
the pre-roll comparison uses it.

## Main definitions

* `retainable` — what the ring may hold, as a property of the units alone
* `Coherent` — the cached fields agree with the deque
* `Pruning` — the state of pruning: nothing dropped so far could have been kept

## Main results

* `Pruning.pruneByTimeLocked`, `Pruning.pruneByBytesLocked`
* `units_pruned` — the passes end at the longest retainable suffix
-/

namespace EggVision

namespace EncodedRingBuffer

open Suffix

/-- `latest`: the timestamp of the newest unit. -/
def lastTimestamp (units : List EncodedAccessUnit) : ℕ :=
  (units.getLast?.map (·.sensorTimestampNs)).getD 0

/-- The payload bytes of a list of units. -/
def totalBytes (units : List EncodedAccessUnit) : ℕ :=
  (units.map (·.sizeBytes)).sum

/-! ### What the ring may hold -/

/-- No unit behind the first one is a decodable unit old enough to start the history. -/
def reachesBack (retentionNs : ℕ) (units : List EncodedAccessUnit) : Bool :=
  decide (lastTimestamp units ≤ retentionNs) ||
    units.tail.all fun u =>
      !(u.independentlyDecodable &&
        decide (u.sensorTimestampNs ≤ lastTimestamp units - retentionNs))

/-- The ring may hold exactly these units. -/
def retainable (retentionNs bound : ℕ) (units : List EncodedAccessUnit) : Bool :=
  units.head?.any (·.independentlyDecodable) && decide (totalBytes units ≤ bound) &&
    reachesBack retentionNs units

@[simp] theorem totalBytes_nil : totalBytes [] = 0 := rfl

@[simp] theorem totalBytes_cons (u : EncodedAccessUnit) (units : List EncodedAccessUnit) :
    totalBytes (u :: units) = u.sizeBytes + totalBytes units := rfl

@[simp] theorem totalBytes_append (units more : List EncodedAccessUnit) :
    totalBytes (units ++ more) = totalBytes units + totalBytes more := by
  simp [totalBytes]

@[simp] theorem lastTimestamp_append_singleton (units : List EncodedAccessUnit)
    (u : EncodedAccessUnit) : lastTimestamp (units ++ [u]) = u.sensorTimestampNs := by
  simp [lastTimestamp]

theorem lastTimestamp_of_suffix {s units : List EncodedAccessUnit} (h : s <:+ units)
    (hs : s ≠ []) : lastTimestamp s = lastTimestamp units := by
  obtain ⟨pre, rfl⟩ := h
  rw [lastTimestamp, lastTimestamp, List.getLast?_append_of_ne_nil pre hs]

theorem TimeOrdered.le_lastTimestamp {units : List EncodedAccessUnit} (h : TimeOrdered units)
    {u : EncodedAccessUnit} (hu : u ∈ units) : u.sensorTimestampNs ≤ lastTimestamp units := by
  rcases List.eq_nil_or_concat units with rfl | ⟨pre, last, rfl⟩
  · simp at hu
  · rw [List.concat_eq_append] at h hu ⊢
    rw [lastTimestamp_append_singleton]
    rcases List.mem_append.mp hu with hu | hu
    · exact (List.pairwise_append.mp h).2.2 u hu last (by simp)
    · rw [List.mem_singleton.mp hu]

theorem reachesBack_iff {retentionNs : ℕ} {units : List EncodedAccessUnit} :
    reachesBack retentionNs units = true ↔ lastTimestamp units ≤ retentionNs ∨
      ∀ u ∈ units.tail, u.independentlyDecodable = true →
        lastTimestamp units - retentionNs < u.sensorTimestampNs := by
  simp only [reachesBack, Bool.or_eq_true, decide_eq_true_eq, List.all_eq_true,
    Bool.not_eq_true', Bool.and_eq_false_imp, decide_eq_false_iff_not, Nat.not_le]

/-- What is kept only shrinks: with a later unit behind it, a suffix that reaches back reached
back before. -/
theorem reachesBack_of_append {retentionNs : ℕ} {s : List EncodedAccessUnit}
    {u : EncodedAccessUnit} (hs : s ≠ []) (hle : lastTimestamp s ≤ u.sensorTimestampNs)
    (h : reachesBack retentionNs (s ++ [u]) = true) : reachesBack retentionNs s = true := by
  rw [reachesBack_iff] at h ⊢
  rw [lastTimestamp_append_singleton] at h
  rcases h with h | h
  · exact Or.inl (by omega)
  · refine Or.inr fun v hv hvd => ?_
    have hlt := h v (by rw [List.tail_append_of_ne_nil hs]; exact List.mem_append_left _ hv) hvd
    omega

theorem retainable_of_append {retentionNs bound : ℕ} {s : List EncodedAccessUnit}
    {u : EncodedAccessUnit} (hs : s ≠ []) (hle : lastTimestamp s ≤ u.sensorTimestampNs)
    (h : retainable retentionNs bound (s ++ [u]) = true) :
    retainable retentionNs bound s = true := by
  simp only [retainable, Bool.and_eq_true, decide_eq_true_eq] at h ⊢
  obtain ⟨⟨hhead, hbytes⟩, hback⟩ := h
  refine ⟨⟨?_, ?_⟩, reachesBack_of_append hs hle hback⟩
  · rwa [List.head?_append_of_ne_nil _ hs] at hhead
  · rw [totalBytes_append] at hbytes
    omega

/-! ### One push -/

/-- The cached fields agree with the deque. -/
structure Coherent (ring : EncodedRingBuffer) : Prop where
  bytes : ring.bytes = totalBytes ring.units
  latest : ring.units ≠ [] → ring.latestSensorTimestampNs = lastTimestamp ring.units
  generation : ∀ u ∈ ring.units, u.generation = ring.generation

theorem Coherent.discardFrontLocked {ring : EncodedRingBuffer} (h : Coherent ring) :
    Coherent ring.discardFrontLocked := by
  unfold EncodedRingBuffer.discardFrontLocked
  split
  next => exact h
  next front rest hunits =>
    refine ⟨?_, fun hrest => ?_, fun u hu => ?_⟩
    · have hb := h.bytes
      rw [hunits, totalBytes_cons] at hb
      simp [hb]
    · have hl := h.latest (by rw [hunits]; exact List.cons_ne_nil _ _)
      have hlast : lastTimestamp rest = lastTimestamp ring.units :=
        lastTimestamp_of_suffix (by rw [hunits]; exact List.suffix_cons _ _) hrest
      simp only [List.isEmpty_iff] at hrest ⊢
      rw [if_neg hrest, hl, hlast]
    · have hrest : rest ≠ [] := List.ne_nil_of_mem hu
      simp only [List.isEmpty_iff]
      rw [if_neg hrest]
      exact h.generation u (by rw [hunits]; exact List.mem_cons_of_mem _ hu)

/-- The state of pruning, from `start` on: nothing dropped so far could have been kept. -/
structure Pruning (bound : ℕ) (start ring : EncodedRingBuffer) : Prop where
  coherent : Coherent ring
  retention : ring.retentionNs = start.retentionNs
  limit : ring.maxBytes = start.maxBytes
  suffix : ring.units <:+ start.units
  longest : longestSuffix (retainable start.retentionNs bound) ring.units =
    longestSuffix (retainable start.retentionNs bound) start.units

variable {bound : ℕ} {start ring : EncodedRingBuffer}

/-- Dropping a front that starts nothing retainable. -/
theorem Pruning.discardFrontLocked (h : Pruning bound start ring)
    (hfront : retainable start.retentionNs bound ring.units = false) :
    Pruning bound start ring.discardFrontLocked where
  coherent := h.coherent.discardFrontLocked
  retention := by rw [discardFrontLocked_retentionNs, h.retention]
  limit := by rw [discardFrontLocked_maxBytes, h.limit]
  suffix := by
    rw [discardFrontLocked_units]
    exact (List.tail_suffix _).trans h.suffix
  longest := by rw [discardFrontLocked_units, longestSuffix_tail hfront, h.longest]

theorem retainable_of_not_reachesBack {retentionNs : ℕ} {units : List EncodedAccessUnit}
    (h : reachesBack retentionNs units = false) : retainable retentionNs bound units = false := by
  rw [retainable, h, Bool.and_false]

theorem retainable_of_delta {retentionNs : ℕ} {front : EncodedAccessUnit}
    {rest : List EncodedAccessUnit} (h : front.independentlyDecodable = false) :
    retainable retentionNs bound (front :: rest) = false := by
  simp [retainable, h]

/-! #### By time -/

/-- The early return of `pruneByTimeLocked`: there is nothing to drop by time. -/
theorem reachesBack_of_early (hcoherent : Coherent ring)
    (hearly : ring.units.length < 2 ∨ ring.latestSensorTimestampNs ≤ ring.retentionNs)
    {s : List EncodedAccessUnit} (hs : s <:+ ring.units) (hne : s ≠ []) :
    reachesBack ring.retentionNs s = true := by
  have hunits : ring.units ≠ [] := fun hc => hne (List.suffix_nil.mp (hc ▸ hs))
  rw [reachesBack_iff, lastTimestamp_of_suffix hs hne]
  rcases hearly with hlen | hle
  · -- a single unit has nothing behind it
    refine Or.inr fun v hv => ?_
    have hs1 : s.length ≤ 1 := le_trans hs.length_le (by omega)
    have : s.tail.length = 0 := by rw [List.length_tail]; omega
    rw [List.length_eq_zero_iff.mp this] at hv
    simp at hv
  · exact Or.inl (hcoherent.latest hunits ▸ hle)

/-- No decodable unit is old enough: whatever is dropped starts with a delta unit. -/
theorem Pruning.discardOlderThan {cutoff : ℕ} (h : Pruning bound start ring)
    (hnone : ∀ v ∈ ring.units, v.independentlyDecodable = true → cutoff < v.sensorTimestampNs) :
    let pruned := discardWhile
      (fun r => decide (1 < r.units.length) &&
        (r.units.head?.any fun front => front.sensorTimestampNs < cutoff))
      ring.units.length ring
    Pruning bound start pruned ∧ pruned.units <:+ ring.units := by
  refine (discardWhile_induction _ (fun r => Pruning bound start r ∧ r.units <:+ ring.units)
    (by intro r hc hr; simp [hr] at hc) ?_
    ring.units.length ring (Nat.le_refl _) ⟨h, List.suffix_refl _⟩).1
  rintro r ⟨hr, hsuf⟩ hc
  obtain ⟨front, rest, hfront⟩ : ∃ front rest, r.units = front :: rest := by
    cases hru : r.units with
    | nil => simp [hru] at hc
    | cons front rest => exact ⟨front, rest, rfl⟩
  have hold : front.sensorTimestampNs < cutoff := by
    simpa [hfront] using (Bool.and_eq_true_iff.mp hc).2
  have hdelta : front.independentlyDecodable = false := by
    rw [← Bool.not_eq_true]
    intro hd
    have := hnone front (hsuf.subset (by simp [hfront])) hd
    omega
  refine ⟨hr.discardFrontLocked (hfront ▸ retainable_of_delta hdelta), ?_⟩
  rw [discardFrontLocked_units]
  exact (List.tail_suffix _).trans hsuf

/-- Dropping the units in front of an old enough decodable unit `u`. -/
theorem Pruning.discardUpTo {u : EncodedAccessUnit} {post : List EncodedAccessUnit}
    (hu : u.independentlyDecodable = true)
    (hold : u.sensorTimestampNs ≤ lastTimestamp start.units - start.retentionNs)
    (hlate : start.retentionNs < lastTimestamp start.units) :
    ∀ (pre : List EncodedAccessUnit) (ring : EncodedRingBuffer),
      Pruning bound start ring → ring.units = pre ++ u :: post →
      Pruning bound start (EncodedRingBuffer.discardFrontLocked^[pre.length] ring) ∧
        (EncodedRingBuffer.discardFrontLocked^[pre.length] ring).units = u :: post := by
  intro pre
  induction pre with
  | nil => intro ring h hunits; exact ⟨h, hunits⟩
  | cons v pre ih =>
    intro ring h hunits
    have hne : ring.units ≠ [] := by rw [hunits]; exact List.cons_ne_nil _ _
    have hback : reachesBack start.retentionNs ring.units = false := by
      rw [← Bool.not_eq_true, reachesBack_iff, lastTimestamp_of_suffix h.suffix hne, hunits]
      rintro (hle | hall)
      · omega
      · have := hall u (by simp) hu
        omega
    rw [List.length_cons, Function.iterate_succ_apply]
    refine ih _ (h.discardFrontLocked (retainable_of_not_reachesBack hback)) ?_
    rw [discardFrontLocked_units, hunits]
    rfl

/-- `pruneByTimeLocked` keeps pruning on course, and everything it leaves reaches back. -/
theorem Pruning.pruneByTimeLocked (h : Pruning bound start ring)
    (hsorted : TimeOrdered ring.units) :
    Pruning bound start ring.pruneByTimeLocked ∧
      ∀ s, s <:+ ring.pruneByTimeLocked.units → s ≠ [] →
        reachesBack start.retentionNs s = true := by
  unfold EncodedRingBuffer.pruneByTimeLocked
  split
  next hearly =>
    refine ⟨h, fun s hs hne => ?_⟩
    rw [← h.retention]
    exact reachesBack_of_early h.coherent hearly hs hne
  next hearly =>
    push Not at hearly
    have hne : ring.units ≠ [] := by
      intro hc
      simp [hc] at hearly
    have hlatest : ring.latestSensorTimestampNs = lastTimestamp start.units := by
      rw [h.coherent.latest hne, lastTimestamp_of_suffix h.suffix hne]
    have hlate := hearly.2
    rw [h.retention, hlatest] at hlate ⊢
    set cutoff := lastTimestamp start.units - start.retentionNs with hcutoff
    rcases newestIndependent_spec cutoff hsorted 0 none with
      ⟨heq, hnone⟩ | ⟨pre, u, post, hunits, heq, hu, hold, hpost⟩
    · simp only [heq]
      obtain ⟨hpruned, hsuf⟩ := h.discardOlderThan hnone
      refine ⟨hpruned, fun s hs hs0 => ?_⟩
      rw [reachesBack_iff, lastTimestamp_of_suffix (hs.trans hpruned.suffix) hs0]
      exact Or.inr fun v hv hvd =>
        hnone v (hsuf.subset (hs.subset (List.mem_of_mem_tail hv))) hvd
    · simp only [heq, Nat.zero_add]
      obtain ⟨hpruned, hkept⟩ := Pruning.discardUpTo hu hold hlate pre ring h hunits
      refine ⟨hpruned, fun s hs hs0 => ?_⟩
      rw [reachesBack_iff, lastTimestamp_of_suffix (hs.trans hpruned.suffix) hs0]
      refine Or.inr fun v hv hvd => hpost v ?_ hvd
      rw [hkept] at hs
      rcases List.suffix_cons_iff.mp hs with rfl | hs
      · exact hv
      · exact hs.subset (List.mem_of_mem_tail hv)

/-! #### By bytes, and the prefix nothing can start at -/

theorem overBytes_eq_false_iff :
    overBytes ring = false ↔ (ring.units ≠ [] → ring.bytes ≤ ring.maxBytes) := by
  simp only [overBytes, Bool.and_eq_false_imp, Bool.not_eq_true', List.isEmpty_eq_false_iff,
    decide_eq_false_iff_not, Nat.not_lt]

/-- A loop whose condition fails at once does nothing. -/
theorem discardWhile_of_false {condition : EncodedRingBuffer → Bool} (h : condition ring = false)
    (n : ℕ) : discardWhile condition n ring = ring := by
  cases n with
  | zero => rfl
  | succ n => rw [discardWhile, if_neg (by simp [h])]

/-- The byte loop, when its limit is the bound or when it has nothing to do. -/
theorem Pruning.discardOverBytes (h : Pruning bound start ring)
    (hbound : start.maxBytes = bound ∨
      ring.bytes ≤ ring.maxBytes ∧ totalBytes ring.units ≤ bound) :
    let within := discardWhile overBytes ring.units.length ring
    Pruning bound start within ∧ within.units <:+ ring.units ∧ totalBytes within.units ≤ bound := by
  rcases hbound with hbound | ⟨hle, htotal⟩
  · obtain ⟨⟨hpruned, hsuf⟩, hwithin⟩ := discardWhile_induction overBytes
      (fun r => Pruning bound start r ∧ r.units <:+ ring.units)
      (by intro r hc hr; simp [overBytes, hr] at hc)
      (by
        rintro r ⟨hr, hsuf⟩ hc
        have hover : bound < totalBytes r.units := by
          have := hr.coherent.bytes
          have := hr.limit
          simp only [overBytes, Bool.and_eq_true, decide_eq_true_eq] at hc
          omega
        refine ⟨hr.discardFrontLocked (by simp [retainable, Nat.not_le.mpr hover]), ?_⟩
        rw [discardFrontLocked_units]
        exact (List.tail_suffix _).trans hsuf)
      ring.units.length ring (Nat.le_refl _) ⟨h, List.suffix_refl _⟩
    refine ⟨hpruned, hsuf, ?_⟩
    rw [← hpruned.coherent.bytes]
    rw [overBytes_eq_false_iff, hpruned.limit, hbound] at hwithin
    by_cases hnil : (discardWhile overBytes ring.units.length ring).units = []
    · rw [hpruned.coherent.bytes, hnil]
      exact Nat.zero_le _
    · exact hwithin hnil
  · have hloop := discardWhile_of_false (overBytes_eq_false_iff.mpr fun _ => hle)
      ring.units.length
    simp only [hloop]
    exact ⟨h, List.suffix_refl _, htotal⟩

/-- The prefix loop: what is left starts with a decodable unit, or nothing is left. -/
theorem Pruning.discardUnusablePrefix (h : Pruning bound start ring) :
    let usable := discardWhile unusablePrefix ring.units.length ring
    Pruning bound start usable ∧ usable.units <:+ ring.units ∧
      (usable.units = [] ∨ usable.units.head?.any (·.independentlyDecodable) = true) := by
  obtain ⟨⟨hpruned, hsuf⟩, hhead⟩ := discardWhile_induction unusablePrefix
    (fun r => Pruning bound start r ∧ r.units <:+ ring.units)
    (by intro r hc hr; simp [unusablePrefix, hr] at hc)
    (by
      rintro r ⟨hr, hsuf⟩ hc
      refine ⟨hr.discardFrontLocked ?_, ?_⟩
      · cases hru : r.units with
        | nil => simp [unusablePrefix, hru] at hc
        | cons front rest => exact retainable_of_delta (by simpa [unusablePrefix, hru] using hc)
      · rw [discardFrontLocked_units]
        exact (List.tail_suffix _).trans hsuf)
    ring.units.length ring (Nat.le_refl _) ⟨h, List.suffix_refl _⟩
  refine ⟨hpruned, hsuf, ?_⟩
  cases hfu : (discardWhile unusablePrefix ring.units.length ring).units with
  | nil => exact Or.inl rfl
  | cons front rest => exact Or.inr (by simpa [unusablePrefix, hfu] using hhead)

/-- `pruneByBytesLocked` finishes the job: what is left is retainable, or nothing is left. -/
theorem Pruning.pruneByBytesLocked (h : Pruning bound start ring)
    (hback : ∀ s, s <:+ ring.units → s ≠ [] → reachesBack start.retentionNs s = true)
    (hbound : start.maxBytes = bound ∨
      ring.bytes ≤ ring.maxBytes ∧ totalBytes ring.units ≤ bound) :
    Pruning bound start ring.pruneByBytesLocked ∧ (ring.pruneByBytesLocked.units = [] ∨
      retainable start.retentionNs bound ring.pruneByBytesLocked.units = true) := by
  obtain ⟨hwithin, hsuf, htotal⟩ := h.discardOverBytes hbound
  obtain ⟨hpruned, hsuf', hhead⟩ := hwithin.discardUnusablePrefix
  refine ⟨hpruned, ?_⟩
  rcases eq_or_ne ring.pruneByBytesLocked.units [] with hnil | hne
  · exact Or.inl hnil
  · refine Or.inr ?_
    have htotal' : totalBytes ring.pruneByBytesLocked.units ≤ bound := by
      obtain ⟨dropped, hsplit⟩ := hsuf'
      rw [← hsplit, totalBytes_append] at htotal
      exact le_trans (Nat.le_add_left _ _) htotal
    rw [retainable, Bool.and_eq_true, Bool.and_eq_true, decide_eq_true_eq]
    exact ⟨⟨hhead.resolve_left hne, htotal'⟩, hback _ (hsuf'.trans hsuf) hne⟩

/-- **Pruning ends at the longest retainable suffix**, whatever order the units were dropped in. -/
theorem units_pruned (hcoherent : Coherent ring) (hsorted : TimeOrdered ring.units)
    (hbound : ring.maxBytes = bound ∨
      ring.pruneByTimeLocked.bytes ≤ ring.maxBytes ∧ totalBytes ring.units ≤ bound) :
    Pruning bound ring ring.pruneByTimeLocked.pruneByBytesLocked ∧
      ring.pruneByTimeLocked.pruneByBytesLocked.units =
        longestSuffix (retainable ring.retentionNs bound) ring.units := by
  have hstart : Pruning bound ring ring :=
    ⟨hcoherent, rfl, rfl, List.suffix_refl _, rfl⟩
  obtain ⟨htime, hback⟩ := hstart.pruneByTimeLocked hsorted
  have hbound' : ring.maxBytes = bound ∨
      ring.pruneByTimeLocked.bytes ≤ ring.pruneByTimeLocked.maxBytes ∧
        totalBytes ring.pruneByTimeLocked.units ≤ bound := by
    refine hbound.imp_right fun ⟨hle, htotal⟩ => ⟨htime.limit ▸ hle, ?_⟩
    obtain ⟨dropped, hsplit⟩ := htime.suffix
    rw [← hsplit, totalBytes_append] at htotal
    exact le_trans (Nat.le_add_left _ _) htotal
  obtain ⟨hfinal, hend⟩ := htime.pruneByBytesLocked hback hbound'
  refine ⟨hfinal, ?_⟩
  rw [← hfinal.longest]
  rcases hend with hnil | hret
  · rw [hnil, longestSuffix_nil]
  · rw [longestSuffix_eq_self hret]

end EncodedRingBuffer

end EggVision
