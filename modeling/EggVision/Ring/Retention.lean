import EggVision.Ring.Pruning
import Mathlib.Data.Nat.Find

/-!
# What the ring retains

`push` prunes destructively, and the ring forgets its generation and timestamp whenever it becomes
empty. This file shows that the outcome does not depend on that history: at every moment the ring
holds a suffix of the current *epoch* that can be read off the epoch alone.

The epoch is the list of accepted units since the last `clear`, generation change or timestamp
decrease between two consecutive accepted units. It goes on through the moments when the ring is
empty, which the ring itself does not.

## Main definitions

* `retainedUnits` — the closed form, by the boundary index and the least admissible start
* `RingOp`, `Tracked` — runs of `push` and `clear`, with the epoch recorded beside the ring
* `Retains` — the invariant: the ring is the longest retainable suffix of the epoch

## Main results

* `Retains.push` — one accepted unit
* `run_units` — the closed form, for every sequence of operations
-/

namespace EggVision

namespace EncodedRingBuffer

open Suffix

/-! ### The closed form -/

/-- The index of the newest independently decodable unit at or before `latest - retentionNs`; `0`
if there is none, or if the epoch is not yet older than the retention. -/
def boundaryIndex (retentionNs : ℕ) (epoch : List EncodedAccessUnit) : ℕ :=
  if lastTimestamp epoch ≤ retentionNs then 0
  else Nat.findGreatest
    (fun j => (epoch[j]?).any fun u =>
      u.independentlyDecodable && decide (u.sensorTimestampNs ≤ lastTimestamp epoch - retentionNs))
    epoch.length

/-- The units from the least index `i ≥ boundaryIndex` on at which a decodable unit starts a
suffix of at most `maxBytes` payload bytes; none if there is no such index. -/
def retainedUnits (retentionNs maxBytes : ℕ) (epoch : List EncodedAccessUnit) :
    List EncodedAccessUnit :=
  let start? := (List.range epoch.length).find? fun i =>
    decide (boundaryIndex retentionNs epoch ≤ i) &&
      ((epoch[i]?).any (·.independentlyDecodable)) &&
      decide (totalBytes (epoch.drop i) ≤ maxBytes)
  (start?.map (epoch.drop ·)).getD []

/-! ### Runs -/

/-- One call of the ring's interface that changes it. -/
inductive RingOp
  | push (unit : Option EncodedAccessUnit)
  | clear
deriving DecidableEq, Repr

/-- The epoch after one more accepted unit. -/
def epochAfter (epoch : List EncodedAccessUnit) (unit : EncodedAccessUnit) :
    List EncodedAccessUnit :=
  match epoch.getLast? with
  | none => [unit]
  | some last =>
    if last.generation ≠ unit.generation ∨ unit.sensorTimestampNs < last.sensorTimestampNs then
      [unit]
    else epoch ++ [unit]

/-- The ring together with the epoch it is in. -/
structure Tracked where
  ring : EncodedRingBuffer
  epoch : List EncodedAccessUnit := []
deriving DecidableEq, Repr

namespace Tracked

/-- One operation. A unit joins the epoch unless the push rejected it. -/
def apply (tracked : Tracked) : RingOp → Tracked
  | .clear => { ring := tracked.ring.clear, epoch := [] }
  | .push none => { tracked with ring := (tracked.ring.push none).1 }
  | .push (some unit) =>
    let (ring, result) := tracked.ring.push (some unit)
    { ring
      epoch := if result.rejected then tracked.epoch else epochAfter tracked.epoch unit }

/-- A sequence of operations on a newly constructed ring. -/
def run (ring : EncodedRingBuffer) (ops : List RingOp) : Tracked :=
  ops.foldl apply { ring }

end Tracked

/-! ### One operation -/

variable {bound : ℕ} {ring : EncodedRingBuffer} {tracked : Tracked}

/-- What every run maintains: the ring is the longest retainable suffix of the epoch. -/
structure Retains (bound : ℕ) (tracked : Tracked) : Prop where
  coherent : Coherent tracked.ring
  ordered : TimeOrdered tracked.epoch
  units : tracked.ring.units =
    longestSuffix (retainable tracked.ring.retentionNs bound) tracked.epoch

theorem Retains.suffix (h : Retains bound tracked) : tracked.ring.units <:+ tracked.epoch := by
  rw [h.units]
  exact longestSuffix_suffix _ _

theorem Coherent.resetLocked (ring : EncodedRingBuffer) : Coherent ring.resetLocked :=
  ⟨rfl, fun h => absurd rfl h, by simp [EncodedRingBuffer.resetLocked]⟩

theorem Coherent.append (h : Coherent ring) {u : EncodedAccessUnit}
    (hgen : ∀ v ∈ ring.units, v.generation = u.generation) : Coherent (ring.append u) where
  bytes := by simp [EncodedRingBuffer.append, h.bytes]
  latest := by simp [EncodedRingBuffer.append]
  generation := by
    intro v hv
    rcases List.mem_append.mp hv with hv | hv
    · exact hgen v hv
    · rw [List.mem_singleton.mp hv]
      rfl

theorem TimeOrdered.of_suffix {s units : List EncodedAccessUnit} (h : TimeOrdered units)
    (hs : s <:+ units) : TimeOrdered s :=
  h.sublist hs.sublist

theorem TimeOrdered.append_singleton {units : List EncodedAccessUnit} (h : TimeOrdered units)
    {u : EncodedAccessUnit} (hle : lastTimestamp units ≤ u.sensorTimestampNs) :
    TimeOrdered (units ++ [u]) := by
  refine List.pairwise_append.mpr ⟨h, List.pairwise_singleton _ _, fun v hv w hw => ?_⟩
  rw [List.mem_singleton.mp hw]
  exact (h.le_lastTimestamp hv).trans hle

/-- An epoch either starts over with the new unit or goes on with it. -/
theorem epochAfter_cases (epoch : List EncodedAccessUnit) (u : EncodedAccessUnit) :
    epochAfter epoch u = [u] ∨
      epochAfter epoch u = epoch ++ [u] ∧ lastTimestamp epoch ≤ u.sensorTimestampNs ∧
        ∀ last ∈ epoch.getLast?, last.generation = u.generation := by
  unfold epochAfter
  split
  next => exact Or.inl rfl
  next last hlast =>
    split
    next => exact Or.inl rfl
    next hkeep =>
      push Not at hkeep
      refine Or.inr ⟨rfl, by simpa [lastTimestamp, hlast] using hkeep.2, fun w hw => ?_⟩
      rw [← Option.some.inj (hlast.symm.trans hw)]
      exact hkeep.1

theorem timeOrdered_epochAfter {epoch : List EncodedAccessUnit} (h : TimeOrdered epoch)
    (u : EncodedAccessUnit) : TimeOrdered (epochAfter epoch u) := by
  rcases epochAfter_cases epoch u with heq | ⟨heq, hle, -⟩
  · rw [heq]
    exact List.pairwise_singleton _ _
  · rw [heq]
    exact h.append_singleton hle

/-- A ring that is not empty ends with the newest unit of the epoch, so it resets exactly when the
epoch starts over; an empty one has nothing to reset. -/
theorem Retains.startEpoch_cases (h : Retains bound tracked) (u : EncodedAccessUnit) :
    (epochAfter tracked.epoch u = [u] ∧ (tracked.ring.startEpoch u).1.units = [] ∧
        Coherent (tracked.ring.startEpoch u).1 ∧
        (tracked.ring.startEpoch u).1.retentionNs = tracked.ring.retentionNs ∧
        (tracked.ring.startEpoch u).1.maxBytes = tracked.ring.maxBytes) ∨
      (epochAfter tracked.epoch u = tracked.epoch ++ [u] ∧
        lastTimestamp tracked.epoch ≤ u.sensorTimestampNs ∧
        (tracked.ring.startEpoch u).1 = tracked.ring ∧
        ∀ v ∈ tracked.ring.units, v.generation = u.generation) := by
  rcases eq_or_ne tracked.ring.units [] with hnil | hne
  · have hstart : (tracked.ring.startEpoch u).1 = tracked.ring := by
      simp [EncodedRingBuffer.startEpoch, hnil]
    rw [hstart]
    rcases epochAfter_cases tracked.epoch u with heq | ⟨heq, hle, -⟩
    · exact Or.inl ⟨heq, hnil, h.coherent, rfl, rfl⟩
    · exact Or.inr ⟨heq, hle, rfl, by simp [hnil]⟩
  · obtain ⟨last, hlast⟩ : ∃ last, tracked.ring.units.getLast? = some last :=
      ⟨_, List.getLast?_eq_some_getLast hne⟩
    have hepochLast : tracked.epoch.getLast? = some last := by
      obtain ⟨pre, hpre⟩ := h.suffix
      rw [← hpre, List.getLast?_append_of_ne_nil pre hne, hlast]
    have hgen : last.generation = tracked.ring.generation :=
      h.coherent.generation last (List.mem_of_getLast? hlast)
    have hlatest : tracked.ring.latestSensorTimestampNs = last.sensorTimestampNs := by
      rw [h.coherent.latest hne, lastTimestamp, hlast]
      rfl
    have hepoch : epochAfter tracked.epoch u =
        if last.generation ≠ u.generation ∨ u.sensorTimestampNs < last.sensorTimestampNs then [u]
        else tracked.epoch ++ [u] := by
      rw [epochAfter, hepochLast]
    have hempty : tracked.ring.units.isEmpty = false := by simpa using hne
    unfold EncodedRingBuffer.startEpoch
    rw [hempty, ← hgen, hlatest]
    split
    next hchange =>
      refine Or.inl ⟨?_, rfl, Coherent.resetLocked _, rfl, rfl⟩
      rw [hepoch, if_pos (Or.inl fun hc => by simp [hc] at hchange)]
    next hsame =>
      have hsame : last.generation = u.generation := by
        by_contra hc
        exact hsame (by simp [Ne.symm hc])
      split
      next hback =>
        refine Or.inl ⟨?_, rfl, Coherent.resetLocked _, rfl, rfl⟩
        rw [hepoch, if_pos (Or.inr (by simpa using hback))]
      next hforth =>
        have hle : last.sensorTimestampNs ≤ u.sensorTimestampNs := by simpa using hforth
        refine Or.inr ⟨?_, by simpa [lastTimestamp, hepochLast] using hle, rfl, fun v hv => ?_⟩
        · rw [hepoch, if_neg (by push Not; exact ⟨hsame, hle⟩)]
        · rw [h.coherent.generation v hv, ← hgen, hsame]

/-- Pruning starts from a list with the same longest retainable suffix as the new epoch. -/
theorem Retains.append (h : Retains bound tracked) (u : EncodedAccessUnit) :
    let opened := (tracked.ring.startEpoch u).1.append u
    Coherent opened ∧ opened.retentionNs = tracked.ring.retentionNs ∧
      opened.maxBytes = tracked.ring.maxBytes ∧
      opened.units <:+ epochAfter tracked.epoch u ∧
      longestSuffix (retainable tracked.ring.retentionNs bound) opened.units =
        longestSuffix (retainable tracked.ring.retentionNs bound) (epochAfter tracked.epoch u) := by
  rcases h.startEpoch_cases u with ⟨hepoch, hnil, hc, hR, hM⟩ | ⟨hepoch, hle, hstart, hgen⟩
  · have hunits : ((tracked.ring.startEpoch u).1.append u).units = [u] := by
      simp [EncodedRingBuffer.append, hnil]
    refine ⟨hc.append (by simp [hnil]), hR, hM, ?_, ?_⟩
    · rw [hunits, hepoch]
    · rw [hunits, hepoch]
  · have hunits : (tracked.ring.append u).units = tracked.ring.units ++ [u] := rfl
    rw [hstart, hepoch]
    refine ⟨h.coherent.append hgen, rfl, rfl, ?_, ?_⟩
    · obtain ⟨pre, hpre⟩ := h.suffix
      exact ⟨pre, by rw [hunits, ← hpre, List.append_assoc]⟩
    · rw [hunits, h.units]
      refine longestSuffix_append_singleton fun s hs hne hret => ?_
      exact retainable_of_append hne (by rwa [lastTimestamp_of_suffix hs hne]) hret

/-- One accepted unit, when the byte limit is the bound or has nothing to evict. -/
theorem Retains.push (h : Retains bound tracked) {u : EncodedAccessUnit}
    (hrej : (tracked.ring.push (some u)).2.rejected = false)
    (hbound : tracked.ring.maxBytes = bound ∨
      ((tracked.ring.startEpoch u).1.append u).pruneByTimeLocked.bytes ≤ tracked.ring.maxBytes ∧
        totalBytes (epochAfter tracked.epoch u) ≤ bound) :
    Retains bound (tracked.apply (.push (some u))) ∧
      (tracked.apply (.push (some u))).ring.retentionNs = tracked.ring.retentionNs ∧
      (tracked.apply (.push (some u))).ring.maxBytes = tracked.ring.maxBytes ∧
      (tracked.apply (.push (some u))).epoch = epochAfter tracked.epoch u := by
  obtain ⟨-, hr, -⟩ | ⟨-, -, hring⟩ := push_cases tracked.ring u
  · rw [hrej] at hr
    cases hr
  · obtain ⟨hc, hR, hM, hsuf, hlong⟩ := h.append u
    have hordered := timeOrdered_epochAfter h.ordered u
    have hbound' : ((tracked.ring.startEpoch u).1.append u).maxBytes = bound ∨
        ((tracked.ring.startEpoch u).1.append u).pruneByTimeLocked.bytes ≤
            ((tracked.ring.startEpoch u).1.append u).maxBytes ∧
          totalBytes ((tracked.ring.startEpoch u).1.append u).units ≤ bound := by
      rw [hM]
      refine hbound.imp_right fun ⟨hle, htotal⟩ => ⟨hle, ?_⟩
      obtain ⟨pre, hpre⟩ := hsuf
      rw [← hpre, totalBytes_append] at htotal
      exact le_trans (Nat.le_add_left _ _) htotal
    obtain ⟨hpruned, hunits⟩ := units_pruned hc (hordered.of_suffix hsuf) hbound'
    have hR' := hpruned.retention.trans hR
    rw [hR, hlong, ← hR'] at hunits
    simp only [Tracked.apply, hrej, hring, Bool.false_eq_true, if_false, and_true]
    exact ⟨⟨⟨hpruned.coherent.bytes, hpruned.coherent.latest, hpruned.coherent.generation⟩,
      hordered, hunits⟩, hR', hpruned.limit.trans hM⟩

/-- A rejected unit changes neither the ring nor the epoch. -/
theorem Tracked.apply_of_rejected {unit : Option EncodedAccessUnit}
    (h : (tracked.ring.push unit).2.rejected = true) : tracked.apply (.push unit) = tracked := by
  cases unit with
  | none => rfl
  | some u =>
    obtain ⟨hring, hr, -⟩ | ⟨hr, -, -⟩ := push_cases tracked.ring u
    · simp only [Tracked.apply, h, hring, if_true]
    · rw [h] at hr
      cases hr

/-! ### Every run -/

theorem retains_new (bound : ℕ) {retentionNs maxBytes : ℕ}
    (hring : new retentionNs maxBytes = .ok ring) :
    Retains bound { ring } ∧ ring.retentionNs = retentionNs ∧ ring.maxBytes = maxBytes := by
  unfold new at hring
  split at hring
  · cases hring
  · split at hring
    · cases hring
    · cases hring
      exact ⟨⟨⟨rfl, fun h => absurd rfl h, by simp⟩, List.Pairwise.nil, rfl⟩, rfl, rfl⟩

theorem Retains.apply (h : Retains bound tracked) (hlimit : tracked.ring.maxBytes = bound)
    (op : RingOp) : Retains bound (tracked.apply op) ∧
      (tracked.apply op).ring.retentionNs = tracked.ring.retentionNs ∧
      (tracked.apply op).ring.maxBytes = tracked.ring.maxBytes := by
  cases op with
  | clear => exact ⟨⟨Coherent.resetLocked _, List.Pairwise.nil, rfl⟩, rfl, rfl⟩
  | push unit =>
    cases hrej : (tracked.ring.push unit).2.rejected with
    | true =>
      rw [Tracked.apply_of_rejected hrej]
      exact ⟨h, rfl, rfl⟩
    | false =>
      cases unit with
      | none => cases hrej
      | some u =>
        obtain ⟨hr, hR, hM, -⟩ := h.push hrej (Or.inl hlimit)
        exact ⟨hr, hR, hM⟩

theorem retains_run {retentionNs maxBytes : ℕ} (hring : new retentionNs maxBytes = .ok ring)
    (ops : List RingOp) : Retains maxBytes (Tracked.run ring ops) ∧
      (Tracked.run ring ops).ring.retentionNs = retentionNs ∧
      (Tracked.run ring ops).ring.maxBytes = maxBytes := by
  unfold Tracked.run
  induction ops using List.reverseRecOn with
  | nil => exact retains_new maxBytes hring
  | append_singleton ops op ih =>
    obtain ⟨hr, hR, hM⟩ := ih
    rw [List.foldl_append]
    obtain ⟨hr', hR', hM'⟩ := hr.apply hM op
    exact ⟨hr', hR'.trans hR, hM'.trans hM⟩

/-- The property and the closed form agree on every start. -/
theorem retainable_drop (retentionNs maxBytes : ℕ) {epoch : List EncodedAccessUnit} {i : ℕ}
    (hi : i < epoch.length) :
    retainable retentionNs maxBytes (epoch.drop i) =
      (decide (boundaryIndex retentionNs epoch ≤ i) &&
        ((epoch[i]?).any (·.independentlyDecodable)) &&
        decide (totalBytes (epoch.drop i) ≤ maxBytes)) := by
  have hne : epoch.drop i ≠ [] := by simpa using hi
  have hlast : lastTimestamp (epoch.drop i) = lastTimestamp epoch :=
    lastTimestamp_of_suffix (List.drop_suffix i epoch) hne
  have hhead : (epoch.drop i).head? = epoch[i]? := List.head?_drop
  have hback : reachesBack retentionNs (epoch.drop i) = true ↔
      boundaryIndex retentionNs epoch ≤ i := by
    rw [reachesBack_iff, hlast, boundaryIndex, List.tail_drop]
    split
    next hle => exact ⟨fun _ => Nat.zero_le i, fun _ => Or.inl hle⟩
    next hlate =>
      rw [or_iff_right hlate]
      constructor
      · intro hall
        by_contra hlt
        have hgt := Nat.lt_of_not_le hlt
        have hspec := Nat.findGreatest_of_ne_zero rfl (Nat.ne_zero_of_lt hgt)
        obtain ⟨u, hu, hud⟩ := (Option.any_eq_true _ _).mp hspec
        simp only [Bool.and_eq_true, decide_eq_true_eq] at hud
        have hmem : u ∈ epoch.drop (i + 1) := by
          rw [List.mem_iff_getElem?]
          exact ⟨_ - (i + 1), by rw [List.getElem?_drop, Nat.add_sub_cancel' hgt, hu]⟩
        have := hall u hmem hud.1
        omega
      · intro hle u hu hud
        by_contra hold
        obtain ⟨j, hj⟩ := List.mem_iff_getElem?.mp hu
        rw [List.getElem?_drop] at hj
        have hjlen : i + 1 + j < epoch.length := (List.getElem?_eq_some_iff.mp hj).1
        have := Nat.le_findGreatest (P := fun j => (epoch[j]?).any (fun u =>
          u.independentlyDecodable &&
            decide (u.sensorTimestampNs ≤ lastTimestamp epoch - retentionNs)) = true)
          (le_of_lt hjlen) (by simp [hj, hud, Nat.le_of_not_lt hold])
        omega
  rw [retainable, hhead, Bool.eq_iff_iff]
  simp only [Bool.and_eq_true, decide_eq_true_eq, hback]
  tauto

/-- **Exact retention.** Whatever was pushed and cleared, the ring holds exactly the units the
closed form picks from the current epoch. -/
theorem run_units {retentionNs maxBytes : ℕ} (hring : new retentionNs maxBytes = .ok ring)
    (ops : List RingOp) :
    (Tracked.run ring ops).ring.units =
      retainedUnits retentionNs maxBytes (Tracked.run ring ops).epoch := by
  obtain ⟨hr, hR, -⟩ := retains_run hring ops
  rw [hr.units, hR]
  exact longestSuffix_eq_drop fun i hi => retainable_drop retentionNs maxBytes hi

/-- A byte limit that cuts through a GOP after a regression: only the last GOP is left. -/
theorem run_units_byteLimit :
    let ops : List RingOp := [.push (some (.ofTest 9 1 true 2)), .clear,
      .push (some (.ofTest 5 1 true 2)), .push none, .push (some (.ofTest 6 1 false 2)),
      .push (some (.ofTest 7 1 true 2)), .push (some (.ofTest 8 1 false 2))]
    ∃ ring, new 100 7 = .ok ring ∧
      (Tracked.run ring ops).ring.units = retainedUnits 100 7 (Tracked.run ring ops).epoch ∧
      (Tracked.run ring ops).ring.units = [.ofTest 7 1 true 2, .ofTest 8 1 false 2] :=
  ⟨_, rfl, run_units rfl _, by decide⟩

end EncodedRingBuffer

end EggVision
