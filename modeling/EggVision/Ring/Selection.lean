import EggVision.Ring.PreRoll

/-!
# What a pre-roll selection is

`selectPreRoll` walks over the ring twice, and each walk stops at the first unit later than its
bound. What a selection should be is said here without any walk: it begins at the newest decodable
unit that is old enough, or else at the oldest one that precedes the trigger.

A ring that was only pushed to and cleared is ordered in time, also where timestamps are equal, and
there the two walks find just that.

## Main definitions

* `Serves` — a clip for a time may begin with the unit
* `Optimal` — what the selection from some units should be

## Main results

* `preRollStart_cases` — what the two walks find
* `selectPreRoll_optimal` — every selection from a reachable ring is optimal
-/

namespace EggVision

namespace EncodedRingBuffer

open Suffix

variable {units : List EncodedAccessUnit} {requested trigger : ℕ} {ring : EncodedRingBuffer}

/-- A clip can begin with the unit, and reaches back to the time. -/
def Serves (time : ℕ) (unit : EncodedAccessUnit) : Prop :=
  unit.independentlyDecodable = true ∧ unit.sensorTimestampNs ≤ time

/-- What the selection from `units` should be, for a trigger and a requested start. -/
structure Optimal (units : List EncodedAccessUnit) (trigger requested : ℕ)
    (selection : EncodedRingSelection) : Prop where
  requestedStart : selection.requestedStartSensorTimestampNs = requested
  independent : selection.hasIndependentStart = true ↔ ∃ u ∈ units, Serves trigger u
  complete : selection.preRollComplete = true ↔ ∃ u ∈ units, Serves requested u
  /-- The last unit that serves the requested start comes first. -/
  newest : ∀ before u after, units = before ++ u :: after → Serves requested u →
    (∀ v ∈ after, ¬ Serves requested v) → selection.units = u :: after
  /-- Where there is none, the first that serves the trigger does. -/
  oldest : (∀ v ∈ units, ¬ Serves requested v) →
    ∀ before u after, units = before ++ u :: after → Serves trigger u →
      (∀ v ∈ before, ¬ Serves trigger v) → selection.units = u :: after
  without : (∀ v ∈ units, ¬ Serves trigger v) →
    selection.units = [] ∧ selection.hasIndependentStart = false ∧
      selection.preRollComplete = false

/-! ### What the walks find -/

theorem Serves.mono {time time' : ℕ} {u : EncodedAccessUnit} (h : Serves time u)
    (hle : time ≤ time') : Serves time' u :=
  ⟨h.1, h.2.trans hle⟩

theorem not_serves {time : ℕ} {u : EncodedAccessUnit}
    (h : u.independentlyDecodable = true → time < u.sensorTimestampNs) : ¬ Serves time u :=
  fun hserves => absurd hserves.2 (Nat.not_le.mpr (h hserves.1))

/-- The first walk finds the last unit that serves the requested start; else the second finds the
first one that serves the trigger; else nothing serves either. -/
theorem preRollStart_cases (hordered : TimeOrdered units) (requested trigger : ℕ) :
    (∃ before u after, units = before ++ u :: after ∧ Serves requested u ∧
      (∀ v ∈ after, ¬ Serves requested v) ∧
      preRollStart requested trigger units = some before.length) ∨
    (∃ before u after, units = before ++ u :: after ∧ Serves trigger u ∧
      (∀ v ∈ units, ¬ Serves requested v) ∧ (∀ v ∈ before, ¬ Serves trigger v) ∧
      preRollStart requested trigger units = some before.length) ∨
    ((∀ v ∈ units, ¬ Serves trigger v) ∧ preRollStart requested trigger units = none) := by
  unfold preRollStart
  rcases newestIndependent_spec requested hordered 0 none with
    ⟨heq, hnone⟩ | ⟨before, u, after, rfl, heq, hu, hold, hafter⟩
  · rw [heq]
    have hlate : ∀ v ∈ units, ¬ Serves requested v := fun v hv => not_serves (hnone v hv)
    rcases firstIndependent_spec trigger hordered 0 with
      ⟨heq', hnone'⟩ | ⟨before, u, after, rfl, heq', hu, hearly, hbefore⟩
    · exact Or.inr (Or.inr ⟨fun v hv => not_serves (hnone' v hv), heq'⟩)
    · refine Or.inr (Or.inl
        ⟨before, u, after, rfl, ⟨hu, hearly⟩, hlate, fun v hv hserves => ?_, ?_⟩)
      · exact absurd hserves.1 (by simp [hbefore v hv])
      · rw [heq', Nat.zero_add]
  · rw [heq]
    refine Or.inl ⟨before, u, after, rfl, ⟨hu, hold⟩, fun v hv => not_serves (hafter v hv), ?_⟩
    rw [Nat.zero_add]

theorem requested_eq (trigger preRollNs : ℕ) :
    (if trigger > preRollNs then trigger - preRollNs else 0) = trigger - preRollNs := by
  split <;> omega

theorem selectPreRoll_of_start {preRollNs : ℕ} {before after : List EncodedAccessUnit}
    {u : EncodedAccessUnit} (hunits : ring.units = before ++ u :: after)
    (hstart : preRollStart (trigger - preRollNs) trigger ring.units = some before.length) :
    ring.selectPreRoll trigger preRollNs =
      { generation := ring.generation
        requestedStartSensorTimestampNs := trigger - preRollNs
        actualStartSensorTimestampNs := u.sensorTimestampNs
        preRollComplete := decide (u.sensorTimestampNs ≤ trigger - preRollNs)
        hasIndependentStart := true
        units := u :: after } := by
  have hempty : ring.units.isEmpty = false := by simp [hunits]
  have hdrop : ring.units.drop before.length = u :: after := by rw [hunits, List.drop_left]
  simp [selectPreRoll, requested_eq, hempty, hstart, hdrop]

theorem selectPreRoll_of_none {preRollNs : ℕ}
    (hstart : preRollStart (trigger - preRollNs) trigger ring.units = none) :
    (ring.selectPreRoll trigger preRollNs).requestedStartSensorTimestampNs = trigger - preRollNs ∧
      (ring.selectPreRoll trigger preRollNs).units = [] ∧
      (ring.selectPreRoll trigger preRollNs).hasIndependentStart = false ∧
      (ring.selectPreRoll trigger preRollNs).preRollComplete = false := by
  unfold selectPreRoll
  simp only [requested_eq, hstart]
  split <;> exact ⟨rfl, rfl, rfl, rfl⟩

/-- In a list ordered in time, whatever the walks find is optimal. -/
theorem TimeOrdered.optimal (hordered : TimeOrdered ring.units) (trigger preRollNs : ℕ) :
    Optimal ring.units trigger (trigger - preRollNs) (ring.selectPreRoll trigger preRollNs) := by
  have hle : trigger - preRollNs ≤ trigger := Nat.sub_le _ _
  rcases preRollStart_cases hordered (trigger - preRollNs) trigger with
    ⟨before, u, after, hunits, hu, hafter, hstart⟩ |
    ⟨before, u, after, hunits, hu, hlate, hbefore, hstart⟩ | ⟨hnone, hstart⟩
  · rw [selectPreRoll_of_start hunits hstart]
    have hmem : u ∈ ring.units := by simp [hunits]
    refine ⟨rfl, ?_, ?_, ?_, ?_, ?_⟩
    · exact ⟨fun _ => ⟨u, hmem, hu.mono hle⟩, fun _ => rfl⟩
    · exact ⟨fun _ => ⟨u, hmem, hu⟩, fun _ => decide_eq_true hu.2⟩
    · -- two cuts at the last unit that serves are one cut
      intro before' u' after' hunits' hu' hafter'
      obtain ⟨-, rfl, rfl⟩ := append_cons_inj_of_last (P := Serves (trigger - preRollNs))
        (hunits.symm.trans hunits') hu hu' hafter hafter'
      rfl
    · exact fun hlate => absurd hu (hlate u hmem)
    · exact fun hnone => absurd (hu.mono hle) (hnone u hmem)
  · rw [selectPreRoll_of_start hunits hstart]
    have hmem : u ∈ ring.units := by simp [hunits]
    refine ⟨rfl, ?_, ?_, ?_, ?_, ?_⟩
    · exact ⟨fun _ => ⟨u, hmem, hu⟩, fun _ => rfl⟩
    · constructor
      · exact fun hcomplete => absurd ⟨hu.1, of_decide_eq_true hcomplete⟩ (hlate u hmem)
      · rintro ⟨v, hv, hserves⟩
        exact absurd hserves (hlate v hv)
    · intro before' u' after' hunits' hu'
      exact absurd hu' (hlate u' (by simp [hunits']))
    · intro _ before' u' after' hunits' hu' hbefore'
      obtain ⟨-, rfl, rfl⟩ := append_cons_inj_of_first (P := Serves trigger)
        (hunits.symm.trans hunits') hu hu' hbefore hbefore'
      rfl
    · exact fun hnone => absurd hu (hnone u hmem)
  · obtain ⟨hrequested, hunits, hindependent, hcomplete⟩ := selectPreRoll_of_none hstart
    refine ⟨hrequested, ?_, ?_, ?_, ?_, fun _ => ⟨hunits, hindependent, hcomplete⟩⟩
    · rw [hindependent]
      exact ⟨by rintro ⟨⟩, fun ⟨u, hu, hserves⟩ => absurd hserves (hnone u hu)⟩
    · rw [hcomplete]
      exact ⟨by rintro ⟨⟩, fun ⟨u, hu, hserves⟩ => absurd (hserves.mono hle) (hnone u hu)⟩
    · intro before u after hsplit hu
      exact absurd (hu.mono hle) (hnone u (by simp [hsplit]))
    · intro _ before u after hsplit hu
      exact absurd hu (hnone u (by simp [hsplit]))

/-- **Every selection is optimal**, for every ring that operations lead to, every trigger and every
pre-roll; where the pre-roll is longer than the trigger, the requested start is zero. -/
theorem selectPreRoll_optimal {retentionNs maxBytes : ℕ}
    (hring : new retentionNs maxBytes = .ok ring) (ops : List RingOp) (trigger preRollNs : ℕ) :
    Optimal (Tracked.run ring ops).ring.units trigger (trigger - preRollNs)
      ((Tracked.run ring ops).ring.selectPreRoll trigger preRollNs) := by
  obtain ⟨hretains, -, -⟩ := retains_run hring ops
  exact (hretains.ordered.of_suffix hretains.suffix).optimal trigger preRollNs

/-- Two keyframes at one time, and a trigger earlier than its pre-roll is long. -/
theorem selectPreRoll_optimal_boundary :
    let ops : List RingOp := [.push (some (.ofTest 5 1 true 2)), .push (some (.ofTest 5 1 true 3)),
      .push (some (.ofTest 6 1 false 1))]
    ∃ ring, new 100 9 = .ok ring ∧
      (∀ trigger preRollNs, Optimal (Tracked.run ring ops).ring.units trigger (trigger - preRollNs)
        ((Tracked.run ring ops).ring.selectPreRoll trigger preRollNs)) ∧
      ((Tracked.run ring ops).ring.selectPreRoll 5 0).units =
        [.ofTest 5 1 true 3, .ofTest 6 1 false 1] ∧
      ((Tracked.run ring ops).ring.selectPreRoll 5 9).units =
        [.ofTest 5 1 true 2, .ofTest 5 1 true 3, .ofTest 6 1 false 1] :=
  ⟨_, rfl, selectPreRoll_optimal (show new 100 9 = .ok _ from rfl) _, by decide, by decide⟩

end EncodedRingBuffer

end EggVision
