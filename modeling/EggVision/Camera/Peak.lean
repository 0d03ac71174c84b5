import EggVision.Camera.Conservation
import EggVision.Lib.RunningMaximum

/-!
# The peak of the leases

`onRequestCompleted` raises `outstanding_leases_peak` in a loop, since another callback may raise it
at the same time. In `CameraCapture` counting a frame is one step. Here the loop is taken apart: the
step only counts the lease and brings the number to the loop, whose steps come when they like.

## Main definitions

* `PeakCapture.step` — the camera, with the loops of its callbacks

## Main results

* `PeakCapture.peak_refines` — in the end it comes to the same
-/

namespace EggVision

open Transition RunningMaximum CameraCapture

/-- The camera, whose own peak is the one that is raised in one step, and the peak as it is raised
in the loop. -/
structure PeakCapture where
  capture : CameraCapture
  peak : Cell ℕ := ⟨0, []⟩

inductive PeakAction
  | capture (action : CameraAction)
  | peak (action : Action ℕ)

/-- The number of leases that a step brings to the loop. -/
def brought (s : CameraCapture) : CameraAction → Option ℕ
  | .callback callback =>
    if callback.stage = .counting then some (s.outstandingLeases + 1) else none
  | _ => none

namespace PeakCapture

def initial (count : ℕ) : PeakCapture := { capture := .initial count }

def step (s : PeakCapture) : PeakAction → Option PeakCapture
  | .capture action =>
    (s.capture.step action).map fun capture =>
      { capture
        peak := match brought s.capture action with
          | some outstanding => { s.peak with callers := s.peak.callers ++ [⟨outstanding, none⟩] }
          | none => s.peak }
  | .peak (.start _) => none
  | .peak action => (s.peak.step action).map fun peak => { s with peak }

/-- The step of the loop that a step is. -/
def loopAction (s : PeakCapture) : PeakAction → Option (Action ℕ)
  | .capture action => (brought s.capture action).map .start
  | .peak action => some action

variable {n : ℕ} {history : List (PeakCapture × PeakAction)} {s s' : PeakCapture}

/-- The history of the loop. -/
def loopHistory (history : List (PeakCapture × PeakAction)) : List (Cell ℕ × Action ℕ) :=
  history.filterMap fun x => (loopAction x.1 x.2).map fun a => (x.1.peak, a)

theorem run_peak (h : Run step (initial n) history s) :
    Run Cell.step ⟨0, []⟩ (loopHistory history) s.peak := by
  refine h.project PeakCapture.peak loopAction ?_ ?_
  · intro s a s' b hs hb
    cases a with
    | capture action =>
      obtain ⟨outstanding, hbrought, rfl⟩ := Option.map_eq_some_iff.mp hb
      obtain ⟨capture, -, rfl⟩ := Option.map_eq_some_iff.mp hs
      simp [Cell.step, hbrought]
    | peak action =>
      cases hb
      cases b with
      | start value => cases hs
      | load i | exchange i spurious =>
        obtain ⟨peak, hpeak, rfl⟩ := Option.map_eq_some_iff.mp hs
        exact hpeak
  · intro s a s' hs hb
    cases a with
    | capture action =>
      have hbrought : brought s.capture action = none := Option.map_eq_none_iff.mp hb
      obtain ⟨capture, -, rfl⟩ := Option.map_eq_some_iff.mp hs
      simp [hbrought]
    | peak action => cases hb

/-- What a step of the camera does to its own peak. -/
theorem step_brought {c c' : CameraCapture} {action : CameraAction}
    (hs : c.step action = some c') :
    c'.outstandingLeasesPeak = max c.outstandingLeasesPeak ((brought c action).getD 0) := by
  cases stepped_of_step hs with
  | callback callback hcallback =>
    obtain ⟨request, stage⟩ := callback
    cases stage with
    | counting => rfl
    | entered outcome =>
      simp only [advance]
      split
      · exact (Nat.max_zero _).symm
      · cases outcome <;> exact (Nat.max_zero _).symm
    | _ => exact (Nat.max_zero _).symm
  | delivered lease throws hlease =>
    cases throws <;> simp only [disown] <;> split <;> exact (Nat.max_zero _).symm
  | drop lease hlease =>
    simp only [disown]
    split <;> exact (Nat.max_zero _).symm
  | _ => exact (Nat.max_zero _).symm

/-- The camera's own peak is the greatest of the numbers that its steps brought. -/
theorem isGreatest_capture (h : Run step (initial n) history s) :
    IsGreatest {v | v = 0 ∨ v ∈ begun (loopHistory history)} s.capture.outstandingLeasesPeak := by
  induction h with
  | nil => exact ⟨.inl rfl, by rintro v (rfl | hv); exacts [le_refl 0, absurd hv List.not_mem_nil]⟩
  | @snoc history s s' a hrun hs ih =>
    have hbegun : begun (loopHistory (history ++ [(s, a)])) =
        begun (loopHistory history) ++ ((loopAction s a).bind Action.value).toList := by
      rw [loopHistory, List.filterMap_append, begun, List.filterMap_append]
      cases hloop : loopAction s a with
      | none => simp [hloop, begun, loopHistory]
      | some b => cases hvalue : b.value <;> simp [hloop, hvalue, begun, loopHistory]
    have hpeak : s'.capture.outstandingLeasesPeak =
        max s.capture.outstandingLeasesPeak (((loopAction s a).bind Action.value).getD 0) := by
      cases a with
      | capture action =>
        obtain ⟨capture, hcapture, rfl⟩ := Option.map_eq_some_iff.mp hs
        rw [step_brought hcapture, loopAction]
        cases brought s.capture action <;> rfl
      | peak action =>
        cases action with
        | start value => cases hs
        | load i | exchange i spurious =>
          obtain ⟨peak, -, rfl⟩ := Option.map_eq_some_iff.mp hs
          exact (Nat.max_zero _).symm
    rw [hbegun, hpeak]
    generalize (loopAction s a).bind Action.value = value
    cases value with
    | none => simpa using ih
    | some v =>
      obtain ⟨hmem, hupper⟩ := ih
      constructor
      · rcases Nat.le_total s.capture.outstandingLeasesPeak v with hle | hle
        · exact .inr (by simp [Nat.max_eq_right hle])
        · rw [Option.getD_some, Nat.max_eq_left hle]
          exact hmem.imp_right (List.mem_append_left _)
      · rintro w (rfl | hw)
        · exact Nat.zero_le _
        · rcases List.mem_append.mp hw with hw | hw
          · exact (hupper (.inr hw)).trans (Nat.le_max_left _ _)
          · rw [List.mem_singleton.mp hw]
            exact Nat.le_max_right _ _

/-- Without the loops it is a run of the camera. -/
theorem reachable_capture (h : Run step (initial n) history s) :
    Reachable CameraCapture.step (.initial n) s.capture := by
  refine h.reachable.map (β := CameraAction) PeakCapture.capture ?_
  intro s a s' hs
  cases a with
  | capture action =>
    obtain ⟨capture, hcapture, rfl⟩ := Option.map_eq_some_iff.mp hs
    exact .inr ⟨action, hcapture⟩
  | peak action =>
    cases action with
    | start value => cases hs
    | load i | exchange i spurious =>
      obtain ⟨peak, -, rfl⟩ := Option.map_eq_some_iff.mp hs
      exact .inl rfl

/-- **The loop comes to the same as one step.** Whatever the callbacks of any number of threads do
in between, and however often an exchange fails, the camera does what it does without the loops; the
peak is never above the one that would have been raised at once, and it is that one whenever no
callback is in its loop. -/
theorem peak_refines (h : Run step (initial n) history s) :
    Reachable CameraCapture.step (.initial n) s.capture ∧
      s.peak.peak ≤ s.capture.outstandingLeasesPeak ∧
      (s.peak.callers = [] → s.peak.peak = s.capture.outstandingLeasesPeak) := by
  have hcapture := isGreatest_capture h
  obtain ⟨hknown, hquiet⟩ := Cell.isGreatest_peak (run_peak h)
  exact ⟨reachable_capture h, hcapture.2 hknown,
    fun hcallers => (hquiet hcallers).unique hcapture⟩

/-- Two callbacks at once: the second raises the peak first, after an exchange that fails for no
reason, and the first finds that there is nothing left to do. -/
def twoCallbacks : List PeakAction :=
  [.start, .lower, .openCamera true, .publish, .spawn, .queueNext true, .queueNext true, .started,
    .complete 0 .complete, .complete 1 .complete, .callback ⟨0, .entered .complete⟩,
    .callback ⟨1, .entered .complete⟩, .callback ⟨0, .counting⟩,
    .callback ⟨1, .counting⟩].map .capture ++
  [.load 0, .load 1, .exchange 1 true, .exchange 1 false, .exchange 0 false].map .peak

theorem peak_refines_twoCallbacks : ∃ s, exec step (initial 2) twoCallbacks = some s ∧
    s.capture.outstandingLeasesPeak = 2 ∧ s.peak.peak = s.capture.outstandingLeasesPeak := by
  obtain ⟨s, hs⟩ : ∃ s, exec step (initial 2) twoCallbacks = some s := ⟨_, rfl⟩
  have hquiet : s.capture.outstandingLeasesPeak = 2 ∧ s.peak.callers = [] := by
    cases hs
    exact ⟨rfl, rfl⟩
  exact ⟨s, hs, hquiet.1, (peak_refines (Run.ofExec twoCallbacks hs)).2.2 hquiet.2⟩

end PeakCapture

end EggVision
