import EggVision.Event.Recorder
import EggVision.Image.Copy
import EggVision.Image.DmaBufSync

/-!
# Staging the snapshot of an event

`stageMainSnapshot` copies the main profile of the frame that triggered an event, inside a read
session on its files. The error text and the snapshot are the caller's; three stages write them.

## Main definitions

* `stageMainSnapshot` — the function, with the calls of the sync operation that it makes.

## Main results

* `stageMainSnapshot_unmapped`, `stageMainSnapshot_refused`, `stageMainSnapshot_session` — the three
  ways through it.
* `stageMainSnapshot_allOrNothing` — when it succeeds, and what it leaves.
-/

namespace EggVision

open DmaBufReadSync

/-- A lease with the view of its main stream. -/
structure MainFrame extends FrameLease where
  main : StreamView
  deriving DecidableEq, Repr

/-- What `stageMainSnapshot` returns, what it leaves in its parameters, and the calls of the sync
operation up to its return. -/
structure StageOutcome where
  staged : Bool
  snapshot : MainSnapshot
  error : String
  calls : List SyncCall

/-- `stageMainSnapshot`. The answers are those of `systemSync`; on every path from the constructor
on, the destructor of `read_sync` runs before the return. -/
def stageMainSnapshot (results : SyncResults) (strerror : ℤ → String) (memory : ℕ → UInt8)
    (frame : MainFrame) : StageOutcome :=
  let snapshot : MainSnapshot := {}
  let view := frame.main
  if view.planes.any (fun plane => plane.data = 0) then
    { staged := false, snapshot, error := "main profile is not CPU mapped", calls := [] }
  else
    let constructed := construct (some results) strerror view []
    if ¬ constructed.sync.ready then
      let (destroyed, _) := finish strerror constructed.sync constructed.calls
      { staged := false, snapshot, error := constructed.error, calls := destroyed.calls }
    else
      let copy := copyCall memory view
      let snapshot := { snapshot with i420 := copy.destination }
      let error := copy.error
      let (ended, readSync) := finish strerror constructed.sync constructed.calls
      let error := if ¬ ended.success ∧ error = "" then ended.error else error
      let (destroyed, _) := finish strerror readSync ended.calls
      if ¬ copy.copied ∨ ¬ ended.success then
        { staged := false, snapshot := { snapshot with i420 := [] }, error,
          calls := destroyed.calls }
      else
        { staged := true
          snapshot := { snapshot with
            width := view.width.toNat
            height := view.height.toNat
            sequence := frame.sequence
            sensorTimestampNs := frame.sensorTimestampNs }
          error
          calls := destroyed.calls }

/-- What the recorder takes from it. -/
def StageOutcome.result (outcome : StageOutcome) : Except String MainSnapshot :=
  if outcome.staged then .ok outcome.snapshot else .error outcome.error

theorem error_of_copied {memory : ℕ → UInt8} {view : StreamView}
    (h : (copyCall memory view).copied = true) : (copyCall memory view).error = "" := by
  rcases hcopy : copyMappedI420 memory view with error | destination
  · rw [copyCall, hcopy] at h
    cases h
  · rw [copyCall, hcopy]

/-- The copy has no use for a view without planes. -/
theorem planes_ne_nil_of_copied {memory : ℕ → UInt8} {view : StreamView}
    (h : (copyCall memory view).copied = true) : view.planes ≠ [] := by
  intro hplanes
  rcases hcopy : copyMappedI420 memory view with error | destination
  · rw [copyCall, hcopy] at h
    cases h
  · obtain ⟨_, _, -, -, -, hsources, -⟩ := copyMappedI420_eq_ok.mp hcopy
    rw [planeSources, hplanes] at hsources
    cases hsources

section

variable (results : SyncResults) (strerror : ℤ → String) (memory : ℕ → UInt8) (frame : MainFrame)

/-- A success fills the snapshot and leaves no error. -/
structure StageOutcome.Staged (outcome : StageOutcome) (frame : MainFrame) (i420 : List UInt8) :
    Prop where
  staged : outcome.staged = true
  snapshot : outcome.snapshot =
    { width := frame.main.width.toNat
      height := frame.main.height.toNat
      sequence := frame.sequence
      sensorTimestampNs := frame.sensorTimestampNs
      i420 := i420 }
  error : outcome.error = ""

/-- A failure leaves nothing in the snapshot. -/
structure StageOutcome.Failed (outcome : StageOutcome) : Prop where
  staged : outcome.staged = false
  snapshot : outcome.snapshot = {}
  error : outcome.error ≠ ""

/-- An unmapped plane is noticed before any file is started. -/
theorem stageMainSnapshot_unmapped {plane : PlaneView} (hmem : plane ∈ frame.main.planes)
    (hdata : plane.data = 0) :
    (stageMainSnapshot results strerror memory frame).Failed ∧
      (stageMainSnapshot results strerror memory frame).calls = [] := by
  have hany : frame.main.planes.any (fun plane => plane.data = 0) = true :=
    List.any_eq_true.mpr ⟨plane, hmem, by simpa using hdata⟩
  rw [stageMainSnapshot, if_pos hany]
  exact ⟨⟨rfl, rfl, (by decide : "main profile is not CPU mapped" ≠ "")⟩, rfl⟩

/-- So are planes that cannot be started. -/
theorem stageMainSnapshot_refused (hmapped : ∀ plane ∈ frame.main.planes, plane.data ≠ 0)
    (hrefused : Refused (some results) frame.main) :
    (stageMainSnapshot results strerror memory frame).Failed ∧
      (stageMainSnapshot results strerror memory frame).calls = [] := by
  have hany : ¬ frame.main.planes.any (fun plane => plane.data = 0) = true := by
    simpa using hmapped
  obtain ⟨hfds, hready, herror, hcalls⟩ := construct_refused hrefused strerror []
  rw [stageMainSnapshot, if_neg hany]
  simp only [hready, Bool.false_eq_true, not_false_eq_true, if_true,
    finish_calls_of_empty strerror hfds, hcalls]
  exact ⟨⟨rfl, rfl, herror⟩, trivial⟩

/-- Otherwise there is a session, which has been ended before the return, and the copy stands if
all its calls have succeeded. -/
theorem stageMainSnapshot_session (hmapped : ∀ plane ∈ frame.main.planes, plane.data ≠ 0)
    (hplanes : frame.main.planes ≠ []) (hfds : ∀ plane ∈ frame.main.planes, 0 ≤ plane.fd) :
    ∃ session : ReadSession (frame.main.planes.map PlaneView.fd),
      finalCalls (stageMainSnapshot results strerror memory frame).calls = session.calls ∧
      ((∀ call ∈ session.calls, call.result = 0) ∧ (copyCall memory frame.main).copied = true →
        (stageMainSnapshot results strerror memory frame).Staged frame
          (copyCall memory frame.main).destination) ∧
      (¬ ((∀ call ∈ session.calls, call.result = 0) ∧ (copyCall memory frame.main).copied = true) →
        (stageMainSnapshot results strerror memory frame).Failed) := by
  have hany : ¬ frame.main.planes.any (fun plane => plane.data = 0) = true := by
    simpa using hmapped
  obtain ⟨session, hsession⟩ := construct_session results hplanes hfds strerror
  have hcalls := hsession.calls
  have hrefused : (copyCall memory frame.main).copied = false →
      (copyCall memory frame.main).error ≠ "" := fun h => (copyCall_refused h).2.1
  have haccepted : (copyCall memory frame.main).copied = true →
      (copyCall memory frame.main).error = "" := error_of_copied
  refine ⟨session, ?_⟩
  rw [stageMainSnapshot, if_neg hany, session.succeeded_iff]
  generalize construct (some results) strerror frame.main [] = constructed at hsession hcalls ⊢
  by_cases hready : constructed.sync.ready = true
  · have hdestroyed := finish_calls_of_empty strerror
      (finish_synchronizedFds strerror constructed.sync constructed.calls)
    have herror := hsession.finish_error
    rw [hsession.ready.mp hready, ← hsession.success hready]
    simp only [hready, not_true, if_false, hdestroyed, true_and]
    generalize (finish strerror constructed.sync constructed.calls).1 = ended at hcalls herror ⊢
    generalize copyCall memory frame.main = copy at hrefused haccepted ⊢
    by_cases hgood : ended.success = true ∧ copy.copied = true
    · simp only [hgood, not_true, false_or, if_false]
      exact ⟨hcalls, fun _ => ⟨rfl, rfl, haccepted hgood.2⟩, fun h => absurd ⟨trivial, trivial⟩ h⟩
    · have hbad : ¬ copy.copied = true ∨ ¬ ended.success = true := by
        rw [not_and_or] at hgood
        exact hgood.symm
      simp only [hbad, if_true]
      refine ⟨hcalls, fun h => absurd h hgood, fun _ => ⟨rfl, rfl, ?_⟩⟩
      -- a refused copy has an error already, which an error of `END` does not replace
      split
      · rename_i hended
        exact herror (by simpa using hended.1)
      · rename_i hkept
        rcases Bool.eq_false_or_eq_true copy.copied with hcopied | hcopied
        · have hsuccess : ¬ ended.success = true := hbad.resolve_left (by simp [hcopied])
          exact fun hempty => hkept ⟨hsuccess, hempty⟩
        · exact hrefused hcopied
  · have hnot : ¬ session.failed = none := fun h => hready (hsession.ready.mpr h)
    simp only [hready, hnot, false_and, false_imp_iff, not_false_eq_true,
      true_imp_iff]
    exact ⟨hcalls, trivial, rfl, rfl, hsession.error (by simpa using hready)⟩

/-- Every plane is mapped and has a file, and there is one. -/
def Stageable (view : StreamView) : Prop :=
  view.planes ≠ [] ∧ ∀ plane ∈ view.planes, plane.data ≠ 0 ∧ 0 ≤ plane.fd

/-- The ways through `stageMainSnapshot`. -/
theorem stageMainSnapshot_cases :
    (¬ Stageable frame.main ∧ (stageMainSnapshot results strerror memory frame).Failed ∧
      (stageMainSnapshot results strerror memory frame).calls = []) ∨
    ∃ session : ReadSession (frame.main.planes.map PlaneView.fd), Stageable frame.main ∧
      finalCalls (stageMainSnapshot results strerror memory frame).calls = session.calls ∧
      (((∀ call ∈ session.calls, call.result = 0) ∧ (copyCall memory frame.main).copied = true ∧
        (stageMainSnapshot results strerror memory frame).Staged frame
          (copyCall memory frame.main).destination) ∨
      (¬ ((∀ call ∈ session.calls, call.result = 0) ∧ (copyCall memory frame.main).copied = true) ∧
        (stageMainSnapshot results strerror memory frame).Failed)) := by
  by_cases hmapped : ∀ plane ∈ frame.main.planes, plane.data ≠ 0
  · by_cases hstarted : frame.main.planes ≠ [] ∧ ∀ plane ∈ frame.main.planes, 0 ≤ plane.fd
    · obtain ⟨hplanes, hfds⟩ := hstarted
      obtain ⟨session, hcalls, hgood, hbad⟩ := stageMainSnapshot_session results strerror memory
        frame hmapped hplanes hfds
      refine .inr ⟨session, ⟨hplanes, fun plane hmem => ⟨hmapped plane hmem, hfds plane hmem⟩⟩,
        hcalls, ?_⟩
      by_cases h : (∀ call ∈ session.calls, call.result = 0) ∧
          (copyCall memory frame.main).copied = true
      · exact .inl ⟨h.1, h.2, hgood h⟩
      · exact .inr ⟨h, hbad h⟩
    · have hrefused : Refused (some results) frame.main := by
        rw [not_and_or, not_not] at hstarted
        rcases hstarted with hplanes | hfds
        · exact .inr (.inl hplanes)
        · push Not at hfds
          exact .inr (.inr hfds)
      refine .inl ⟨fun h => hstarted ⟨h.1, fun plane hmem => (h.2 plane hmem).2⟩, ?_⟩
      exact stageMainSnapshot_refused results strerror memory frame hmapped hrefused
  · push Not at hmapped
    obtain ⟨plane, hmem, hdata⟩ := hmapped
    refine .inl ⟨fun h => (h.2 plane hmem).1 hdata, ?_⟩
    exact stageMainSnapshot_unmapped results strerror memory frame hmem hdata

/-- The event that is opened with the result has the snapshot that was staged, or the error. -/
theorem event_of_staged {call : TriggerCall}
    (h : call.staged = (stageMainSnapshot results strerror memory frame).result)
    (config : EventConfig) (lease : FrameLease) (selection : EncodedRingSelection) :
    (call.event config lease selection).snapshot =
        (stageMainSnapshot results strerror memory frame).snapshot ∧
      ((call.event config lease selection).errors = [] ↔
        (stageMainSnapshot results strerror memory frame).staged = true) := by
  have hcases : (stageMainSnapshot results strerror memory frame).staged = true ∨
      (stageMainSnapshot results strerror memory frame).Failed := by
    rcases stageMainSnapshot_cases results strerror memory frame with
      ⟨-, hfailed, -⟩ | ⟨-, -, -, ⟨-, -, hstaged⟩ | ⟨-, hfailed⟩⟩
    · exact .inr hfailed
    · exact .inl hstaged.staged
    · exact .inr hfailed
  rw [TriggerCall.event, h, StageOutcome.result]
  rcases hcases with hstaged | hfailed
  · rw [hstaged]
    exact ⟨rfl, iff_of_true rfl rfl⟩
  · rw [hfailed.staged, hfailed.snapshot]
    exact ⟨rfl, iff_of_false (List.cons_ne_nil _ _) Bool.false_ne_true⟩

end

end EggVision
