import EggVision.Inference.Worker
import EggVision.Soak.FinalLine

/-!
# What the last line says of the inference

The soak test wants every image to reach the model without a copy. It looks at five counters, which
are those of the thread of the inference: they are read after that thread has been joined, and
nothing else writes them. Together they leave no frame out.

## Main definitions

* `SameCounters` — the counters on the line are those of the thread

## Main results

* `soak_zeroCopy` — what an accepted line means for every frame that the thread has taken
-/

namespace EggVision

open Inference JsonString JsonText

variable {β δ : Type}

/-- The counters of the inference that the line has. -/
structure SameCounters (metrics metrics' : Metrics) : Prop where
  processed : metrics.inferenceProcessed = metrics'.inferenceProcessed
  zeroCopy : metrics.inferenceZeroCopyIngress = metrics'.inferenceZeroCopyIngress
  fallback : metrics.inferenceCopyFallback = metrics'.inferenceCopyFallback
  preprocess : metrics.inferencePreprocessErrors = metrics'.inferencePreprocessErrors

/-- The frame was read in place, and the model was run on the picture of its samples. -/
def ReadInPlace (p : Pass β δ) : Prop :=
  p.status = .compatible ∧ ∃ bgr found,
    p.cvtColor ((sampleAddresses p.lores).map p.memory) (inputMat p.lores 0).rows
      (inputMat p.lores 0).cols = some bgr ∧
    p.infer bgr = .detections found

/-- A tally does not wrap. -/
theorem tally_inj {passes : List (Pass β δ)} {test test' : Pass β δ → Bool}
    (hlength : passes.length < 2 ^ 64) (h : tally test passes = tally test' passes) :
    passes.countP test = passes.countP test' := by
  have hle := List.countP_le_length (p := test) (l := passes)
  have hle' := List.countP_le_length (p := test') (l := passes)
  have hvalue := congrArg UInt64.toNat h
  have hsize : UInt64.size = 2 ^ 64 := rfl
  rwa [tally, tally, UInt64.toNat_ofNat_of_lt' (by omega), UInt64.toNat_ofNat_of_lt' (by omega)]
    at hvalue

theorem none_of_tally {passes : List (Pass β δ)} {test : Pass β δ → Bool}
    (hlength : passes.length < 2 ^ 64) (h : tally test passes = 0) :
    ∀ p ∈ passes, test p = false := by
  have hzero : tally (fun _ => false) passes = 0 := by simp [tally]
  have hcount := tally_inj hlength (h.trans hzero.symm)
  intro p hp
  simpa using List.countP_eq_zero.mp (hcount.trans (by simp)) p hp

/-- A frame without an error of the kinds that are counted is read in place. -/
theorem enters_of_clean {p : Pass β δ} (hfallback : p.fallsBack = false)
    (hpreprocess : (p.syncFails || p.copyFails) = false) :
    p.enters = true ∧ p.status = .compatible := by
  have henters : p.enters = true := by
    cases hend : p.ingress.ending with
    | startFailed =>
      rw [Pass.syncFails, Pass.ending, hend] at hpreprocess
      cases hpreprocess
    | _ => rw [Pass.enters, hend]
  rw [Pass.fallsBack, henters, Bool.true_and] at hfallback
  exact ⟨henters, by simpa using hfallback⟩

theorem readInPlace_of_found {p : Pass β δ} (hstatus : p.status = .compatible)
    (hfound : p.found.isSome = true) : ReadInPlace p := by
  refine ⟨hstatus, ?_⟩
  cases hend : p.ingress.ending with
  | converted bgr =>
    cases hinfer : p.infer bgr with
    | detections found => exact ⟨bgr, found, samples_of_converted hend, hinfer⟩
    | _ =>
      simp only [Pass.found, Pass.ending, hend, hinfer] at hfound
      cases hfound
  | _ =>
    rw [Pass.found, Pass.ending, hend] at hfound
    cases hfound

/-- **Every frame has been read in place.** If the soak test accepts the log, the thread has taken
frames, and the model has been run on the samples of each of them, which were never copied. -/
theorem soak_zeroCopy {consumer : Bool} {passes : List (Pass β δ)} {metrics : Metrics}
    {before after : List Bytes} (hlength : passes.length < 2 ^ 64)
    (hsame : SameCounters metrics (workerRun consumer passes).metrics)
    (hafter : ∀ line ∈ after, ¬ ascii "[app] stopped " <:+: line)
    (haccepted : finalLineAccepted (before ++ finalLine metrics :: after) = true) :
    passes ≠ [] ∧ ∀ p ∈ passes, ReadInPlace p := by
  rw [finalLineAccepted_eq metrics before hafter, lineAccepted_iff] at haccepted
  obtain ⟨hzeros, hpositive, -, hequal⟩ := haccepted
  obtain ⟨hprocessed, hzeroCopy, hfallback, hpreprocess, -⟩ := workerRun_tallies consumer passes
  have hnoFallback : ∀ p ∈ passes, p.fallsBack = false := by
    refine none_of_tally hlength ?_
    rw [← hfallback, ← hsame.fallback]
    have hzero : "inference_copy_fallback" ∈ zeroFields := by decide
    exact hzeros ("inference_copy_fallback", _) (by simp [finalFields]) hzero
  have hnoErrors : ∀ p ∈ passes, (p.syncFails || p.copyFails) = false := by
    refine none_of_tally hlength ?_
    rw [← hpreprocess, ← hsame.preprocess]
    have hzero : "inference_preprocess_errors" ∈ zeroFields := by decide
    exact hzeros ("inference_preprocess_errors", _) (by simp [finalFields]) hzero
  have henters : ∀ p ∈ passes, p.enters = true ∧ p.status = .compatible := by
    intro p hp
    exact enters_of_clean (hnoFallback p hp) (hnoErrors p hp)
  -- as many images were processed as were read in place, and all were
  have hall : passes.countP (fun p => p.enters && decide (p.status = .compatible)) =
      passes.length := by
    rw [List.countP_eq_length]
    intro p hp
    simp [henters p hp]
  have hcount : passes.countP (fun p => p.found.isSome) = passes.length := by
    rw [← hall]
    refine tally_inj hlength ?_
    rw [← hprocessed, ← hzeroCopy, ← hsame.processed, ← hsame.zeroCopy, hequal]
  constructor
  · rintro rfl
    rw [hsame.processed, hprocessed] at hpositive
    exact absurd hpositive (by simp [tally])
  · intro p hp
    exact readInPlace_of_found (henters p hp).2 (List.countP_eq_length.mp hcount p hp)

/-- Every call of the sync operation succeeds. -/
def succeedingSync : SyncResults := ⟨fun _ => 0, fun n => ⟨n, le_refl n, rfl⟩⟩

/-- A compact image in which nothing is found. -/
def compactPass : Pass Unit Unit where
  sequence := 1
  lores := compactView
  results := succeedingSync
  strerror := fun _ => ""
  memory := fun address => address.toUInt8
  cvtColor := fun _ _ _ => some ()
  infer := fun _ => .detections []
  consumerThrows := false
  inputUs := 900
  totalUs := 41000

theorem compactPass_ending : compactPass.ingress.ending = .converted () := by
  have hcompact : inspectCompactI420 compactView = ⟨.compatible, 4096, 24⟩ := by decide
  have hsync (fd : ℤ) (phase : SyncPhase) (calls : List SyncCall) :
      synchronize succeedingSync fd phase calls = (0, calls ++ [⟨fd, phase, 0⟩]) := by
    rw [synchronize]
    rfl
  have hfds : DmaBufReadSync.uniqueFds compactView.planes [] = some [17] := by decide
  simp [Pass.ingress, ingress, compactPass, DmaBufReadSync.construct, hfds, hcompact,
    DmaBufReadSync.startLoop, hsync, DmaBufReadSync.opened, DmaBufReadSync.finish, endLoop]

/-- One image that was read in place, and a line that says so. -/
theorem soak_zeroCopy_compactPass : ReadInPlace compactPass := by
  have hending : compactPass.ending = .processed [] := by
    rw [Pass.ending, compactPass_ending]
    rfl
  have henters : compactPass.enters = true := by rw [Pass.enters, compactPass_ending]
  have hstatus : compactPass.status = .compatible := by decide
  have hsame : SameCounters { inferenceProcessed := 1, inferenceZeroCopyIngress := 1 }
      (workerRun true [compactPass]).metrics := by
    obtain ⟨hprocessed, hzeroCopy, hfallback, hpreprocess, -⟩ :=
      workerRun_tallies true [compactPass]
    constructor
    · rw [hprocessed]
      simp [tally, Pass.found, hending]
    · rw [hzeroCopy]
      simp [tally, henters, hstatus]
    · rw [hfallback]
      simp [tally, Pass.fallsBack, hstatus]
    · rw [hpreprocess]
      simp [tally, Pass.syncFails, Pass.copyFails, hending]
  have haccepted : finalLineAccepted ([] ++ finalLine
      { inferenceProcessed := 1, inferenceZeroCopyIngress := 1 } :: []) = true := by
    rw [finalLineAccepted_eq _ _ (by simp), lineAccepted_iff]
    decide
  exact (soak_zeroCopy (by decide) hsame (by simp) haccepted).2 compactPass (by simp)

end EggVision
