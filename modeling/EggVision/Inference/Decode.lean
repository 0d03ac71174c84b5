import EggVision.Inference.Letterbox
import EggVision.Inference.Suppression
import EggVision.Lib.Floating

/-!
# From the output of the model to detections

`infer` drops a row whose confidence is below the threshold, and takes the box of any other row back
to the image; a box that has a size there is a detection. The test for the confidence asks whether
it is below. A confidence that is not a number is not below anything, so whether such a row becomes
a detection is up to its box, and with it in the list the comparison of `nonMaximumSuppression` does
not order anything any more.

## Main definitions

* `InferenceTensor`, `inferDetections` — the part of `infer` between the model and the suppression

## Main results

* `confident_iff` — when all detections are confident, and can be sorted
-/

namespace EggVision

namespace Inference

open Floating

variable {r : Rounding}

/-- `InferenceTensor`; no data is a null pointer. -/
structure InferenceTensor (K : Type*) where
  data : Option (ℕ → K) := none
  rows : ℕ := 0
  fields : ℕ := 0

namespace InferenceTensor

variable {K : Type*}

/-- The conversion of a tensor to `bool`. -/
def present (output : InferenceTensor K) : Bool :=
  output.data.isSome && decide (output.rows ≠ 0) && decide (output.fields ≠ 0)

end InferenceTensor

/-- The box of a row, from the middle and the size that the model gives, back in the image. -/
def restoredBox (transform : LetterboxTransform (Num r)) (sourceWidth sourceHeight : ℤ)
    (row : ℕ → Num r) : Rect (Num r) :=
  let modelBox : Rect (Num r) :=
    { x := row 0 - row 2 / Num.ofRat 2
      y := row 1 - row 3 / Num.ofRat 2
      width := row 2
      height := row 3 }
  restoreLetterboxBox modelBox transform sourceWidth sourceHeight

/-- The body of the loop over the rows. COCO class 0 is a person. -/
def decodeRow (threshold : Num r) (transform : LetterboxTransform (Num r))
    (sourceWidth sourceHeight : ℤ) (row : ℕ → Num r) : Option (Detection (Num r) (Rect (Num r))) :=
  let confidence := row 4 * row 5
  if confidence < threshold then none
  else
    let restored := restoredBox transform sourceWidth sourceHeight row
    if 0 < restored.width ∧ 0 < restored.height then some { confidence, box := restored } else none

/-- `infer` from the output of the backend to the call of `nonMaximumSuppression`. -/
def inferDetections (threshold : Num r) (transform : LetterboxTransform (Num r))
    (sourceWidth sourceHeight : ℤ) (output : InferenceTensor (Num r)) :
    Except String (List (Detection (Num r) (Rect (Num r)))) :=
  match output.data with
  | none => .error "inference backend returned an invalid output tensor"
  | some data =>
    if !output.present || decide (output.fields < 6) then
      .error "inference backend returned an invalid output tensor"
    else
      .ok ((List.range output.rows).filterMap fun i =>
        decodeRow threshold transform sourceWidth sourceHeight fun k =>
          data (i * output.fields + k))

/-! ### The filter -/

variable {threshold : Num r} {transform : LetterboxTransform (Num r)}
  {sourceWidth sourceHeight : ℤ} {row : ℕ → Num r}

/-- The two scores of a row have no product. -/
def Unscored (row : ℕ → Num r) : Prop := Value.NoProduct (row 4) (row 5)

instance (row : ℕ → Num r) : Decidable (Unscored row) :=
  (inferInstance : ∀ x y : Value, Decidable (x.NoProduct y)) (row 4) (row 5)

/-- The box of a row has a size in the image. -/
def Visible (transform : LetterboxTransform (Num r)) (sourceWidth sourceHeight : ℤ)
    (row : ℕ → Num r) : Prop :=
  0 < (restoredBox transform sourceWidth sourceHeight row).width ∧
    0 < (restoredBox transform sourceWidth sourceHeight row).height

theorem decodeRow_eq_some_iff {d : Detection (Num r) (Rect (Num r))} :
    decodeRow threshold transform sourceWidth sourceHeight row = some d ↔
      ¬ row 4 * row 5 < threshold ∧ Visible transform sourceWidth sourceHeight row ∧
        d = { confidence := row 4 * row 5
              box := restoredBox transform sourceWidth sourceHeight row } := by
  simp only [decodeRow, Visible]
  split
  next hlow => simp [hlow]
  next hlow =>
    split
    next hvisible => simp [hlow, hvisible, eq_comm]
    next hvisible => simp [hvisible]

/-- A score is confident unless it is not a number. -/
theorem confident_or_unscored (hthreshold : threshold ≠ Value.nan)
    (hlow : ¬ row 4 * row 5 < threshold) :
    threshold ≤ row 4 * row 5 ↔ ¬ Unscored row := by
  have hscore : row 4 * row 5 = Value.nan ↔ Unscored row := r.mul_eq_nan_iff
  rw [← hscore]
  refine ⟨fun hle hnan => ?_, fun hnumber => ?_⟩
  · rw [hnan] at hle
    exact Value.not_le_nan _ hle
  · exact (Value.le_iff_not_lt hthreshold hnumber).mpr hlow

/-- **All detections that `infer` passes on are confident, and can be sorted, if and only if no row
without a score has a box that is visible in the image.** -/
theorem confident_iff {data : ℕ → Num r} {output : InferenceTensor (Num r)}
    {detections : List (Detection (Num r) (Rect (Num r)))} (hthreshold : threshold ≠ Value.nan)
    (hdata : output.data = some data)
    (h : inferDetections threshold transform sourceWidth sourceHeight output = .ok detections) :
    ((∀ d ∈ detections, threshold ≤ d.confidence) ∧ StrictWeakOn Detection.Before detections) ↔
      ∀ i < output.rows, Unscored (fun k => data (i * output.fields + k)) →
        ¬ Visible transform sourceWidth sourceHeight fun k => data (i * output.fields + k) := by
  simp only [inferDetections, hdata] at h
  split at h
  · cases h
  rw [Except.ok.injEq] at h
  have hmem : ∀ d, d ∈ detections ↔ ∃ i < output.rows,
      decodeRow threshold transform sourceWidth sourceHeight
        (fun k => data (i * output.fields + k)) = some d := fun d => by
    rw [← h, List.mem_filterMap]
    simp
  constructor
  · rintro ⟨hconfident, -⟩ i hi hunscored hvisible
    have hlow : ¬ data (i * output.fields + 4) * data (i * output.fields + 5) < threshold := by
      rw [show data (i * output.fields + 4) * data (i * output.fields + 5) = Value.nan from
        r.mul_eq_nan_iff.mpr hunscored]
      exact Value.not_nan_lt _
    have hd := hconfident _ ((hmem _).mpr ⟨i, hi, decodeRow_eq_some_iff.mpr ⟨hlow, hvisible, rfl⟩⟩)
    exact (confident_or_unscored hthreshold hlow).mp hd hunscored
  · intro hrows
    have hconfident : ∀ d ∈ detections, threshold ≤ d.confidence := by
      intro d hd
      obtain ⟨i, hi, hdecoded⟩ := (hmem d).mp hd
      obtain ⟨hlow, hvisible, rfl⟩ := decodeRow_eq_some_iff.mp hdecoded
      exact (confident_or_unscored hthreshold hlow).mpr fun hunscored =>
        hrows i hi hunscored hvisible
    refine ⟨hconfident, strictWeakOn_of_ne_nan fun d hd hnan => ?_⟩
    have hle := hconfident d hd
    rw [hnan] at hle
    exact Value.not_le_nan _ hle

/-- Rows whose boxes lie side by side in the middle of the input, with the given scores. -/
def sideBySide (scores : List Value) : InferenceTensor (Num exact) :=
  { data := some fun k =>
      ((scores.zipIdx.flatMap fun (score, i) => [Value.finite (40 * i + 20), Value.finite 160,
        Value.finite 20, Value.finite 20, score, Value.finite 1])[k]?).getD Value.nan
    rows := scores.length
    fields := 6 }

/-- The letterbox of a camera image. -/
def cameraLetterbox : LetterboxTransform (Num exact) :=
  { scale := Num.ofRat (1 / 2), resizedWidth := 320, resizedHeight := 240, padX := 0, padY := 40 }

/-- The detection that the row of the given place and score becomes. -/
def inTheMiddle (i : ℕ) (score : Value) : Detection (Num exact) (Rect (Num exact)) :=
  { confidence := score
    box := ⟨Value.finite (80 * i + 20), Value.finite 220, Value.finite 40, Value.finite 40⟩ }

/-- Two confident persons. -/
theorem confident_iff_two :
    ∃ detections, inferDetections (Num.ofRat (1 / 4)) cameraLetterbox 640 480
        (sideBySide [.finite (9 / 10), .finite (1 / 2)]) = .ok detections ∧
      detections.length = 2 ∧ (∀ d ∈ detections, Num.ofRat (1 / 4) ≤ d.confidence) ∧
      StrictWeakOn Detection.Before detections := by
  have hok : inferDetections (Num.ofRat (1 / 4)) cameraLetterbox 640 480
      (sideBySide [.finite (9 / 10), .finite (1 / 2)]) =
        .ok [inTheMiddle 0 (.finite (9 / 10)), inTheMiddle 1 (.finite (1 / 2))] :=
    congrArg Except.ok (by decide +kernel)
  refine ⟨_, hok, rfl, (confident_iff (by rintro ⟨⟩) rfl hok).mpr fun i hi hunscored => ?_⟩
  have hscored : ∀ i < 2, ¬ Unscored fun k =>
      (sideBySide [.finite (9 / 10), .finite (1 / 2)]).data.get rfl (i * 6 + k) := by
    decide +kernel
  exact absurd hunscored (hscored i hi)

/-- A score that is not a number gets past the filter, and what is sorted cannot be. -/
theorem unconfident :
    ∃ detections, inferDetections (Num.ofRat (1 / 4)) cameraLetterbox 640 480
        (sideBySide [.finite (9 / 10), .nan, .finite (1 / 2)]) = .ok detections ∧
      ¬ (∀ d ∈ detections, Num.ofRat (1 / 4) ≤ d.confidence) ∧
      ¬ StrictWeakOn Detection.Before detections := by
  have hok : inferDetections (Num.ofRat (1 / 4)) cameraLetterbox 640 480
      (sideBySide [.finite (9 / 10), .nan, .finite (1 / 2)]) =
        .ok [inTheMiddle 0 (.finite (9 / 10)), inTheMiddle 1 .nan,
          inTheMiddle 2 (.finite (1 / 2))] :=
    congrArg Except.ok (by decide +kernel)
  refine ⟨_, hok, fun hall => ?_, fun hweak => ?_⟩
  · exact Value.not_le_nan _ (hall (inTheMiddle 1 .nan) (by simp))
  · -- neither of the two numbers can be told from NaN, but they can be told from each other
    refine (hweak.incomparable (inTheMiddle 0 (.finite (9 / 10))) (by simp)
      (inTheMiddle 1 .nan) (by simp) (inTheMiddle 2 (.finite (1 / 2))) (by simp)
      (Value.not_nan_lt _) (Value.not_lt_nan _) (Value.not_lt_nan _) (Value.not_nan_lt _)).1 ?_
    exact Value.finite_lt_finite.mpr (by norm_num)

end Inference

end EggVision
