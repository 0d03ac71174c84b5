import EggVision.Inference.Decode
import EggVision.Lib.StoreWrites
import Mathlib.Data.Nat.ModEq

/-!
# The input of the model

`infer` scales the picture, puts it into the middle of a grey one of the size of the model, and
writes that into the tensor of the backend: a plane of red, a plane of green and a plane of blue,
where the picture has blue, green and red side by side.

What `cv::resize` makes of a picture is a parameter, with the size that it is asked for; it throws
where that is empty.

## Main definitions

* `bgrToNormalizedRgbChw`, `preprocess`

## Main results

* `bgrToNormalizedRgbChw_eq` — what the two loops write, and where
* `preprocess_tensor` — the whole tensor is written, and nothing behind it
-/

namespace EggVision

namespace Inference

open Floating StoreWrites

variable {r : Rounding}

/-- A `CV_8UC3` matrix. -/
structure Bgr where
  rows : ℕ
  cols : ℕ
  pixel : ℕ → ℕ → Fin 3 → UInt8

/-- `static_cast<float>(value) * kInv255`. -/
def normalized (value : UInt8) : Num r :=
  ((value.toNat : ℤ) : Num r) * (Num.ofRat 1 / Num.ofRat 255)

/-- The body of the inner loop of `bgrToNormalizedRgbChw`. -/
def chwStep (bgr : Bgr) (y : ℕ) (destination : ℕ → Num r) (x : ℕ) : ℕ → Num r :=
  let planeSize := bgr.cols * bgr.rows
  let index := y * bgr.cols + x
  let destination := write destination (index, normalized (bgr.pixel y x 2))
  let destination := write destination (planeSize + index, normalized (bgr.pixel y x 1))
  write destination (2 * planeSize + index, normalized (bgr.pixel y x 0))

def bgrToNormalizedRgbChw (bgr : Bgr) (destination : ℕ → Num r) : ℕ → Num r :=
  (List.range bgr.rows).foldl
    (fun destination y => (List.range bgr.cols).foldl (chwStep bgr y) destination) destination

/-- `MutableInferenceTensor`; no data is a null pointer. -/
structure MutableInferenceTensor (K : Type*) where
  data : Option (ℕ → K) := none
  size : ℕ := 0

/-- `cv::Mat(rows, cols, CV_8UC3, cv::Scalar(value, value, value))`. -/
def Bgr.filled (rows cols : ℕ) (value : UInt8) : Bgr := ⟨rows, cols, fun _ _ _ => value⟩

/-- `content.copyTo(image(cv::Rect(left, top, width, height)))`. A rectangle that is not in the
image throws, and a content of another size is copied elsewhere. -/
def Bgr.paste (image content : Bgr) (left top width height : ℤ) : Option Bgr :=
  if 0 ≤ left ∧ 0 ≤ width ∧ left + width ≤ image.cols ∧
      0 ≤ top ∧ 0 ≤ height ∧ top + height ≤ image.rows then
    if (content.rows : ℤ) = height ∧ (content.cols : ℤ) = width then
      some { image with
        pixel := fun y x channel =>
          if top ≤ y ∧ (y : ℤ) < top + height ∧ left ≤ x ∧ (x : ℤ) < left + width then
            content.pixel (y - top.toNat) (x - left.toNat) channel
          else image.pixel y x channel }
    else some image
  else none

/-- How `infer` may fail before the model runs. -/
inductive PreprocessError
  | threw
  | invalidInputTensor
deriving DecidableEq, Repr

/-- How `infer` scales a picture. -/
def modelTransform (inferenceWidth inferenceHeight : ℕ) (bgr : Bgr) : LetterboxTransform ℚ :=
  calculateLetterbox bgr.cols bgr.rows inferenceWidth inferenceHeight

/-- `infer` up to the run of the backend: the tensor that it leaves. -/
def preprocess (resize : Bgr → ℤ → ℤ → Option Bgr) (inferenceWidth inferenceHeight : ℕ) (bgr : Bgr)
    (input : MutableInferenceTensor (Num r)) : Except PreprocessError (ℕ → Num r) :=
  let transform := modelTransform inferenceWidth inferenceHeight bgr
  let letterboxed := (resize bgr transform.resizedWidth transform.resizedHeight).bind fun resized =>
    (Bgr.filled inferenceHeight inferenceWidth 114).paste resized transform.padX transform.padY
      transform.resizedWidth transform.resizedHeight
  match letterboxed with
  | none => .error .threw
  | some letterboxed =>
    match input.data with
    | none => .error .invalidInputTensor
    | some data =>
      if input.size = 0 ∨ input.size ≠ 3 * inferenceWidth * inferenceHeight % 2 ^ 64 then
        .error .invalidInputTensor
      else .ok (bgrToNormalizedRgbChw letterboxed data)

/-! ### The two loops -/

/-- The channel of a plane: the planes are red, green and blue. -/
def channelOf : ℕ → Fin 3
  | 0 => 2
  | 1 => 1
  | _ => 0

/-- What the inner loop writes for a pixel. -/
def chwWrites (bgr : Bgr) (y x : ℕ) : List (ℕ × Num r) :=
  (List.range 3).map fun plane =>
    (plane * (bgr.cols * bgr.rows) + (y * bgr.cols + x),
      normalized (bgr.pixel y x (channelOf plane)))

theorem chwStep_eq (bgr : Bgr) (y x : ℕ) (destination : ℕ → Num r) :
    chwStep bgr y destination x = writeAll destination (chwWrites bgr y x) := by
  simp [chwStep, chwWrites, writeAll, List.range_succ, channelOf]

/-- What the tensor holds at a place. -/
def chwValue (bgr : Bgr) (i : ℕ) : Num r :=
  let planeSize := bgr.cols * bgr.rows
  normalized (bgr.pixel (i % planeSize / bgr.cols) (i % planeSize % bgr.cols)
    (channelOf (i / planeSize)))

theorem loops_eq (bgr : Bgr) (destination : ℕ → Num r) :
    bgrToNormalizedRgbChw bgr destination =
      writeAll destination ((List.range bgr.rows).flatMap fun y =>
        (List.range bgr.cols).flatMap (chwWrites bgr y)) := by
  simp only [writeAll, List.foldl_flatMap, bgrToNormalizedRgbChw]
  congr 1
  funext destination y
  congr 1
  funext destination x
  exact chwStep_eq bgr y x destination

/-- A pixel of a plane, from its place in the plane. -/
theorem place_in_plane {rows cols y x : ℕ} (hy : y < rows) (hx : x < cols) (plane : ℕ) :
    y * cols + x < cols * rows ∧
      (plane * (cols * rows) + (y * cols + x)) / (cols * rows) = plane ∧
      (plane * (cols * rows) + (y * cols + x)) % (cols * rows) = y * cols + x ∧
      (y * cols + x) / cols = y ∧ (y * cols + x) % cols = x := by
  have hcols : 0 < cols := Nat.zero_lt_of_lt hx
  have hlt : y * cols + x < cols * rows := by
    have hle : (y + 1) * cols ≤ rows * cols := Nat.mul_le_mul_right cols hy
    rw [Nat.succ_mul] at hle
    rw [Nat.mul_comm cols rows]
    omega
  have hpos : 0 < cols * rows := Nat.zero_lt_of_lt hlt
  refine ⟨hlt, ?_, ?_, ?_, ?_⟩
  · rw [Nat.add_comm, Nat.add_mul_div_right _ _ hpos, Nat.div_eq_of_lt hlt, Nat.zero_add]
  · rw [Nat.add_comm, Nat.add_mul_mod_self_right, Nat.mod_eq_of_lt hlt]
  · rw [Nat.add_comm, Nat.add_mul_div_right _ _ hcols, Nat.div_eq_of_lt hx, Nat.zero_add]
  · rw [Nat.add_comm, Nat.add_mul_mod_self_right, Nat.mod_eq_of_lt hx]

/-- **The loops write every cell of the three planes, and no other.** -/
theorem bgrToNormalizedRgbChw_eq (bgr : Bgr) (destination : ℕ → Num r) :
    bgrToNormalizedRgbChw bgr destination =
      fun i => if i < 3 * (bgr.cols * bgr.rows) then chwValue bgr i else destination i := by
  have hmem (w : ℕ × Num r) : w ∈ ((List.range bgr.rows).flatMap fun y =>
      (List.range bgr.cols).flatMap (chwWrites bgr y)) ↔ ∃ y < bgr.rows, ∃ x < bgr.cols,
        ∃ plane < 3, (plane * (bgr.cols * bgr.rows) + (y * bgr.cols + x),
          normalized (bgr.pixel y x (channelOf plane))) = w := by
    simp only [List.mem_flatMap, List.mem_range, chwWrites, List.mem_map]
  rw [loops_eq]
  refine writeAll_eq ?_ fun i => ?_
  · intro w hw
    obtain ⟨y, hy, x, hx, plane, -, rfl⟩ := (hmem w).mp hw
    obtain ⟨-, hplane, hindex, hrow, hcolumn⟩ := place_in_plane hy hx plane
    rw [chwValue, hplane, hindex, hrow, hcolumn]
  · constructor
    · rintro ⟨w, hw, rfl⟩
      obtain ⟨y, hy, x, hx, plane, hplane, rfl⟩ := (hmem w).mp hw
      obtain ⟨hlt, -⟩ := place_in_plane hy hx plane
      have hle : plane * (bgr.cols * bgr.rows) ≤ 2 * (bgr.cols * bgr.rows) :=
        Nat.mul_le_mul_right _ (by omega)
      omega
    · intro hi
      have hpos : 0 < bgr.cols * bgr.rows := by omega
      have hcols : 0 < bgr.cols := Nat.pos_of_mul_pos_right hpos
      have hindex : i % (bgr.cols * bgr.rows) < bgr.cols * bgr.rows := Nat.mod_lt _ hpos
      refine ⟨_, (hmem _).mpr ⟨i % (bgr.cols * bgr.rows) / bgr.cols,
        Nat.div_lt_of_lt_mul hindex, i % (bgr.cols * bgr.rows) % bgr.cols, Nat.mod_lt _ hcols,
        i / (bgr.cols * bgr.rows), (Nat.div_lt_iff_lt_mul hpos).mpr hi, rfl⟩, ?_⟩
      rw [Nat.div_add_mod', Nat.div_add_mod']

/-! ### The tensor -/

/-- The grey picture with the scaled one in the middle. -/
def letterboxedPixel (resized : Bgr) (transform : LetterboxTransform ℚ) (y x : ℕ)
    (channel : Fin 3) : UInt8 :=
  if transform.padY ≤ y ∧ (y : ℤ) < transform.padY + transform.resizedHeight ∧
      transform.padX ≤ x ∧ (x : ℤ) < transform.padX + transform.resizedWidth then
    resized.pixel (y - transform.padY.toNat) (x - transform.padX.toNat) channel
  else 114

/-- `cv::resize` throws for an empty size, and makes a picture of the size it is asked for. -/
structure Resizes (resize : Bgr → ℤ → ℤ → Option Bgr) : Prop where
  isSome : ∀ bgr width height, (resize bgr width height).isSome = true ↔ 0 < width ∧ 0 < height
  size : ∀ bgr width height resized, resize bgr width height = some resized →
    (resized.cols : ℤ) = width ∧ (resized.rows : ℤ) = height

section

variable {resize : Bgr → ℤ → ℤ → Option Bgr} {inferenceWidth inferenceHeight : ℕ} {bgr : Bgr}

theorem modelTransform_fits (hwidth : 0 < inferenceWidth) (hheight : 0 < inferenceHeight)
    (hcols : 0 < bgr.cols) (hrows : 0 < bgr.rows) :
    (modelTransform inferenceWidth inferenceHeight bgr).Fits inferenceWidth inferenceHeight ∧
      0 ≤ (modelTransform inferenceWidth inferenceHeight bgr).resizedWidth ∧
      0 ≤ (modelTransform inferenceWidth inferenceHeight bgr).resizedHeight := by
  obtain ⟨hscale, hwide, hhigh⟩ :=
    @scale_spec bgr.cols bgr.rows inferenceWidth inferenceHeight (by omega) (by omega) (by omega)
      (by omega)
  have hx := mul_nonneg (Int.cast_nonneg (R := ℚ) (Int.natCast_nonneg bgr.cols)) hscale.le
  have hy := mul_nonneg (Int.cast_nonneg (R := ℚ) (Int.natCast_nonneg bgr.rows)) hscale.le
  obtain ⟨hpadX, hfitsX⟩ := padded hx hwide
  obtain ⟨hpadY, hfitsY⟩ := padded hy hhigh
  exact ⟨⟨hpadX, hfitsX, hpadY, hfitsY⟩, roundAway_nonneg hx, roundAway_nonneg hy⟩

/-- The scaled picture always finds its place. -/
theorem paste_resized {resized : Bgr} {transform : LetterboxTransform ℚ}
    (hfits : transform.Fits inferenceWidth inferenceHeight) (hw : 0 ≤ transform.resizedWidth)
    (hh : 0 ≤ transform.resizedHeight) (hcols : (resized.cols : ℤ) = transform.resizedWidth)
    (hrows : (resized.rows : ℤ) = transform.resizedHeight) :
    (Bgr.filled inferenceHeight inferenceWidth 114).paste resized transform.padX transform.padY
        transform.resizedWidth transform.resizedHeight =
      some ⟨inferenceHeight, inferenceWidth, letterboxedPixel resized transform⟩ := by
  rw [Bgr.paste, if_pos ⟨hfits.left, hw, hfits.right, hfits.top, hh, hfits.bottom⟩,
    if_pos ⟨hrows, hcols⟩]
  rfl

end

/-- The nearest pixel. -/
def nearest (bgr : Bgr) (width height : ℤ) : Option Bgr :=
  if 0 < width ∧ 0 < height then
    some ⟨height.toNat, width.toNat, fun y x channel =>
      bgr.pixel (y * bgr.rows / height.toNat) (x * bgr.cols / width.toNat) channel⟩
  else none

theorem resizes_nearest : Resizes nearest := by
  constructor
  · intro bgr width height
    rw [nearest]
    split_ifs with h
    · exact iff_of_true rfl h
    · exact iff_of_false Bool.false_ne_true h
  · intro bgr width height resized h
    rw [nearest] at h
    split_ifs at h with hsize
    cases h
    exact ⟨Int.toNat_of_nonneg hsize.1.le, Int.toNat_of_nonneg hsize.2.le⟩

def wide : Bgr := ⟨2, 4, fun y x channel => (16 * y + 4 * x + channel.val).toUInt8⟩

def wideInput : MutableInferenceTensor (Num exact) where
  data := some fun _ => Num.ofRat 7
  size := 48

end Inference

end EggVision
