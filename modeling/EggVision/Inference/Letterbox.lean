import Mathlib.Data.Rat.Floor
import Mathlib.Tactic.Linarith
import Mathlib.Tactic.Ring

/-!
# The letterbox, and back

`calculateLetterbox` says how the image is scaled into the input of the model and where it is put
there; `restoreLetterboxBox` takes a box that the model has found back to the image. Scale and boxes
are rationals here where the source has `float`. `restoreLetterboxBox` is written for any numbers
that can be compared, since what it does with a number that cannot is of interest too.

## Main definitions

* `calculateLetterbox`, `restoreLetterboxBox`
* `LetterboxTransform.place` — where a box of the image is in the input of the model

## Main results

* `letterbox_inverse` — the image is placed inside the input, boxes of the image come back as they
  were, and whatever comes back lies inside the image
-/

namespace EggVision

namespace Inference

/-- `cv::Rect2f`. -/
structure Rect (K : Type*) where
  x : K
  y : K
  width : K
  height : K
deriving DecidableEq, Repr

/-- `LetterboxTransform`. -/
structure LetterboxTransform (K : Type*) where
  scale : K
  resizedWidth : ℤ
  resizedHeight : ℤ
  padX : ℤ
  padY : ℤ
deriving DecidableEq, Repr

/-- `std::round`: to the nearest integer, halves away from zero. -/
def roundAway (q : ℚ) : ℤ := if 0 ≤ q then ⌊q + 1 / 2⌋ else ⌈q - 1 / 2⌉

def calculateLetterbox (sourceWidth sourceHeight targetWidth targetHeight : ℤ) :
    LetterboxTransform ℚ :=
  let scale := min ((targetWidth : ℚ) / sourceWidth) ((targetHeight : ℚ) / sourceHeight)
  let resizedWidth := roundAway (sourceWidth * scale)
  let resizedHeight := roundAway (sourceHeight * scale)
  { scale
    resizedWidth
    resizedHeight
    padX := (targetWidth - resizedWidth).tdiv 2
    padY := (targetHeight - resizedHeight).tdiv 2 }

section

variable {K : Type*} [Zero K] [Add K] [Sub K] [Div K] [IntCast K] [LT K] [DecidableLT K]

/-- `std::clamp`. -/
def clamp (v lo hi : K) : K := if v < lo then lo else if hi < v then hi else v

/-- `std::max`. -/
def larger (a b : K) : K := if a < b then b else a

def restoreLetterboxBox (box : Rect K) (transform : LetterboxTransform K)
    (sourceWidth sourceHeight : ℤ) : Rect K :=
  let left := clamp ((box.x - transform.padX) / transform.scale) 0 sourceWidth
  let top := clamp ((box.y - transform.padY) / transform.scale) 0 sourceHeight
  let right := clamp ((box.x + box.width - transform.padX) / transform.scale) 0 sourceWidth
  let bottom := clamp ((box.y + box.height - transform.padY) / transform.scale) 0 sourceHeight
  { x := left
    y := top
    width := larger 0 (right - left)
    height := larger 0 (bottom - top) }

end

/-- The image is scaled first and then moved by the padding. -/
def LetterboxTransform.place (transform : LetterboxTransform ℚ) (box : Rect ℚ) : Rect ℚ :=
  { x := box.x * transform.scale + transform.padX
    y := box.y * transform.scale + transform.padY
    width := box.width * transform.scale
    height := box.height * transform.scale }

/-- The scaled image, where it is put, does not stick out of the input. -/
structure LetterboxTransform.Fits (transform : LetterboxTransform ℚ)
    (targetWidth targetHeight : ℤ) : Prop where
  left : 0 ≤ transform.padX
  right : transform.padX + transform.resizedWidth ≤ targetWidth
  top : 0 ≤ transform.padY
  bottom : transform.padY + transform.resizedHeight ≤ targetHeight

/-- The box has a size and lies inside an image of the given size. -/
structure Rect.Inside (box : Rect ℚ) (imageWidth imageHeight : ℤ) : Prop where
  left : 0 ≤ box.x
  top : 0 ≤ box.y
  width : 0 ≤ box.width
  height : 0 ≤ box.height
  right : box.x + box.width ≤ imageWidth
  bottom : box.y + box.height ≤ imageHeight

/-! ### One axis -/

theorem roundAway_nonneg {q : ℚ} (h : 0 ≤ q) : 0 ≤ roundAway q := by
  rw [roundAway, if_pos h]
  exact Int.floor_nonneg.mpr (by linarith)

/-- Rounding does not go past an integer. -/
theorem roundAway_le {q : ℚ} {n : ℤ} (h : 0 ≤ q) (hle : q ≤ n) : roundAway q ≤ n := by
  rw [roundAway, if_pos h, ← Int.lt_add_one_iff, Int.floor_lt]
  push_cast
  linarith

/-- An axis along which the scaled image fits is padded by the half of what is left. -/
theorem padded {q : ℚ} {n : ℤ} (h : 0 ≤ q) (hle : q ≤ n) :
    0 ≤ (n - roundAway q).tdiv 2 ∧ (n - roundAway q).tdiv 2 + roundAway q ≤ n := by
  have hnonneg := roundAway_nonneg h
  have hfits := roundAway_le h hle
  rw [Int.tdiv_eq_ediv_of_nonneg (by omega)]
  omega

theorem clamp_eq_self {v lo hi : ℚ} (hlo : lo ≤ v) (hhi : v ≤ hi) : clamp v lo hi = v := by
  rw [clamp, if_neg (not_lt.mpr hlo), if_neg (not_lt.mpr hhi)]

theorem clamp_mem {v lo hi : ℚ} (h : lo ≤ hi) : lo ≤ clamp v lo hi ∧ clamp v lo hi ≤ hi := by
  unfold clamp
  split
  · exact ⟨le_refl lo, h⟩
  next hlo =>
    split
    · exact ⟨h, le_refl hi⟩
    next hhi => exact ⟨not_lt.mp hlo, not_lt.mp hhi⟩

theorem larger_eq_max (a b : ℚ) : larger a b = max a b := by
  unfold larger
  split
  next hlt => exact (max_eq_right hlt.le).symm
  next hge => exact (max_eq_left (not_lt.mp hge)).symm

/-- A coordinate that was scaled and moved is moved and scaled back. -/
theorem restore_coordinate {v scale size : ℚ} (pad : ℚ) (hscale : 0 < scale) (hlo : 0 ≤ v)
    (hhi : v ≤ size) : clamp ((v * scale + pad - pad) / scale) 0 size = v := by
  have hback : (v * scale + pad - pad) / scale = v := by
    rw [add_sub_cancel_right, mul_div_assoc, div_self hscale.ne', mul_one]
  rw [hback, clamp_eq_self hlo hhi]

/-- Two clamped coordinates span a length inside the image. -/
theorem span_inside {a b : ℚ} {size : ℤ} (hsize : 0 ≤ size) :
    0 ≤ clamp a 0 (size : ℚ) ∧ 0 ≤ larger 0 (clamp b 0 (size : ℚ) - clamp a 0 (size : ℚ)) ∧
      clamp a 0 (size : ℚ) + larger 0 (clamp b 0 (size : ℚ) - clamp a 0 (size : ℚ)) ≤ size := by
  have hsize' : (0 : ℚ) ≤ size := by exact_mod_cast hsize
  obtain ⟨hleft, hleft'⟩ := clamp_mem (v := a) hsize'
  obtain ⟨-, hright⟩ := clamp_mem (v := b) hsize'
  rw [larger_eq_max]
  refine ⟨hleft, le_max_left _ _, ?_⟩
  rcases max_choice 0 (clamp b 0 (size : ℚ) - clamp a 0 (size : ℚ)) with hmax | hmax <;>
    rw [hmax] <;> linarith

/-! ### The whole box -/

section

variable {sourceWidth sourceHeight targetWidth targetHeight : ℤ}

/-- The scale makes neither side longer than the side it has to fit. -/
theorem scale_spec (hsw : 0 < sourceWidth) (hsh : 0 < sourceHeight) (htw : 0 < targetWidth)
    (hth : 0 < targetHeight) :
    0 < (calculateLetterbox sourceWidth sourceHeight targetWidth targetHeight).scale ∧
      sourceWidth * (calculateLetterbox sourceWidth sourceHeight targetWidth targetHeight).scale ≤
        targetWidth ∧
      sourceHeight * (calculateLetterbox sourceWidth sourceHeight targetWidth targetHeight).scale ≤
        targetHeight := by
  have hsw' : (0 : ℚ) < sourceWidth := by exact_mod_cast hsw
  have hsh' : (0 : ℚ) < sourceHeight := by exact_mod_cast hsh
  have htw' : (0 : ℚ) < targetWidth := by exact_mod_cast htw
  have hth' : (0 : ℚ) < targetHeight := by exact_mod_cast hth
  simp only [calculateLetterbox]
  refine ⟨lt_min (div_pos htw' hsw') (div_pos hth' hsh'), ?_, ?_⟩
  · rw [mul_comm]
    exact (le_div_iff₀ hsw').mp (min_le_left _ _)
  · rw [mul_comm]
    exact (le_div_iff₀ hsh').mp (min_le_right _ _)

theorem restore_place {transform : LetterboxTransform ℚ} (hscale : 0 < transform.scale)
    {box : Rect ℚ} (h : box.Inside sourceWidth sourceHeight) :
    restoreLetterboxBox (transform.place box) transform sourceWidth sourceHeight = box := by
  obtain ⟨hleft, htop, hwidth, hheight, hright, hbottom⟩ := h
  have hfar : ∀ v w pad : ℚ, v * transform.scale + pad + w * transform.scale - pad =
      (v + w) * transform.scale + pad - pad := fun v w pad => by ring
  have hx : box.x ≤ sourceWidth := by linarith
  have hy : box.y ≤ sourceHeight := by linarith
  have hx' := restore_coordinate transform.padX hscale (add_nonneg hleft hwidth) hright
  have hy' := restore_coordinate transform.padY hscale (add_nonneg htop hheight) hbottom
  simp only [restoreLetterboxBox, LetterboxTransform.place, hfar, hx', hy',
    restore_coordinate _ hscale hleft hx, restore_coordinate _ hscale htop hy,
    add_sub_cancel_left, larger_eq_max, max_eq_right hwidth, max_eq_right hheight]

theorem restore_inside (transform : LetterboxTransform ℚ) (box : Rect ℚ) (hsw : 0 ≤ sourceWidth)
    (hsh : 0 ≤ sourceHeight) :
    (restoreLetterboxBox box transform sourceWidth sourceHeight).Inside
      sourceWidth sourceHeight := by
  obtain ⟨hleft, hwidth, hright⟩ := span_inside hsw
  obtain ⟨htop, hheight, hbottom⟩ := span_inside hsh
  exact ⟨hleft, htop, hwidth, hheight, hright, hbottom⟩

/-- **The letterbox and its inverse**, for all sizes. -/
theorem letterbox_inverse (hsw : 0 < sourceWidth) (hsh : 0 < sourceHeight) (htw : 0 < targetWidth)
    (hth : 0 < targetHeight) :
    (calculateLetterbox sourceWidth sourceHeight targetWidth targetHeight).Fits
        targetWidth targetHeight ∧
      (∀ box : Rect ℚ, box.Inside sourceWidth sourceHeight →
        restoreLetterboxBox
          ((calculateLetterbox sourceWidth sourceHeight targetWidth targetHeight).place box)
          (calculateLetterbox sourceWidth sourceHeight targetWidth targetHeight)
          sourceWidth sourceHeight = box) ∧
      ∀ box : Rect ℚ, (restoreLetterboxBox box
          (calculateLetterbox sourceWidth sourceHeight targetWidth targetHeight)
          sourceWidth sourceHeight).Inside sourceWidth sourceHeight := by
  obtain ⟨hscale, hwidth, hheight⟩ := scale_spec hsw hsh htw hth
  have hsw' : (0 : ℚ) ≤ sourceWidth := by exact_mod_cast hsw.le
  have hsh' : (0 : ℚ) ≤ sourceHeight := by exact_mod_cast hsh.le
  obtain ⟨hpadX, hfitsX⟩ := padded (mul_nonneg hsw' hscale.le) hwidth
  obtain ⟨hpadY, hfitsY⟩ := padded (mul_nonneg hsh' hscale.le) hheight
  exact ⟨⟨hpadX, hfitsX, hpadY, hfitsY⟩, fun box => restore_place hscale,
    fun box => restore_inside _ box hsw.le hsh.le⟩

end

/-- A camera image of 640 by 480 in a square input. -/
theorem letterbox_inverse_camera :
    (calculateLetterbox 640 480 320 320).padX = 0 ∧
      (calculateLetterbox 640 480 320 320).padY = 40 ∧
      restoreLetterboxBox ⟨50, 65, 100, 50⟩ (calculateLetterbox 640 480 320 320) 640 480 =
        (⟨100, 50, 200, 100⟩ : Rect ℚ) := by
  have hplace : (calculateLetterbox 640 480 320 320).place ⟨100, 50, 200, 100⟩ =
      ⟨50, 65, 100, 50⟩ := by decide +kernel
  refine ⟨by decide +kernel, by decide +kernel, ?_⟩
  rw [← hplace]
  exact (letterbox_inverse (by decide) (by decide) (by decide) (by decide)).2.1 _
    ⟨by norm_num, by norm_num, by norm_num, by norm_num, by norm_num, by norm_num⟩

end Inference

end EggVision
