import Mathlib.Data.List.Range
import Mathlib.Tactic.Ring

/-!
# Planes of pixels in a byte space

A plane is some rows of bytes, each starting a fixed stride after the one before it. Planes are
copied row by row into one list of bytes. A byte space may itself be pieced together from segments
of several stores.

## Main definitions

* `Planar.strided` — the bytes of a plane, row after row
* `Planar.overwrite`, `Planar.copyRows` — copying the rows into a list
* `Planar.Segment`, `Planar.locate` — the byte of a store behind a position
* `Planar.Within` — one segment holds a whole range of positions

## Main results

* `Planar.copyRows_eq_strided` — what copying the rows leaves in the list
* `Planar.strided_contiguous` — rows without padding are one range of bytes
* `Planar.locate_of_within` — where a range that one segment holds is found
-/

namespace Planar

universe u v

variable {α : Type u}

/-! ### Rows a stride apart -/

/-- The `count` bytes from `source` on. -/
def bytesAt (memory : ℕ → α) (source count : ℕ) : List α :=
  (List.range count).map fun i => memory (source + i)

/-- The bytes of `rows` rows of `width` bytes that start `stride` apart. -/
def strided (memory : ℕ → α) (source rows width stride : ℕ) : List α :=
  (List.range rows).flatMap fun row => bytesAt memory (source + row * stride) width

variable {memory : ℕ → α} {source rows width stride : ℕ}

@[simp] theorem bytesAt_length {count : ℕ} : (bytesAt memory source count).length = count := by
  simp [bytesAt]

theorem bytesAt_append (m n : ℕ) :
    bytesAt memory source m ++ bytesAt memory (source + m) n = bytesAt memory source (m + n) := by
  simp [bytesAt, List.range_add, Nat.add_assoc]

theorem bytesAt_getElem? {count i : ℕ} (hi : i < count) :
    (bytesAt memory source count)[i]? = some (memory (source + i)) := by
  simp [bytesAt, hi]

theorem strided_succ : strided memory source (rows + 1) width stride =
    strided memory source rows width stride ++ bytesAt memory (source + rows * stride) width := by
  simp [strided, List.range_succ]

@[simp] theorem strided_length :
    (strided memory source rows width stride).length = rows * width := by
  induction rows with
  | zero => simp [strided]
  | succ rows ih => rw [strided_succ, List.length_append, ih, bytesAt_length]; ring

theorem strided_getElem? {row column : ℕ} (hrow : row < rows) (hcolumn : column < width) :
    (strided memory source rows width stride)[row * width + column]? =
      some (memory (source + row * stride + column)) := by
  induction rows with
  | zero => exact absurd hrow (Nat.not_lt_zero row)
  | succ rows ih =>
    rw [strided_succ]
    rcases Nat.lt_succ_iff_lt_or_eq.mp hrow with hlt | rfl
    · have hle : (row + 1) * width ≤ rows * width := Nat.mul_le_mul_right width hlt
      rw [Nat.succ_mul] at hle
      rw [List.getElem?_append_left (by rw [strided_length]; omega)]
      exact ih hlt
    · rw [List.getElem?_append_right (by rw [strided_length]; omega), strided_length,
        Nat.add_sub_cancel_left]
      exact bytesAt_getElem? hcolumn

/-- Rows without padding between them are one range of bytes. -/
theorem strided_contiguous :
    strided memory source rows width width = bytesAt memory source (rows * width) := by
  induction rows with
  | zero => simp [strided, bytesAt]
  | succ rows ih => rw [strided_succ, ih, bytesAt_append, Nat.succ_mul]

/-- Every byte of a plane lies in its row span. -/
theorem row_lt_span {row column : ℕ} (hrow : row < rows) (hcolumn : column < width) :
    row * stride + column < (rows - 1) * stride + width := by
  have hle : row * stride ≤ (rows - 1) * stride := Nat.mul_le_mul_right stride (by omega)
  omega

/-! ### Copying rows -/

/-- The list with the bytes from `position` on replaced. -/
def overwrite (target : List α) (position : ℕ) (bytes : List α) : List α :=
  target.take position ++ bytes ++ target.drop (position + bytes.length)

/-- Row by row, the rows of a plane are written into the list. -/
def copyRows (memory : ℕ → α) (target : List α) (position source : ℕ) :
    (rows width stride : ℕ) → List α
  | 0, _, _ => target
  | rows + 1, width, stride =>
    overwrite (copyRows memory target position source rows width stride)
      (position + rows * width) (bytesAt memory (source + rows * stride) width)

theorem overwrite_overwrite (target first second : List α) (position : ℕ)
    (hposition : position ≤ target.length) :
    overwrite (overwrite target position first) (position + first.length) second =
      overwrite target position (first ++ second) := by
  have htake : (target.take position).length = position := List.length_take_of_le hposition
  have hfirst : (target.take position ++ first).length = position + first.length := by
    rw [List.length_append, htake]
  have hrest : (overwrite target position first).drop (position + first.length + second.length) =
      target.drop (position + (first.length + second.length)) := by
    rw [← List.drop_drop, overwrite, List.drop_left' hfirst, List.drop_drop, Nat.add_assoc]
  rw [overwrite, hrest, overwrite, List.take_left' hfirst]
  simp [overwrite]

theorem overwrite_all {target bytes : List α} (h : target.length = bytes.length) :
    overwrite target 0 bytes = bytes := by
  simp [overwrite, ← h]

/-- Copying the rows puts the bytes of the plane, row after row, into the list. -/
theorem copyRows_eq_strided (target : List α) (position : ℕ)
    (hposition : position ≤ target.length) :
    copyRows memory target position source rows width stride =
      overwrite target position (strided memory source rows width stride) := by
  induction rows with
  | zero => simp [copyRows, overwrite, strided]
  | succ rows ih =>
    rw [copyRows, ih, strided_succ, ← overwrite_overwrite _ _ _ _ hposition, strided_length]

/-- Rows copied behind what has been written extend it. -/
theorem copyRows_overwrite (target bytes : List α) {position : ℕ}
    (hposition : position = bytes.length) :
    copyRows memory (overwrite target 0 bytes) position source rows width stride =
      overwrite target 0 (bytes ++ strided memory source rows width stride) := by
  subst hposition
  rw [copyRows_eq_strided _ _ (by simp [overwrite]),
    ← overwrite_overwrite _ _ _ _ (Nat.zero_le _), Nat.zero_add]

/-! ### Segments -/

/-- A range of bytes of one of several stores. -/
structure Segment (κ : Type v) where
  /-- The store. -/
  store : κ
  /-- The first byte of the range. -/
  first : ℕ
  /-- How many bytes the range has. -/
  size : ℕ
  deriving DecidableEq, Repr

variable {κ : Type v}

/-- The byte of a store that a position in the segments, one after the other, stands for. -/
def locate : List (Segment κ) → ℕ → Option (κ × ℕ)
  | [], _ => none
  | segment :: rest, position =>
    if position < segment.size then some (segment.store, segment.first + position)
    else locate rest (position - segment.size)

/-- One of the segments, laid one after the other, holds the `span` positions from `position` on,
and they stand for the bytes from `first` on of the store. -/
def Within (store : κ) (first span : ℕ) : List (Segment κ) → ℕ → Prop
  | [], _ => False
  | segment :: rest, position =>
    (segment.store = store ∧ segment.first + position = first ∧ position + span ≤ segment.size) ∨
      (segment.size ≤ position ∧ Within store first span rest (position - segment.size))

instance decidableWithin [DecidableEq κ] (store : κ) (first span : ℕ) :
    ∀ segments position, Decidable (Within store first span segments position)
  | [], _ => isFalse id
  | segment :: rest, position =>
    have := decidableWithin store first span rest (position - segment.size)
    inferInstanceAs (Decidable (_ ∨ _))

theorem locate_of_within {store : κ} {first span offset : ℕ} (hoffset : offset < span) :
    ∀ {segments : List (Segment κ)} {position : ℕ}, Within store first span segments position →
      locate segments (position + offset) = some (store, first + offset) := by
  intro segments
  induction segments with
  | nil => exact fun h => h.elim
  | cons segment rest ih =>
    intro position h
    rcases h with ⟨rfl, rfl, hfits⟩ | ⟨hsize, hrest⟩
    · rw [locate, if_pos (by omega), Nat.add_assoc]
    · rw [locate, if_neg (by omega), Nat.sub_add_comm hsize]
      exact ih hrest

end Planar
