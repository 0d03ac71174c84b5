import Mathlib.Data.List.Range
import Mathlib.Data.List.Perm.Basic

/-!
# Things that are handed from place to place

References, requests and the like are numbered as they come up. A program holds each of them in some
place, hands it from one place to another, and gives it up in the end. The account is balanced when
what was given up, and what is held somewhere, are together each number once.

## Main definitions

* `Balanced taken released held`

## Main results

* `Balanced.take`, `Balanced.move`, `Balanced.release` — what keeps an account balanced
* `Balanced.nodup`, `Balanced.settled` — what a balanced account says about what was given up
-/

namespace Ownership

variable {taken : ℕ} {released held : List ℕ}

/-- Of the first `taken` numbers, each was given up once or is held once. -/
def Balanced (taken : ℕ) (released held : List ℕ) : Prop :=
  (released ++ held).Perm (List.range taken)

theorem Balanced.empty : Balanced 0 [] [] := List.Perm.refl _

/-- What is held may be handed on. -/
theorem Balanced.move {held' : List ℕ} (h : Balanced taken released held)
    (hmove : ∀ ref, held'.count ref = held.count ref) : Balanced taken released held' :=
  ((List.perm_iff_count.mpr hmove).append_left released).trans h

theorem Balanced.take (h : Balanced taken released held) :
    Balanced (taken + 1) released (held ++ [taken]) := by
  unfold Balanced
  rw [List.range_succ, ← List.append_assoc]
  exact List.Perm.append_right [taken] h

theorem Balanced.release {refs : List ℕ} (h : Balanced taken released (refs ++ held)) :
    Balanced taken (released ++ refs) held := by
  unfold Balanced at h ⊢
  rwa [List.append_assoc]

/-- Nothing is given up twice. -/
theorem Balanced.nodup (h : Balanced taken released held) : released.Nodup :=
  (List.nodup_append.mp (h.nodup_iff.mpr List.nodup_range)).1

theorem Balanced.lt (h : Balanced taken released held) {ref : ℕ} (href : ref ∈ released) :
    ref < taken :=
  List.mem_range.mp (h.mem_iff.mp (List.mem_append_left held href))

/-- Once nothing is held any more, all has been given up. -/
theorem Balanced.settled (h : Balanced taken released []) {ref : ℕ} (href : ref < taken) :
    ref ∈ released := by
  have := h.mem_iff.mpr (List.mem_range.mpr href)
  simpa using this

/-! ### Places in a list -/

universe u

variable {α : Type u}

/-- Emptying one place of a list takes what was there. -/
theorem count_flatMap_set (f : α → List ℕ) {empty : α} (hempty : f empty = []) (ref : ℕ) :
    ∀ (places : List α) (i : ℕ),
      (places.flatMap f).count ref =
        ((places[i]?.map f).getD []).count ref + ((places.set i empty).flatMap f).count ref := by
  intro places
  induction places with
  | nil => simp
  | cons place rest ih =>
    intro i
    cases i with
    | zero => simp [hempty]
    | succ i =>
      have := ih i
      simp only [List.flatMap_cons, List.count_append, List.getElem?_cons_succ, List.set_cons_succ]
      omega

/-- Removing one place of a list takes what was there. -/
theorem count_flatten_eraseIdx (ref : ℕ) : ∀ (places : List (List ℕ)) (i : ℕ),
    places.flatten.count ref =
      (places[i]?.getD []).count ref + (places.eraseIdx i).flatten.count ref := by
  intro places
  induction places with
  | nil => simp
  | cons place rest ih =>
    intro i
    cases i with
    | zero => simp
    | succ i =>
      have := ih i
      simp only [List.flatten_cons, List.count_append, List.getElem?_cons_succ,
        List.eraseIdx_cons_succ]
      omega

end Ownership
