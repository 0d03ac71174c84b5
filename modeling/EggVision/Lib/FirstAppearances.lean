import Mathlib.Data.List.Nodup

/-!
# The first appearances in a list

A list with repetitions is passed through once, and each element is kept that has not been met
before. What is kept is every element once, in the order of its first appearance.

## Main definitions

* `FirstAppearances.insertNew` — one element of the pass.
* `FirstAppearances.Of` — the elements of a list, once each, in the order of their first
  appearance.

## Main results

* `FirstAppearances.of_foldl` — the pass collects the first appearances.
-/

namespace FirstAppearances

variable {α : Type*} [DecidableEq α]

/-- Keep an element that has not been kept yet. -/
def insertNew (kept : List α) (a : α) : List α :=
  if a ∈ kept then kept else kept ++ [a]

/-- The kept elements are those of the list, ordered by the position of their first appearance. -/
structure Of (kept all : List α) : Prop where
  mem_iff : ∀ a, a ∈ kept ↔ a ∈ all
  inOrder : kept.Pairwise fun a b => all.idxOf a < all.idxOf b

/-- No element is kept twice. -/
theorem Of.nodup {kept all : List α} (h : Of kept all) : kept.Nodup :=
  h.inOrder.imp fun hlt heq => absurd hlt (by rw [heq]; exact Nat.lt_irrefl _)

theorem Of.insertNew {kept all : List α} (h : Of kept all) (a : α) :
    Of (insertNew kept a) (all ++ [a]) := by
  have hidx {b : α} (hb : b ∈ kept) : (all ++ [a]).idxOf b = all.idxOf b :=
    List.idxOf_append_of_mem ((h.mem_iff b).mp hb)
  have hpairs : kept.Pairwise fun b c => (all ++ [a]).idxOf b < (all ++ [a]).idxOf c := by
    refine h.inOrder.imp_of_mem fun hb hc hlt => ?_
    rw [hidx hb, hidx hc]
    exact hlt
  by_cases ha : a ∈ kept
  · rw [FirstAppearances.insertNew, if_pos ha]
    refine ⟨fun b => ?_, hpairs⟩
    rw [h.mem_iff, List.mem_append, List.mem_singleton]
    refine ⟨.inl, fun hb => hb.elim id fun hba => ?_⟩
    rw [hba]
    exact (h.mem_iff a).mp ha
  · rw [FirstAppearances.insertNew, if_neg ha]
    refine ⟨fun b => ?_, List.pairwise_append.mpr ⟨hpairs, List.pairwise_singleton _ _, ?_⟩⟩
    · rw [List.mem_append, List.mem_append, h.mem_iff]
    · intro b hb c hc
      rw [List.mem_singleton] at hc
      subst hc
      rw [hidx hb, List.idxOf_append_of_notMem (mt (h.mem_iff c).mpr ha)]
      have hlt := List.idxOf_lt_length_iff.mpr ((h.mem_iff b).mp hb)
      omega

/-- **The pass collects the first appearances.** -/
theorem of_foldl {kept before : List α} (h : Of kept before) (l : List α) :
    Of (l.foldl FirstAppearances.insertNew kept) (before ++ l) := by
  induction l generalizing kept before with
  | nil => simpa using h
  | cons a l ih =>
    rw [List.foldl_cons, List.append_cons]
    exact ih (h.insertNew a)

theorem of_nil : Of ([] : List α) [] := ⟨fun _ => Iff.rfl, List.Pairwise.nil⟩

end FirstAppearances
