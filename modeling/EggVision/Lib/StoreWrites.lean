import Mathlib.Data.List.Basic
import Mathlib.Logic.Function.Basic

/-!
# Cells that are written one after another

A loop that writes into a store is a list of writes. If what it writes into a cell depends on the
cell alone, the order does not matter, and the store is known from the cells that are written.

## Main definitions

* `StoreWrites.writeAll` — the store after a list of writes

## Main results

* `StoreWrites.writeAll_eq` — what the store holds
-/

namespace StoreWrites

variable {ι α : Type*} [DecidableEq ι]

def write (store : ι → α) (w : ι × α) : ι → α := Function.update store w.1 w.2

def writeAll (store : ι → α) (ws : List (ι × α)) : ι → α := ws.foldl write store

variable {store : ι → α} {ws : List (ι × α)} {v : ι → α} {i : ι}

/-- A cell that is not written is as it was. -/
theorem writeAll_of_forall_ne (h : ∀ w ∈ ws, w.1 ≠ i) : writeAll store ws i = store i := by
  induction ws generalizing store with
  | nil => rfl
  | cons w ws ih =>
    obtain ⟨hne, hrest⟩ := List.forall_mem_cons.mp h
    show writeAll (write store w) ws i = store i
    rw [ih hrest, write, Function.update_of_ne hne.symm]

/-- **The order does not matter** when every cell has one value that is written into it. -/
theorem writeAll_of_mem (hvalue : ∀ w ∈ ws, w.2 = v w.1) (h : ∃ w ∈ ws, w.1 = i) :
    writeAll store ws i = v i := by
  induction ws generalizing store with
  | nil =>
    obtain ⟨w, hw, -⟩ := h
    cases hw
  | cons w ws ih =>
    obtain ⟨hw, hrest⟩ := List.forall_mem_cons.mp hvalue
    show writeAll (write store w) ws i = v i
    by_cases hlater : ∃ w ∈ ws, w.1 = i
    · exact ih hrest hlater
    · have hnone : ∀ w ∈ ws, w.1 ≠ i := fun w hmem heq => hlater ⟨w, hmem, heq⟩
      have hfirst : w.1 = i := by
        obtain ⟨w', hmem, heq⟩ := h
        rcases List.mem_cons.mp hmem with rfl | hmem
        · exact heq
        · exact absurd heq (hnone w' hmem)
      rw [writeAll_of_forall_ne hnone, write, ← hfirst, Function.update_self, hw]

/-- The store, when the cells that are written are those with some property. -/
theorem writeAll_eq {P : ι → Prop} [DecidablePred P] (hvalue : ∀ w ∈ ws, w.2 = v w.1)
    (hcells : ∀ i, (∃ w ∈ ws, w.1 = i) ↔ P i) :
    writeAll store ws = fun i => if P i then v i else store i := by
  funext i
  split_ifs with h
  · exact writeAll_of_mem hvalue ((hcells i).mpr h)
  · refine writeAll_of_forall_ne fun w hw heq => h ?_
    exact (hcells i).mp ⟨w, hw, heq⟩

end StoreWrites
