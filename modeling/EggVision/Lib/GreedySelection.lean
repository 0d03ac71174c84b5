import Mathlib.Data.List.Pairwise
import Mathlib.Data.List.Perm.Basic

/-!
# Sorting by a comparison, and greedy selection

A sort by a comparison may put elements that the comparison does not tell apart in any order, so it
is a relation between lists. The greedy selection goes through a list once and keeps an element
unless one that it has kept before rules it out; it is `List.pwFilter`, read from the other end.

## Main definitions

* `SortsTo` — a list is one that a sort may return
* `greedy` — the greedy selection

## Main results

* `SortsTo.unique` — a comparison that tells all elements apart leaves no choice
* `greedy_perm` — what is not kept is ruled out by something kept before it
-/

namespace GreedySelection

open List

variable {α : Type*}

/-! ### Sorting -/

/-- `sorted` is a permutation of `l` in which no element has to go before an earlier one. -/
structure SortsTo (before : α → α → Prop) (l sorted : List α) : Prop where
  perm : sorted ~ l
  sorted : sorted.Pairwise fun a b => ¬ before b a

variable {before : α → α → Prop} {l l' sorted sorted' : List α}

theorem SortsTo.refl (h : l.Pairwise fun a b => ¬ before b a) : SortsTo before l l :=
  ⟨Perm.refl l, h⟩

/-- If the comparison tells all elements apart, permutations of a list are sorted to the same. -/
theorem SortsTo.unique (htotal : ∀ a ∈ l, ∀ b ∈ l, a ≠ b → before a b ∨ before b a)
    (h : SortsTo before l sorted) (h' : SortsTo before l' sorted') (hperm : l' ~ l) :
    sorted = sorted' := by
  refine Perm.eq_of_pairwise ?_ h.sorted h'.sorted
    (h.perm.trans (hperm.symm.trans h'.perm.symm))
  intro a b ha hb hba hab
  by_contra hne
  rcases htotal a (h.perm.subset ha) b (hperm.subset (h'.perm.subset hb)) hne with hlt | hlt
  · exact hab hlt
  · exact hba hlt

/-! ### Greedy selection -/

section

variable (beats : α → α → Prop) [DecidableRel beats]

/-- One element more: it is kept unless one of those kept before beats it. The last one kept is the
first of the list. -/
def consider (kept : List α) (a : α) : List α :=
  if ∀ b ∈ kept, ¬ beats b a then a :: kept else kept

/-- The greedy selection from `l`, in the order of `l`. -/
def greedy (l : List α) : List α := (l.foldl (consider beats) []).reverse

theorem foldl_consider (l : List α) :
    l.foldl (consider beats) [] = l.reverse.pwFilter fun a b => ¬ beats b a := by
  rw [pwFilter, foldr_reverse]
  rfl

theorem greedy_eq (l : List α) :
    greedy beats l = (l.reverse.pwFilter fun a b => ¬ beats b a).reverse := by
  rw [greedy, foldl_consider]

theorem greedy_sublist (l : List α) : greedy beats l <+ l := by
  rw [greedy_eq]
  simpa using (pwFilter_sublist l.reverse).reverse

/-- Nothing kept beats anything kept after it. -/
theorem greedy_pairwise (l : List α) : (greedy beats l).Pairwise fun a b => ¬ beats a b := by
  rw [greedy_eq, pairwise_reverse]
  exact pairwise_pwFilter _

/-- A list in which nothing beats anything after it is kept as it is. -/
theorem greedy_eq_self (h : l.Pairwise fun a b => ¬ beats a b) : greedy beats l = l := by
  rw [greedy_eq, Pairwise.pwFilter (pairwise_reverse.mpr h), reverse_reverse]

/-- What the greedy selection does not keep is beaten by something that it does, and that stands
before it. -/
theorem greedy_perm {R : α → α → Prop} (h : l.Pairwise R) :
    ∃ dropped, greedy beats l ++ dropped ~ l ∧
      ∀ d ∈ dropped, ∃ k ∈ greedy beats l, beats k d ∧ R k d := by
  suffices hrev : ∀ l : List α, l.Pairwise (fun a b => R b a) →
      ∃ dropped, pwFilter (fun a b => ¬ beats b a) l ++ dropped ~ l ∧
        ∀ d ∈ dropped, ∃ k ∈ pwFilter (fun a b => ¬ beats b a) l, beats k d ∧ R k d by
    obtain ⟨dropped, hperm, hbeaten⟩ := hrev l.reverse (pairwise_reverse.mpr h)
    refine ⟨dropped, ?_, fun d hd => ?_⟩
    · rw [greedy_eq]
      exact ((reverse_perm _).append_right dropped).trans (hperm.trans (reverse_perm l))
    · obtain ⟨k, hk, hbeats⟩ := hbeaten d hd
      exact ⟨k, by rw [greedy_eq, mem_reverse]; exact hk, hbeats⟩
  intro l
  induction l with
  | nil => exact fun _ => ⟨[], Perm.refl [], by simp⟩
  | cons a l ih =>
    intro hl
    obtain ⟨hfirst, hrest⟩ := pairwise_cons.mp hl
    obtain ⟨dropped, hperm, hbeaten⟩ := ih hrest
    by_cases hkeep : ∀ b ∈ pwFilter (fun a b => ¬ beats b a) l, ¬ beats b a
    · rw [pwFilter_cons_of_pos hkeep]
      refine ⟨dropped, hperm.cons a, fun d hd => ?_⟩
      obtain ⟨k, hk, hbeats⟩ := hbeaten d hd
      exact ⟨k, mem_cons_of_mem a hk, hbeats⟩
    · rw [pwFilter_cons_of_neg hkeep]
      refine ⟨a :: dropped, perm_middle.trans (hperm.cons a), fun d hd => ?_⟩
      rcases mem_cons.mp hd with rfl | hd
      · simp only [not_forall, not_not] at hkeep
        obtain ⟨k, hk, hbeats⟩ := hkeep
        exact ⟨k, hk, hbeats, hfirst k (pwFilter_subset l hk)⟩
      · exact hbeaten d hd

end

end GreedySelection
