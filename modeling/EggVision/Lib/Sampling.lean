import Mathlib.Algebra.Order.Group.Defs
import Mathlib.Algebra.Order.Sub.Defs
import Mathlib.Data.List.Chain

/-!
# Samples without long gaps

A list of instants in which every one is followed by a later one, not more than a fixed time after
it. Between the first and the last such a list is nowhere far away.

## Main definitions

* `Dense` — the instants rise, by at most a given step

## Main results

* `Dense.exists_near` — one of them is not long before, and one is not long after
-/

namespace Sampling

variable {α : Type*} [AddCommGroup α] [LinearOrder α]

/-- Every instant is later than the one before it, by at most `gap`. -/
def Dense (gap : α) (l : List α) : Prop := l.IsChain fun a b => a < b ∧ b ≤ a + gap

variable {gap t : α} {l : List α}

theorem Dense.pairwise (h : Dense gap l) : l.Pairwise (· < ·) :=
  (h.imp fun _ _ hab => hab.1).pairwise

variable [IsOrderedAddMonoid α]

/-- If an instant is not before the first one and not after some later one, one of them is not long
before it and one is not long after it. -/
theorem Dense.exists_near {a b : α} (h : Dense gap (a :: l)) (hgap : 0 ≤ gap) (ha : a ≤ t)
    (hb : b ∈ a :: l) (ht : t ≤ b) :
    (∃ c ∈ a :: l, c ≤ t ∧ t ≤ c + gap) ∧ ∃ c ∈ a :: l, t ≤ c ∧ c ≤ t + gap := by
  induction l generalizing a with
  | nil =>
    obtain rfl : b = a := by simpa using hb
    obtain rfl : t = b := le_antisymm ht ha
    have hself : t ≤ t + gap := le_add_of_nonneg_right hgap
    exact ⟨⟨t, by simp, le_refl t, hself⟩, ⟨t, by simp, le_refl t, hself⟩⟩
  | cons c l ih =>
    obtain ⟨⟨hac, hgapc⟩, hrest⟩ := List.isChain_cons_cons.mp h
    rcases le_or_gt c t with hct | htc
    · -- the instant is among the later ones
      have hb' : b ∈ c :: l := by
        rcases List.mem_cons.mp hb with rfl | hb
        · exact absurd (hct.trans ht) (not_le.mpr hac)
        · exact hb
      obtain ⟨⟨x, hx, hbefore⟩, y, hy, hafter⟩ := ih hrest hct hb'
      exact ⟨⟨x, List.mem_cons_of_mem a hx, hbefore⟩, y, List.mem_cons_of_mem a hy, hafter⟩
    · refine ⟨⟨a, by simp, ha, htc.le.trans hgapc⟩, c, by simp, htc.le, hgapc.trans ?_⟩
      exact add_le_add_left ha gap

end Sampling
