import Mathlib.Data.List.Infix

/-!
# Thinned lists

A list is read from left to right, and each element is either kept or skipped for a reason. The
reason may depend on what has been kept so far. `Thinning skip s₀ k₀ s k` says that reading goes
from `s₀`, of which `k₀` is kept, to `s`, of which `k` is kept.

## Main definitions

* `Thinning`

## Main results

* `Thinning.snoc_cases` — what happened to the last element
* `Thinning.of_kept_suffix`, `Thinning.of_kept_prefix` — a part of what was kept comes from a part
  of what was read
* `Thinning.eq_of_forall` — where there is no reason to skip, all is kept
-/

universe u

variable {α : Type u} {skip : List α → α → Prop} {s₀ k₀ s k : List α}

/-- The kept part `k` of `s`, read from `s₀` and `k₀` on. -/
inductive Thinning (skip : List α → α → Prop) (s₀ k₀ : List α) : List α → List α → Prop
  | refl : Thinning skip s₀ k₀ s₀ k₀
  | keep {s k : List α} (a : α) :
      Thinning skip s₀ k₀ s k → Thinning skip s₀ k₀ (s ++ [a]) (k ++ [a])
  | skip {s k : List α} (a : α) :
      Thinning skip s₀ k₀ s k → skip k a → Thinning skip s₀ k₀ (s ++ [a]) k

namespace Thinning

/-- The last element is where reading started, it was kept, or it was skipped. -/
theorem snoc_cases {a : α} (h : Thinning skip s₀ k₀ (s ++ [a]) k) :
    (s ++ [a] = s₀ ∧ k = k₀) ∨ (∃ k', k = k' ++ [a] ∧ Thinning skip s₀ k₀ s k') ∨
      (Thinning skip s₀ k₀ s k ∧ skip k a) := by
  generalize hs : s ++ [a] = t at h
  cases h with
  | refl => exact Or.inl ⟨rfl, rfl⟩
  | keep b h =>
    obtain ⟨rfl, heq⟩ := List.append_inj' hs rfl
    cases heq
    exact Or.inr (Or.inl ⟨_, rfl, h⟩)
  | skip b h hskip =>
    obtain ⟨rfl, heq⟩ := List.append_inj' hs rfl
    cases heq
    exact Or.inr (Or.inr ⟨h, hskip⟩)

/-- What was kept at the start stays at the front. -/
theorem start_prefix (h : Thinning skip s₀ k₀ s k) : k₀ <+: k := by
  induction h with
  | refl => exact List.prefix_refl _
  | keep a _ ih => exact ih.trans (List.prefix_append _ _)
  | skip a _ _ ih => exact ih

theorem read_prefix (h : Thinning skip s₀ k₀ s k) : s₀ <+: s := by
  induction h with
  | refl => exact List.prefix_refl _
  | keep a _ ih => exact ih.trans (List.prefix_append _ _)
  | skip a _ _ ih => exact ih.trans (List.prefix_append _ _)

/-- Where there is never a reason to skip, all is kept. -/
theorem eq_of_forall (h : Thinning skip s₀ s₀ s k)
    (hkeep : ∀ front a rest, s = front ++ a :: rest → ¬ skip front a) : k = s := by
  induction h with
  | refl => rfl
  | @keep s k a _ ih =>
    rw [ih fun front b rest heq => hkeep front b (rest ++ [a]) (by rw [heq]; simp)]
  | @skip s k a _ hskip ih =>
    rw [ih fun front b rest heq => hkeep front b (rest ++ [a]) (by rw [heq]; simp)] at hskip
    exact absurd hskip (hkeep s a [] rfl)

/-- A last part of what was kept. The reasons must not look at what was kept before it. -/
theorem of_kept_suffix {p : α → Prop} {f : α} {k₁ k₂ : List α} (hne : k₂ ≠ [])
    (h : Thinning (fun _ => p) [f] [f] s (k₁ ++ k₂)) :
    ∃ s₁ s₂ g, s = s₁ ++ s₂ ∧ Thinning (fun _ => p) [g] [g] s₂ k₂ := by
  generalize hk : k₁ ++ k₂ = k at h
  induction h generalizing k₂ with
  | refl =>
    obtain ⟨g, rest, rfl⟩ := List.exists_cons_of_ne_nil hne
    have hlen := congrArg List.length hk
    simp only [List.length_append, List.length_cons, List.length_nil] at hlen
    obtain rfl : k₁ = [] := List.eq_nil_of_length_eq_zero (by omega)
    obtain rfl : rest = [] := List.eq_nil_of_length_eq_zero (by omega)
    exact ⟨[], [f], g, rfl, by rw [← List.nil_append [g], hk]; cases hk; exact .refl⟩
  | @keep s k a h ih =>
    obtain ⟨rest, last, rfl⟩ := (List.eq_nil_or_concat k₂).resolve_left hne
    rw [List.concat_eq_append, ← List.append_assoc] at hk
    obtain ⟨rfl, heq⟩ := List.append_inj' hk rfl
    cases heq
    by_cases hrest : rest = []
    · subst hrest
      exact ⟨s, [a], a, rfl, .refl⟩
    · obtain ⟨s₁, s₂, g, rfl, hs₂⟩ := ih hrest rfl
      exact ⟨s₁, s₂ ++ [a], g, by simp, by simpa using hs₂.keep a⟩
  | @skip s k a h hskip ih =>
    obtain ⟨s₁, s₂, g, rfl, hs₂⟩ := ih hne hk
    exact ⟨s₁, s₂ ++ [a], g, by simp, hs₂.skip a hskip⟩

/-- A first part of what was kept. -/
theorem of_kept_prefix {k₁ k₂ : List α} (hk₀ : k₀ <+: k₁)
    (h : Thinning skip s₀ k₀ s (k₁ ++ k₂)) :
    ∃ s₁ s₂, s = s₁ ++ s₂ ∧ Thinning skip s₀ k₀ s₁ k₁ := by
  generalize hk : k₁ ++ k₂ = k at h
  induction h generalizing k₂ with
  | refl =>
    have hlen := congrArg List.length hk
    rw [List.length_append] at hlen
    have heq := hk₀.eq_of_length_le (by omega)
    exact ⟨s₀, [], by simp, heq ▸ .refl⟩
  | @keep s k a h ih =>
    rcases List.eq_nil_or_concat k₂ with rfl | ⟨rest, last, rfl⟩
    · rw [List.append_nil] at hk
      subst hk
      exact ⟨s ++ [a], [], by simp, h.keep a⟩
    · rw [List.concat_eq_append, ← List.append_assoc] at hk
      obtain ⟨rfl, heq⟩ := List.append_inj' hk rfl
      obtain ⟨s₁, s₂, rfl, hs₁⟩ := ih rfl
      exact ⟨s₁, s₂ ++ [a], by simp, hs₁⟩
  | @skip s k a h hskip ih =>
    obtain ⟨s₁, s₂, rfl, hs₁⟩ := ih hk
    exact ⟨s₁, s₂ ++ [a], by simp, hs₁⟩

end Thinning
