import Mathlib.Data.List.Infix

/-!
# The longest suffix with a property

A bounded history keeps a suffix of everything it was given. Which suffix is usually easy to say
in one go ("the longest one that fits") and hard to read off the code, which drops elements from
the front a few at a time, whenever a new element arrives, and forgets them.

`longestSuffix p l` is the closed form. Two facts relate it to an incremental, destructive
implementation:

* `longestSuffix_append_singleton` — dropping early loses nothing, as long as a suffix that is
  rejected once stays rejected when an element is appended;
* `longestSuffix_tail` — dropping one rejected front element does not change the answer, so every
  eviction loop that only ever drops rejected fronts ends at the closed form.

Neither mentions what the elements are.

## Main definitions

* `longestSuffix` — the longest nonempty suffix satisfying a predicate, `[]` if there is none

## Main results

* `longestSuffix_append_singleton`, `longestSuffix_tail`, `longestSuffix_eq_self`
* `longestSuffix_eq_drop` — the same suffix by the index of its first element
* `append_cons_inj_of_last`, `append_cons_inj_of_first` — the last and the first match of a
  predicate split a list in one way
-/

namespace Suffix

variable {α : Type*} {p q : List α → Bool} {l : List α}

/-- The longest nonempty suffix of `l` satisfying `p`; `[]` when no nonempty suffix does. -/
def longestSuffix (p : List α → Bool) : List α → List α
  | [] => []
  | a :: l => if p (a :: l) then a :: l else longestSuffix p l

@[simp] theorem longestSuffix_nil (p : List α → Bool) : longestSuffix p [] = [] := rfl

theorem longestSuffix_cons (p : List α → Bool) (a : α) (l : List α) :
    longestSuffix p (a :: l) = if p (a :: l) then a :: l else longestSuffix p l := rfl

theorem longestSuffix_eq_self (h : p l = true) : longestSuffix p l = l := by
  cases l with
  | nil => rfl
  | cons a l => rw [longestSuffix_cons, if_pos h]

/-- Dropping a rejected front element does not change the answer. -/
theorem longestSuffix_tail (h : p l = false) : longestSuffix p l.tail = longestSuffix p l := by
  cases l with
  | nil => rfl
  | cons a l => rw [longestSuffix_cons, if_neg (by simp [h]), List.tail_cons]

theorem longestSuffix_suffix (p : List α → Bool) (l : List α) : longestSuffix p l <:+ l := by
  induction l with
  | nil => exact List.nil_suffix
  | cons a l ih =>
    rw [longestSuffix_cons]
    split
    · exact List.suffix_refl _
    · exact ih.trans (List.suffix_cons a l)

/-- What is found has the property, unless nothing is found. -/
theorem longestSuffix_holds (h : longestSuffix p l ≠ []) : p (longestSuffix p l) = true := by
  induction l with
  | nil => exact absurd rfl h
  | cons a l ih =>
    rw [longestSuffix_cons] at h ⊢
    split
    next hp => exact hp
    next hp =>
      rw [if_neg hp] at h
      exact ih h

/-- Every suffix with the property is a suffix of the longest one. -/
theorem suffix_longestSuffix {s : List α} (hs : s <:+ l) (hp : p s = true) :
    s <:+ longestSuffix p l := by
  induction l with
  | nil => exact hs
  | cons a l ih =>
    rw [longestSuffix_cons]
    split
    next => exact hs
    next hn =>
      rcases List.suffix_cons_iff.mp hs with rfl | h
      · exact absurd hp hn
      · exact ih h

/-- **Eviction may be incremental.** If every suffix of `l` rejected by `p` is still rejected by
`q` after `a` has arrived, then the answer for `l ++ [a]` can be found in what was kept of `l`. -/
theorem longestSuffix_append_singleton {a : α}
    (h : ∀ s, s <:+ l → s ≠ [] → q (s ++ [a]) = true → p s = true) :
    longestSuffix q (longestSuffix p l ++ [a]) = longestSuffix q (l ++ [a]) := by
  induction l with
  | nil => rfl
  | cons b l ih =>
    rw [longestSuffix_cons]
    split
    next => rfl
    next hp =>
      have hq : ¬ q (b :: (l ++ [a])) = true := fun hq =>
        hp (h (b :: l) (List.suffix_refl _) (List.cons_ne_nil b l) hq)
      rw [ih fun s hs => h s (hs.trans (List.suffix_cons b l)), List.cons_append,
        longestSuffix_cons q b, if_neg hq]

/-- The longest suffix by the index of its first element: the least index from which the suffix
has the property, decided by any `f` that agrees with it there. -/
theorem longestSuffix_eq_drop {f : ℕ → Bool} (hf : ∀ i < l.length, p (l.drop i) = f i) :
    longestSuffix p l = (((List.range l.length).find? f).map (l.drop ·)).getD [] := by
  induction l generalizing f with
  | nil => rfl
  | cons a l ih =>
    have h0 : p (a :: l) = f 0 := hf 0 (Nat.succ_pos _)
    rw [longestSuffix_cons, List.length_cons, List.range_succ_eq_map, List.find?_cons, h0]
    cases hp : f 0 with
    | true => rfl
    | false =>
      rw [if_neg Bool.false_ne_true, List.find?_map,
        ih (f := f ∘ Nat.succ) fun i hi => hf (i + 1) (Nat.succ_lt_succ hi), Option.map_map]
      rfl

/-! ### Splitting a list at its last or first match -/

/-- A list splits in one way only at its last match. -/
theorem append_cons_inj_of_last {P : α → Prop} {pre pre' post post' : List α} {u u' : α}
    (h : pre ++ u :: post = pre' ++ u' :: post') (hu : P u) (hu' : P u')
    (hpost : ∀ v ∈ post, ¬ P v) (hpost' : ∀ v ∈ post', ¬ P v) :
    pre = pre' ∧ u = u' ∧ post = post' := by
  rcases List.append_eq_append_iff.mp h with ⟨c, rfl, hc⟩ | ⟨c, rfl, hc⟩
  · cases c with
    | nil => simpa using hc
    | cons a c =>
      rw [List.cons_append, List.cons.injEq] at hc
      exact absurd hu' (hpost u' (by simp [hc.2]))
  · cases c with
    | nil => simpa [eq_comm] using hc
    | cons a c =>
      rw [List.cons_append, List.cons.injEq] at hc
      exact absurd hu (hpost' u (by simp [hc.2]))

/-- A list splits in one way only at its first match. -/
theorem append_cons_inj_of_first {P : α → Prop} {pre pre' post post' : List α} {u u' : α}
    (h : pre ++ u :: post = pre' ++ u' :: post') (hu : P u) (hu' : P u')
    (hpre : ∀ v ∈ pre, ¬ P v) (hpre' : ∀ v ∈ pre', ¬ P v) :
    pre = pre' ∧ u = u' ∧ post = post' := by
  rcases List.append_eq_append_iff.mp h with ⟨c, rfl, hc⟩ | ⟨c, rfl, hc⟩
  · cases c with
    | nil => simpa using hc
    | cons a c =>
      rw [List.cons_append, List.cons.injEq] at hc
      exact absurd hu (hpre' u (by simp [hc.1]))
  · cases c with
    | nil => simpa [eq_comm] using hc
    | cons a c =>
      rw [List.cons_append, List.cons.injEq] at hc
      exact absurd hu' (hpre u' (by simp [hc.1]))

end Suffix
