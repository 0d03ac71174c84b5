import Mathlib.Data.List.Basic
import Mathlib.Data.List.DropRight

/-!
# Histories that grow at the end

A history is a list to which every step adds an entry at its end. Its parts are named by cutting it
at entries, and the lemmas say how the cuts of a history come from those of the one before the last
entry.

## Main definitions

* `Since P history x after` — `x` is the last entry with `P`, and `after` what has come since
* `countSince reset p history` — the entries with `p` after the last one with `reset`

## Main results

* `append_cons_eq_snoc` — where a cut of a history lies, once it has grown
* `Since.snoc`, `Since.last`, `Since.of_snoc` — how the last entry moves on
* `countSince_snoc` — how the number grows, or starts over
* `eq_nil_of_append_eq_range` — a list of all numbers in order ends where the last one is
-/

namespace History

universe u

variable {α : Type u} {P : α → Prop}

/-- A cut of a history that has grown lies at its last entry, or in what was there before. -/
theorem append_cons_eq_snoc {log before after : List α} {a e : α}
    (h : log ++ [e] = before ++ a :: after) :
    (after = [] ∧ a = e ∧ before = log) ∨
      ∃ rest, after = rest ++ [e] ∧ log = before ++ a :: rest := by
  rcases List.eq_nil_or_concat after with rfl | ⟨rest, last, rfl⟩
  · obtain ⟨rfl, hlast⟩ := List.append_inj' h rfl
    simp only [List.cons.injEq, and_true] at hlast
    exact Or.inl ⟨rfl, hlast.symm, rfl⟩
  · have h' : log ++ [e] = (before ++ a :: rest) ++ [last] := by simpa using h
    obtain ⟨rfl, hlast⟩ := List.append_inj' h' rfl
    simp only [List.cons.injEq, and_true] at hlast
    exact Or.inr ⟨rest, by rw [hlast, List.concat_eq_append], rfl⟩

/-! ### The last entry of a kind -/

/-- `x` is the last entry of the history with `P`, and `after` is what has come since. -/
structure Since (P : α → Prop) (history : List α) (x : α) (after : List α) : Prop where
  split : ∃ before, history = before ++ x :: after
  holds : P x
  none_after : ∀ y ∈ after, ¬ P y

theorem Since.last (history : List α) {x : α} (h : P x) : Since P (history ++ [x]) x [] :=
  ⟨⟨history, rfl⟩, h, by rintro _ ⟨⟩⟩

theorem Since.snoc {history after : List α} {x y : α} (h : Since P history x after)
    (hy : ¬ P y) : Since P (history ++ [y]) x (after ++ [y]) := by
  obtain ⟨before, rfl⟩ := h.split
  refine ⟨⟨before, by simp⟩, h.holds, fun z hz => ?_⟩
  rcases List.mem_append.mp hz with hz | hz
  · exact h.none_after z hz
  · rw [List.mem_singleton.mp hz]
    exact hy

/-- The last entry of a history that has grown is the new one, or the one from before. -/
theorem Since.of_snoc {history after : List α} {x y : α} (h : Since P (history ++ [y]) x after) :
    (after = [] ∧ x = y) ∨ ∃ rest, after = rest ++ [y] ∧ Since P history x rest ∧ ¬ P y := by
  obtain ⟨⟨before, hsplit⟩, hx, hnone⟩ := h
  rcases append_cons_eq_snoc hsplit with ⟨hnil, hlast, -⟩ | ⟨rest, rfl, hold⟩
  · exact Or.inl ⟨hnil, hlast⟩
  · exact Or.inr ⟨rest, rfl, ⟨⟨before, hold⟩, hx, fun z hz => hnone z (List.mem_append_left _ hz)⟩,
      hnone y (by simp)⟩

theorem Since.mem {history after : List α} {x : α} (h : Since P history x after) :
    x ∈ history := by
  obtain ⟨before, rfl⟩ := h.split
  simp

/-! ### The entries since the last one of a kind -/

/-- The number of entries with `p` that have come after the last one with `reset`. -/
def countSince (reset p : α → Bool) (history : List α) : ℕ :=
  (history.rtakeWhile fun x => !reset x).countP p

theorem countSince_snoc (reset p : α → Bool) (history : List α) (x : α) :
    countSince reset p (history ++ [x]) =
      if reset x then 0 else countSince reset p history + (p x).toNat := by
  unfold countSince
  rw [List.rtakeWhile_concat]
  cases reset x with
  | true => rfl
  | false =>
    simp only [Bool.not_false, if_true, List.countP_append, Bool.false_eq_true, if_false]
    cases hp : p x <;> simp [hp]

theorem countSince_eq_zero {reset p : α → Bool} {history : List α}
    (h : ∀ x ∈ history, p x = false) : countSince reset p history = 0 := by
  refine List.countP_eq_zero.mpr fun x hx => ?_
  rw [h x ((List.rtakeWhile_suffix _ _).mem hx)]
  exact Bool.false_ne_true

/-! ### Numbered entries -/

/-- A list of the numbers up to `n`, cut after `n`, has nothing behind the cut. -/
theorem eq_nil_of_append_eq_range {l m : List ℕ} {n : ℕ} (h : l ++ m = List.range (n + 1))
    (hn : n ∈ l) : m = [] := by
  rcases List.eq_nil_or_concat m with rfl | ⟨rest, last, rfl⟩
  · rfl
  · have h' : (l ++ rest) ++ [last] = List.range n ++ [n] := by
      rw [← List.range_succ, ← h]
      simp
    obtain ⟨hcut, -⟩ := List.append_inj' h' rfl
    have : n ∈ List.range n := hcut ▸ List.mem_append_left rest hn
    simp at this

end History
