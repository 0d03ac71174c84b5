import EggVision.Lib.Transition
import Mathlib.Order.Bounds.Basic

/-!
# A maximum that many threads keep

A cell holds the largest value so far. A thread that has a new value loads the cell, and as long as
its value is larger than what it has seen tries to exchange one for the other; the exchange fails if
the cell holds something else by then, and may fail for no reason, and says what the cell holds.
Other threads do the same in between. Values are lost on the way only to larger ones.

## Main definitions

* `Cell`, `Cell.step` — the cell, with the threads that are in the loop
* `begun` — the values of a run

## Main results

* `Cell.isGreatest_peak` — when no thread is in the loop, the cell holds the maximum
-/

namespace RunningMaximum

open Transition

universe u

variable {α : Type u}

/-- A thread in the loop: its value, and what it has seen last. -/
structure Caller (α : Type u) where
  value : α
  seen : Option α := none
deriving DecidableEq, Repr

structure Cell (α : Type u) where
  peak : α
  callers : List (Caller α) := []
deriving DecidableEq, Repr

inductive Action (α : Type u)
  | start (value : α)
  | load (i : ℕ)
  | exchange (i : ℕ) (spurious : Bool)
deriving DecidableEq, Repr

/-- The value that a step brings. -/
def Action.value : Action α → Option α
  | .start value => some value
  | .load _ | .exchange _ _ => none

/-- The values that a run brings. -/
def begun {σ : Type*} (history : List (σ × Action α)) : List α :=
  history.filterMap fun x => x.2.value

/-! ### A caller less -/

variable {l l' : List (Caller α)} {i j : ℕ} {c d : Caller α}

theorem mem_eraseIdx_of_ne (hne : j ≠ i) (hj : l[j]? = some d) : d ∈ l.eraseIdx i :=
  List.mem_eraseIdx_iff_getElem?.mpr ⟨j, hne, hj⟩

theorem mem_set_of_ne (hne : j ≠ i) (hj : l[j]? = some d) : d ∈ l.set i c := by
  refine List.mem_iff_getElem?.mpr ⟨j, ?_⟩
  rw [List.getElem?_set_ne hne.symm, hj]

/-- A value is the one of the caller that is replaced, or there is still someone who has it. -/
theorem exists_of_ne {v : α} (hget : l[i]? = some c)
    (hl' : ∀ j ≠ i, ∀ d, l[j]? = some d → d ∈ l') (h : ∃ d ∈ l, d.value = v) :
    c.value = v ∨ ∃ d ∈ l', d.value = v := by
  obtain ⟨d, hd, hv⟩ := h
  obtain ⟨j, hj⟩ := List.mem_iff_getElem?.mp hd
  by_cases hji : j = i
  · rw [hji, hget] at hj
    cases hj
    exact .inl hv
  · exact .inr ⟨d, hl' j hji d hj, hv⟩

/-! ### The cell -/

variable [LinearOrder α]

namespace Cell

/-- The condition of the loop, with what was seen just now. -/
def look (i : ℕ) (value : α) (s : Cell α) : Cell α :=
  if s.peak < value then { s with callers := s.callers.set i ⟨value, some s.peak⟩ }
  else { s with callers := s.callers.eraseIdx i }

def step (s : Cell α) : Action α → Option (Cell α)
  | .start value => some { s with callers := s.callers ++ [⟨value, none⟩] }
  | .load i =>
    match s.callers[i]? with
    | some ⟨value, none⟩ => some (s.look i value)
    | _ => none
  | .exchange i spurious =>
    match s.callers[i]? with
    | some ⟨value, some seen⟩ =>
      if s.peak = seen ∧ spurious = false then
        some { peak := value, callers := s.callers.eraseIdx i }
      else some (s.look i value)
    | _ => none

end Cell

/-! ### The invariant -/

/-- Every value is recorded, or on its way. -/
structure Records (initial : α) (values : List α) (s : Cell α) : Prop where
  initial_le : initial ≤ s.peak
  known : s.peak = initial ∨ s.peak ∈ values
  mine : ∀ c ∈ s.callers, c.value ∈ values
  larger : ∀ c ∈ s.callers, ∀ seen ∈ c.seen, seen < c.value
  recorded : ∀ v ∈ values, v ≤ s.peak ∨ ∃ c ∈ s.callers, c.value = v

variable {initial : α} {values : List α} {s s' : Cell α}

theorem Records.look (h : Records initial values s)
    (hget : s.callers[i]? = some c) : Records initial values (s.look i c.value) := by
  have hmem : c ∈ s.callers := List.mem_of_getElem? hget
  rw [Cell.look]
  split_ifs with hlt
  · refine ⟨h.initial_le, h.known, ?_, ?_, ?_⟩
    · intro d hd
      rcases List.mem_or_eq_of_mem_set hd with hd | rfl
      · exact h.mine d hd
      · exact h.mine c hmem
    · intro d hd seen hseen
      rcases List.mem_or_eq_of_mem_set hd with hd | rfl
      · exact h.larger d hd seen hseen
      · cases hseen
        exact hlt
    · intro v hv
      rcases h.recorded v hv with hle | hcaller
      · exact .inl hle
      · right
        rcases exists_of_ne hget
          (fun j hj d hd => mem_set_of_ne (c := ⟨c.value, some s.peak⟩) hj hd) hcaller
          with rfl | hcaller
        · refine ⟨⟨c.value, some s.peak⟩, ?_, rfl⟩
          obtain ⟨hi, -⟩ := List.getElem?_eq_some_iff.mp hget
          exact List.mem_set hi _
        · exact hcaller
  · refine ⟨h.initial_le, h.known, ?_, ?_, ?_⟩
    · exact fun d hd => h.mine d (List.mem_of_mem_eraseIdx hd)
    · exact fun d hd => h.larger d (List.mem_of_mem_eraseIdx hd)
    · intro v hv
      rcases h.recorded v hv with hle | hcaller
      · exact .inl hle
      · rcases exists_of_ne hget
          (fun j hj d hd => mem_eraseIdx_of_ne hj hd) hcaller with rfl | hcaller
        · exact .inl (not_lt.mp hlt)
        · exact .inr hcaller

/-- **What a step keeps.** A thread that exchanges has seen something smaller. -/
theorem Records.step (h : Records initial values s) {a : Action α} (hs : s.step a = some s') :
    Records initial (values ++ a.value.toList) s' := by
  cases a with
  | start value =>
    cases hs
    have hvalues {v : α} (hv : v ∈ values) : v ∈ values ++ [value] := List.mem_append_left _ hv
    refine ⟨h.initial_le, h.known.imp_right hvalues, ?_, ?_, ?_⟩
    · intro c hc
      rcases List.mem_append.mp hc with hc | hc
      · exact hvalues (h.mine c hc)
      · rw [List.mem_singleton.mp hc]
        simp [Action.value]
    · intro c hc seen hseen
      rcases List.mem_append.mp hc with hc | hc
      · exact h.larger c hc seen hseen
      · rw [List.mem_singleton.mp hc] at hseen
        cases hseen
    · intro v hv
      rcases List.mem_append.mp hv with hv | hv
      · exact (h.recorded v hv).imp_right fun ⟨c, hc, heq⟩ => ⟨c, List.mem_append_left _ hc, heq⟩
      · exact .inr ⟨⟨value, none⟩, by simp, (List.mem_singleton.mp hv).symm⟩
  | load i =>
    rw [Action.value, Option.toList_none, List.append_nil]
    rw [Cell.step] at hs
    split at hs
    next value hget =>
      cases hs
      exact h.look hget
    · cases hs
  | exchange i spurious =>
    rw [Action.value, Option.toList_none, List.append_nil]
    rw [Cell.step] at hs
    split at hs
    next value seen hget =>
      split_ifs at hs with hexchanged
      · cases hs
        have hmem : (⟨value, some seen⟩ : Caller α) ∈ s.callers := List.mem_of_getElem? hget
        have hlt : s.peak < value := hexchanged.1 ▸ h.larger _ hmem seen rfl
        refine ⟨h.initial_le.trans hlt.le, .inr (h.mine _ hmem), ?_, ?_, ?_⟩
        · exact fun c hc => h.mine c (List.mem_of_mem_eraseIdx hc)
        · exact fun c hc => h.larger c (List.mem_of_mem_eraseIdx hc)
        · intro v hv
          rcases h.recorded v hv with hle | hcaller
          · exact .inl (hle.trans hlt.le)
          · rcases exists_of_ne hget (fun j hj d hd => mem_eraseIdx_of_ne hj hd) hcaller with
              heq | hcaller
            · exact .inl heq.symm.le
            · exact .inr hcaller
      · cases hs
        exact h.look hget
    · cases hs

theorem records_of_run {history : List (Cell α × Action α)}
    (h : Run Cell.step ⟨initial, []⟩ history s) : Records initial (begun history) s := by
  induction h with
  | nil => exact ⟨le_refl _, .inl rfl, by simp, by simp, by simp [begun]⟩
  | @snoc history s s' a _ hs ih =>
    have hbegun : begun (history ++ [(s, a)]) = begun history ++ a.value.toList := by
      rw [begun, List.filterMap_append, ← begun]
      cases hvalue : a.value <;> simp [hvalue]
    rw [hbegun]
    exact ih.step hs

/-- **Nothing is lost but to something larger.** The cell holds one of the values that were brought,
and when no thread is in the loop it is the greatest. -/
theorem Cell.isGreatest_peak {history : List (Cell α × Action α)}
    (h : Run Cell.step ⟨initial, []⟩ history s) :
    (s.peak = initial ∨ s.peak ∈ begun history) ∧
      (s.callers = [] → IsGreatest {v | v = initial ∨ v ∈ begun history} s.peak) := by
  have hrecords := records_of_run h
  refine ⟨hrecords.known, fun hquiet => ⟨hrecords.known, ?_⟩⟩
  rintro v (rfl | hv)
  · exact hrecords.initial_le
  · rcases hrecords.recorded v hv with hle | ⟨c, hc, -⟩
    · exact hle
    · rw [hquiet] at hc
      cases hc

end RunningMaximum
