import EggVision.Lib.GreedySelection
import Mathlib.Data.Int.Notation
import Mathlib.Data.List.Nodup
import Mathlib.Order.Lattice
import Mathlib.Order.Nat

/-!
# Non-maximum suppression

`nonMaximumSuppression` sorts the detections by falling confidence and goes through them with a flag
for each. A detection whose flag is set is passed over; any other is kept and sets the flags of the
later ones of its class that it overlaps too much. Flags that are set by hand in two nested loops
come to the same as the greedy selection.

The overlap is a parameter, in the place of `intersectionOverUnion`, and so are the orders of
confidences and overlaps.

## Main definitions

* `mark`, `suppress` — the inner and the outer loop
* `NonMaximumSuppression` — what the function may return, whatever the sort does with equal
  confidences

## Main results

* `suppress_eq_greedy`
* `exists_nonMaximumSuppression`, `nonMaximumSuppression_greedy` — what is kept, why the rest is
  not, and that distinct confidences leave one result, which is a fixed point
-/

namespace EggVision

namespace Inference

open GreedySelection List

/-- `Detection`, with the confidence and the box as the order and the overlap see them. -/
structure Detection (κ β : Type*) where
  classId : ℤ := 0
  confidence : κ
  box : β
deriving DecidableEq, Repr

section

variable {κ β ω : Type*} [LT ω] [DecidableLT ω]

/-- The test of the inner loop: `left` is kept and sets the flag of `right`. -/
def Detection.Suppresses (overlap : β → β → ω) (threshold : ω)
    (left right : Detection κ β) : Prop :=
  left.classId = right.classId ∧ threshold < overlap left.box right.box

instance (overlap : β → β → ω) (threshold : ω) :
    DecidableRel (@Detection.Suppresses κ β ω _ overlap threshold) :=
  fun _ _ => inferInstanceAs (Decidable (_ ∧ _))

/-- The inner loop: the flags of the detections after `kept`. A flag that is set stays set. -/
def mark (overlap : β → β → ω) (threshold : ω) (kept : Detection κ β) :
    List (Detection κ β) → List Bool → List Bool
  | detection :: detections, suppressed :: flags =>
    (if !suppressed && decide (kept.Suppresses overlap threshold detection) then true
      else suppressed) :: mark overlap threshold kept detections flags
  | _, flags => flags

/-- The outer loop. A flag is not read again once its turn is over. -/
def suppress (overlap : β → β → ω) (threshold : ω) :
    List (Detection κ β) → List Bool → List (Detection κ β)
  | detection :: detections, suppressed :: flags =>
    if suppressed then suppress overlap threshold detections flags
    else detection :: suppress overlap threshold detections
      (mark overlap threshold detection detections flags)
  | _, _ => []

/-- The comparison that is handed to `std::sort`. -/
def Detection.Before [LT κ] (left right : Detection κ β) : Prop :=
  right.confidence < left.confidence

/-- `nonMaximumSuppression` may return `result`. -/
def NonMaximumSuppression [LT κ] (overlap : β → β → ω) (threshold : ω)
    (detections result : List (Detection κ β)) : Prop :=
  ∃ sorted, SortsTo Detection.Before detections sorted ∧
    result = suppress overlap threshold sorted (replicate sorted.length false)

/-! ### The flags -/

variable (overlap : β → β → ω) (threshold : ω)

/-- The flags say which detections one of those kept so far suppresses. -/
def flagged (kept detections : List (Detection κ β)) : List Bool :=
  detections.map fun detection =>
    kept.any fun k => decide (k.Suppresses overlap threshold detection)

theorem flagged_cons (kept detections : List (Detection κ β)) (detection : Detection κ β) :
    flagged overlap threshold kept (detection :: detections) =
      (kept.any fun k => decide (k.Suppresses overlap threshold detection)) ::
        flagged overlap threshold kept detections := rfl

theorem mark_flagged (k : Detection κ β) (kept detections : List (Detection κ β)) :
    mark overlap threshold k detections (flagged overlap threshold kept detections) =
      flagged overlap threshold (k :: kept) detections := by
  induction detections with
  | nil => rfl
  | cons detection detections ih =>
    rw [flagged_cons, flagged_cons, mark, ih, any_cons]
    cases hflag : kept.any fun k => decide (k.Suppresses overlap threshold detection) <;>
      cases hnew : decide (k.Suppresses overlap threshold detection) <;> rfl

/-- From any point of the outer loop on, the loop adds what the greedy selection adds. -/
theorem foldl_consider_suppress (detections kept : List (Detection κ β)) :
    (detections.foldl (consider (Detection.Suppresses overlap threshold)) kept).reverse =
      kept.reverse ++
        suppress overlap threshold detections (flagged overlap threshold kept detections) := by
  induction detections generalizing kept with
  | nil => simp [suppress]
  | cons detection detections ih =>
    rw [foldl_cons, ih, flagged_cons, suppress]
    by_cases hkeep : ∀ k ∈ kept, ¬ k.Suppresses overlap threshold detection
    · have hflag : (kept.any fun k =>
          decide (k.Suppresses overlap threshold detection)) = false := by
        simpa using hkeep
      rw [consider, if_pos hkeep, hflag, if_neg Bool.false_ne_true, mark_flagged, reverse_cons,
        append_assoc, singleton_append]
    · have hflag : (kept.any fun k =>
          decide (k.Suppresses overlap threshold detection)) = true := by
        simpa using hkeep
      rw [consider, if_neg hkeep, hflag, if_pos rfl]

/-- **The two loops are the greedy selection.** -/
theorem suppress_eq_greedy (detections : List (Detection κ β)) :
    suppress overlap threshold detections (replicate detections.length false) =
      greedy (Detection.Suppresses overlap threshold) detections := by
  have hnone : flagged overlap threshold [] detections = replicate detections.length false := by
    simp [flagged, map_const']
  rw [greedy, foldl_consider_suppress, hnone, reverse_nil, nil_append]

end

/-! ### The result -/

section

variable {κ β ω : Type*} [LinearOrder κ] [LT ω] [DecidableLT ω] {overlap : β → β → ω}
  {threshold : ω} {detections detections' result result' : List (Detection κ β)}

/-- Distinct confidences tell the detections apart. -/
theorem before_or_before (hnodup : (detections.map Detection.confidence).Nodup) :
    ∀ a ∈ detections, ∀ b ∈ detections, a ≠ b → a.Before b ∨ b.Before a := by
  intro a ha b hb hne
  have hconfidence : a.confidence ≠ b.confidence := fun heq =>
    hne (inj_on_of_nodup_map hnodup ha hb heq)
  exact (lt_or_gt_of_ne hconfidence).symm

/-- What is returned is in order already, and nothing in it suppresses anything. -/
theorem suppress_suppress {sorted : List (Detection κ β)}
    (hsort : SortsTo Detection.Before detections sorted) :
    NonMaximumSuppression overlap threshold
      (suppress overlap threshold sorted (replicate sorted.length false))
      (suppress overlap threshold sorted (replicate sorted.length false)) := by
  rw [suppress_eq_greedy]
  refine ⟨_, .refl (hsort.sorted.sublist (greedy_sublist _ sorted)), ?_⟩
  rw [suppress_eq_greedy, greedy_eq_self _ (greedy_pairwise _ sorted)]

theorem NonMaximumSuppression.unique (hnodup : (detections.map Detection.confidence).Nodup)
    (h : NonMaximumSuppression overlap threshold detections result)
    (h' : NonMaximumSuppression overlap threshold detections' result')
    (hperm : detections' ~ detections) : result' = result := by
  obtain ⟨sorted, hsort, rfl⟩ := h
  obtain ⟨sorted', hsort', rfl⟩ := h'
  rw [hsort.unique (before_or_before hnodup) hsort' hperm]

/-- Whatever the detections are, they can be sorted, and so the function returns. -/
theorem exists_nonMaximumSuppression (overlap : β → β → ω) (threshold : ω)
    (detections : List (Detection κ β)) :
    ∃ result, NonMaximumSuppression overlap threshold detections result := by
  let falling : Detection κ β → Detection κ β → Bool :=
    fun left right => decide (right.confidence ≤ left.confidence)
  have hsorted : (detections.mergeSort falling).Pairwise fun left right => falling left right := by
    refine pairwise_mergeSort ?_ ?_ detections
    · intro a b c hab hbc
      simp only [falling, decide_eq_true_eq] at hab hbc ⊢
      exact hbc.trans hab
    · intro a b
      simpa [falling] using le_total b.confidence a.confidence
  refine ⟨_, _, ⟨mergeSort_perm detections falling, hsorted.imp fun {a b} hle => ?_⟩, rfl⟩
  simp only [falling, decide_eq_true_eq] at hle
  exact not_lt.mpr hle

/-- **Non-maximum suppression is greedy.** It returns detections in falling order of confidence,
none of which suppresses a later one, and each of the others is suppressed by one that is returned
and has at least its confidence. If no two confidences are the same, the order of the detections
makes no difference, and a second pass changes nothing. -/
theorem nonMaximumSuppression_greedy
    (h : NonMaximumSuppression overlap threshold detections result) :
    (∃ dropped, result ++ dropped ~ detections ∧ ∀ d ∈ dropped, ∃ k ∈ result,
        k.classId = d.classId ∧ d.confidence ≤ k.confidence ∧
          threshold < overlap k.box d.box) ∧
      result.Pairwise (fun k later => later.confidence ≤ k.confidence) ∧
      result.Pairwise (fun k later =>
        k.classId = later.classId → ¬ threshold < overlap k.box later.box) ∧
      ((detections.map Detection.confidence).Nodup →
        (∀ detections' result', detections' ~ detections →
          NonMaximumSuppression overlap threshold detections' result' → result' = result) ∧
        ∀ again, NonMaximumSuppression overlap threshold result again → again = result) := by
  obtain ⟨sorted, hsort, rfl⟩ := h
  have hfalling : sorted.Pairwise fun k later => later.confidence ≤ k.confidence :=
    hsort.sorted.imp not_lt.mp
  have hkept := greedy_sublist (Detection.Suppresses overlap threshold) sorted
  refine ⟨?_, ?_, ?_, fun hnodup => ⟨fun ds' r' hperm h' => ?_, fun again hagain => ?_⟩⟩
  · rw [suppress_eq_greedy]
    obtain ⟨dropped, hperm, hbeaten⟩ :=
      greedy_perm (Detection.Suppresses overlap threshold) hfalling
    refine ⟨dropped, hperm.trans hsort.perm, fun d hd => ?_⟩
    obtain ⟨k, hk, ⟨hclass, hoverlap⟩, hconfidence⟩ := hbeaten d hd
    exact ⟨k, hk, hclass, hconfidence, hoverlap⟩
  · rw [suppress_eq_greedy]
    exact hfalling.sublist hkept
  · rw [suppress_eq_greedy]
    exact (greedy_pairwise _ sorted).imp fun hnot hclass hoverlap => hnot ⟨hclass, hoverlap⟩
  · exact NonMaximumSuppression.unique hnodup ⟨sorted, hsort, rfl⟩ h' hperm
  · refine (suppress_suppress hsort).unique ?_ hagain (Perm.refl _)
    rw [suppress_eq_greedy]
    exact ((hsort.perm.map _).nodup_iff.mpr hnodup).sublist (hkept.map _)

end

/-- Boxes as places on a line, which overlap when they are close. -/
def closeness (a b : ℕ) : ℕ := 100 - (max a b - min a b)

/-- Of two detections that are close, the less confident one goes. -/
theorem nonMaximumSuppression_greedy_close :
    NonMaximumSuppression closeness 45 [⟨0, 70, 250⟩, ⟨0, 90, 10⟩, ⟨0, 80, 15⟩]
        [⟨0, 90, 10⟩, ⟨0, 70, 250⟩] ∧
      ∀ again, NonMaximumSuppression closeness 45 [⟨0, 90, 10⟩, ⟨0, 70, 250⟩] again →
        again = [⟨0, 90, 10⟩, ⟨0, 70, 250⟩] := by
  have hresult : NonMaximumSuppression closeness 45 [⟨0, 70, 250⟩, ⟨0, 90, 10⟩, ⟨0, 80, 15⟩]
      [⟨0, 90, 10⟩, ⟨0, 70, 250⟩] :=
    ⟨[⟨0, 90, 10⟩, ⟨0, 80, 15⟩, ⟨0, 70, 250⟩],
      ⟨by decide, by simp [Detection.Before]⟩, by decide⟩
  have hgreedy := @nonMaximumSuppression_greedy ℕ ℕ ℕ _ _ _ _ _ _ _ hresult
  exact ⟨hresult, (hgreedy.2.2.2 (by decide)).2⟩

end Inference

end EggVision
