import EggVision.Lib.Floating
import EggVision.Lib.JsonNumber
import Mathlib.Algebra.Order.Ring.Abs
import Mathlib.Tactic.Linarith
import Mathlib.Tactic.FieldSimp

/-!
# Floating-point numbers as a stream writes them

A stream that is set to fixed notation writes a finite number with all its places, rounded to the
nearest of them, and to the even one of two that are equally near. An infinity and NaN are written
by their names, and with these there is no reading back. The sign of a zero and of a NaN is not
modelled.

## Main definitions

* `roundHalfEven`, `units`, `fixedText`
* `rounded` — the number that is written

## Main results

* `abs_rounded_sub_le` — how far it is from the one that was meant
* `Reads.fixedText`
-/

namespace JsonText

open JsonString Floating

/-- The natural number nearest to `n / d`, and the even one of two. -/
def roundHalfEven (n d : ℕ) : ℕ :=
  if 2 * (n % d) < d then n / d
  else if d < 2 * (n % d) then n / d + 1
  else n / d + n / d % 2

theorem roundHalfEven_near (n : ℕ) {d : ℕ} (hd : 0 < d) :
    2 * (roundHalfEven n d * d) ≤ 2 * n + d ∧ 2 * n ≤ 2 * (roundHalfEven n d * d) + d := by
  have hdiv := Nat.div_add_mod n d
  rw [Nat.mul_comm] at hdiv
  have hlt := Nat.mod_lt n hd
  unfold roundHalfEven
  split_ifs
  · omega
  · rw [Nat.add_mul]
    omega
  · have hparity : n / d % 2 = 0 ∨ n / d % 2 = 1 := by omega
    rcases hparity with h | h <;> rw [h, Nat.add_mul] <;> omega

/-- The magnitude of a number, in units of its last place. -/
def units (places : ℕ) (q : ℚ) : ℕ := roundHalfEven (q.num.natAbs * 10 ^ places) q.den

def fixedText (places : ℕ) : Value → Bytes
  | .finite q => fixedPoint places (decide (q < 0)) (units places q)
  | .infinite negative => ascii (if negative then "-inf" else "inf")
  | .nan => ascii "nan"

def rounded (places : ℕ) (q : ℚ) : ℚ :=
  (if q < 0 then -1 else 1) * (units places q / 10 ^ places)

/-- What is written is off by half of the last place at most. -/
theorem abs_rounded_sub_le (places : ℕ) (q : ℚ) :
    |rounded places q - q| ≤ 1 / (2 * 10 ^ places) := by
  have hpow : (0 : ℚ) < 10 ^ places := by positivity
  have hden : (0 : ℚ) < q.den := by exact_mod_cast q.den_pos
  have habs : (q.num.natAbs : ℚ) / q.den = |q| := by
    rw [Nat.cast_natAbs, Int.cast_abs]
    conv_rhs => rw [← Rat.num_div_den q, abs_div, Nat.abs_cast]
  have hnear : |(units places q : ℚ) / 10 ^ places - (|q|)| ≤ 1 / (2 * 10 ^ places) := by
    obtain ⟨hlo, hhi⟩ := roundHalfEven_near (q.num.natAbs * 10 ^ places) q.den_pos
    have hlo' : 2 * ((units places q : ℚ) * q.den) ≤
        2 * (q.num.natAbs * 10 ^ places) + q.den := by exact_mod_cast hlo
    have hhi' : 2 * ((q.num.natAbs : ℚ) * 10 ^ places) ≤
        2 * (units places q * q.den) + q.den := by exact_mod_cast hhi
    have hq : (q.num.natAbs : ℚ) = |q| * q.den := by rw [← habs, div_mul_cancel₀ _ hden.ne']
    rw [hq] at hlo' hhi'
    have hlo'' : 2 * (units places q : ℚ) ≤ 2 * (|q| * 10 ^ places) + 1 := by
      refine le_of_mul_le_mul_right ?_ hden
      linarith
    have hhi'' : 2 * (|q| * 10 ^ places) ≤ 2 * (units places q : ℚ) + 1 := by
      refine le_of_mul_le_mul_right ?_ hden
      linarith
    rw [abs_le]
    constructor
    · rw [neg_le_sub_iff_le_add, ← sub_le_iff_le_add, ← sub_nonneg]
      have : (units places q : ℚ) / 10 ^ places - (|q| - 1 / (2 * 10 ^ places)) =
          (2 * units places q + 1 - 2 * (|q| * 10 ^ places)) / (2 * 10 ^ places) := by
        field_simp
        ring
      rw [this]
      exact div_nonneg (by linarith) (by positivity)
    · rw [← sub_nonneg]
      have : 1 / (2 * 10 ^ places) - ((units places q : ℚ) / 10 ^ places - |q|) =
          (2 * (|q| * 10 ^ places) + 1 - 2 * units places q) / (2 * 10 ^ places) := by
        field_simp
        ring
      rw [this]
      exact div_nonneg (by linarith) (by positivity)
  unfold rounded
  by_cases hneg : q < 0
  · rw [if_pos hneg]
    rw [abs_of_neg hneg] at hnear
    rw [show -1 * ((units places q : ℚ) / 10 ^ places) - q =
      -((units places q : ℚ) / 10 ^ places - -q) by ring, abs_neg]
    exact hnear
  · rw [if_neg hneg, one_mul]
    rwa [abs_of_nonneg (not_lt.mp hneg)] at hnear

/-- What a reader makes of a number, if it is one. -/
def readBack (places : ℕ) : Value → Option Json
  | .finite q => some (.number (rounded places q))
  | .infinite _ | .nan => none

theorem Reads.fixedText {places : ℕ} (hplaces : 0 < places) (x : Value) :
    Reads (fixedText places x) (readBack places x) := by
  cases x with
  | finite q =>
    have := Reads.fixedPoint hplaces (decide (q < 0)) (units places q)
    simpa only [JsonText.fixedText, readBack, rounded, decide_eq_true_eq] using this
  | infinite negative =>
    cases negative with
    | true => exact Reads.refused (by decide) (by decide) (by decide) (by decide) fun rest => rfl
    | false => exact Reads.refused (by decide) (by decide) (by decide) (by decide) fun rest => rfl
  | nan => exact Reads.refused (by decide) (by decide) (by decide) (by decide) fun rest => rfl

end JsonText
