import Mathlib.Data.Nat.ModEq

/-!
# Unsigned words

Machine words of `bits` bits are written as the naturals below `2 ^ bits`. The operations wrap
around as those of the machine do, and agree with the exact ones as long as the result is in range.

## Main definitions

* `Words.add`, `Words.sub` — addition and subtraction that wrap around
* `Words.addWraps`, `Words.subWraps` — whether they do

## Main results

* `Words.add_of_not_wraps`, `Words.sub_of_not_wraps`
-/

namespace Words

variable {bits a b : ℕ}

def add (bits a b : ℕ) : ℕ := (a + b) % 2 ^ bits

def sub (bits a b : ℕ) : ℕ := (a + (2 ^ bits - b % 2 ^ bits)) % 2 ^ bits

def addWraps (bits a b : ℕ) : Bool := decide (2 ^ bits ≤ a + b)

def subWraps (a b : ℕ) : Bool := decide (a < b)

theorem add_of_not_wraps (h : addWraps bits a b = false) : add bits a b = a + b :=
  Nat.mod_eq_of_lt (Nat.lt_of_not_le (of_decide_eq_false h))

theorem sub_of_not_wraps (ha : a < 2 ^ bits) (h : subWraps a b = false) : sub bits a b = a - b := by
  have hle : b ≤ a := Nat.le_of_not_lt (of_decide_eq_false h)
  have hsum : a + (2 ^ bits - b) = a - b + 2 ^ bits := by omega
  rw [sub, Nat.mod_eq_of_lt (hle.trans_lt ha), hsum, Nat.add_mod_right]
  exact Nat.mod_eq_of_lt ((Nat.sub_le a b).trans_lt ha)

/-- Adding to a word that has wrapped is adding to the number it stands for. -/
@[simp] theorem add_mod_left (bits a b : ℕ) : add bits (a % 2 ^ bits) b = (a + b) % 2 ^ bits :=
  Nat.mod_add_mod a (2 ^ bits) b

end Words
