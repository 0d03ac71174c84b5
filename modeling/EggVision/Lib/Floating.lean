import Mathlib.Algebra.Order.Field.Rat
import Mathlib.Order.WithBot

/-!
# Floating-point numbers with NaN

A value is a rational, one of the two infinities, or NaN. Comparisons with NaN are false, whichever
way round they are written, and everything that is computed from NaN is NaN. How the exact result
of an operation on finite values is rounded, and when it overflows, is a parameter: all that is
said of it is that it is never NaN. There is one zero.

## Main definitions

* `Value`, with `<` and `≤` as they are computed
* `Rounding`, and `Num` — the values with the arithmetic of a rounding
* `StrictWeakOn` — what `std::sort` asks of a comparison

## Main results

* `le_iff_not_lt` — the two ways to write a test agree on values that can be compared
* `strictWeakOn_of_ne_nan`
-/

namespace Floating

inductive Value
  | nan
  | infinite (negative : Bool)
  | finite (q : ℚ)
deriving DecidableEq, Repr

namespace Value

/-- Where the value stands among the others, if it can be compared. -/
def place : Value → Option (WithBot (WithTop ℚ))
  | nan => none
  | infinite true => some ⊥
  | infinite false => some ((⊤ : WithTop ℚ) : WithBot (WithTop ℚ))
  | finite q => some ((q : WithTop ℚ) : WithBot (WithTop ℚ))

theorem place_eq_none_iff {x : Value} : x.place = none ↔ x = nan := by
  cases x with
  | nan => simp [place]
  | infinite negative => cases negative <;> simp [place]
  | finite q => simp [place]

instance : LT Value := ⟨fun x y => ∃ a ∈ x.place, ∃ b ∈ y.place, a < b⟩

instance : LE Value := ⟨fun x y => ∃ a ∈ x.place, ∃ b ∈ y.place, a ≤ b⟩

instance : DecidableLT Value := fun x y =>
  inferInstanceAs (Decidable (∃ a ∈ x.place, ∃ b ∈ y.place, a < b))

instance : DecidableLE Value := fun x y =>
  inferInstanceAs (Decidable (∃ a ∈ x.place, ∃ b ∈ y.place, a ≤ b))

theorem lt_def {x y : Value} : x < y ↔ ∃ a ∈ x.place, ∃ b ∈ y.place, a < b := Iff.rfl

theorem le_def {x y : Value} : x ≤ y ↔ ∃ a ∈ x.place, ∃ b ∈ y.place, a ≤ b := Iff.rfl

@[simp] theorem finite_lt_finite {p q : ℚ} : finite p < finite q ↔ p < q := by
  simp [lt_def, place]

@[simp] theorem not_nan_lt (x : Value) : ¬ nan < x := by simp [lt_def, place]

@[simp] theorem not_lt_nan (x : Value) : ¬ x < nan := by simp [lt_def, place]

@[simp] theorem not_le_nan (x : Value) : ¬ x ≤ nan := by simp [le_def, place]

def neg : Value → Value
  | nan => nan
  | infinite negative => infinite !negative
  | finite q => finite (-q)

def isInfinite : Value → Bool
  | infinite _ => true
  | nan | finite _ => false

def isFinite : Value → Bool
  | finite _ => true
  | nan | infinite _ => false

/-- One of the factors is not a number, or one is zero and the other infinite. -/
def NoProduct (x y : Value) : Prop :=
  x = nan ∨ y = nan ∨ (x = finite 0 ∧ y.isInfinite = true) ∨ (y = finite 0 ∧ x.isInfinite = true)

instance (x y : Value) : Decidable (x.NoProduct y) :=
  inferInstanceAs (Decidable (_ ∨ _ ∨ _ ∧ _ ∨ _ ∧ _))

theorem exists_place {x : Value} (h : x ≠ nan) : ∃ a, x.place = some a :=
  Option.ne_none_iff_exists'.mp fun hnone => h (place_eq_none_iff.mp hnone)

/-- Values that can be compared are compared either way round. -/
theorem le_iff_not_lt {x y : Value} (hx : x ≠ nan) (hy : y ≠ nan) : x ≤ y ↔ ¬ y < x := by
  obtain ⟨a, ha⟩ := exists_place hx
  obtain ⟨b, hb⟩ := exists_place hy
  simp [le_def, lt_def, ha, hb]

end Value

/-! ### Arithmetic -/

/-- How an exact result becomes a value. It may overflow, but it is a number. -/
structure Rounding where
  round : ℚ → Value
  round_ne_nan : ∀ q, round q ≠ .nan

/-- No rounding at all. -/
def exact : Rounding := ⟨.finite, by simp⟩

namespace Rounding

variable (r : Rounding)

def add : Value → Value → Value
  | .nan, _ | _, .nan => .nan
  | .infinite negative, .infinite negative' =>
    if negative = negative' then .infinite negative else .nan
  | .infinite negative, .finite _ | .finite _, .infinite negative => .infinite negative
  | .finite p, .finite q => r.round (p + q)

def mul : Value → Value → Value
  | .nan, _ | _, .nan => .nan
  | .infinite negative, .infinite negative' => .infinite (negative != negative')
  | .infinite negative, .finite q | .finite q, .infinite negative =>
    if q = 0 then .nan else .infinite (negative != decide (q < 0))
  | .finite p, .finite q => r.round (p * q)

def div : Value → Value → Value
  | .nan, _ | _, .nan => .nan
  | .infinite _, .infinite _ => .nan
  | .infinite negative, .finite q => .infinite (negative != decide (q < 0))
  | .finite _, .infinite _ => .finite 0
  | .finite p, .finite q =>
    if q ≠ 0 then r.round (p / q) else if p = 0 then .nan else .infinite (decide (p < 0))

/-- When a product is not a number, however it is rounded. -/
theorem mul_eq_nan_iff {x y : Value} : r.mul x y = .nan ↔ x.NoProduct y := by
  cases x <;> cases y <;> simp [mul, r.round_ne_nan, Value.NoProduct, Value.isInfinite]

theorem add_comm (x y : Value) : r.add x y = r.add y x := by
  cases x with
  | nan => cases y <;> rfl
  | infinite negative =>
    cases y with
    | infinite negative' => cases negative <;> cases negative' <;> rfl
    | nan | finite q => rfl
  | finite p =>
    cases y with
    | finite q => exact congrArg r.round (Rat.add_comm p q)
    | nan | infinite negative => rfl

theorem add_ne_nan {x : Value} {q : ℚ} (hx : x ≠ .nan) : r.add x (.finite q) ≠ .nan := by
  cases x with
  | nan => exact absurd rfl hx
  | infinite negative => simp [add]
  | finite p => exact r.round_ne_nan _

end Rounding

/-- The values, with the arithmetic of a rounding. -/
def Num (_ : Rounding) : Type := Value

namespace Num

variable {r : Rounding}

/-- A number that is written in a program. -/
def ofRat (q : ℚ) : Num r := Value.finite q

instance : LT (Num r) := inferInstanceAs (LT Value)
instance : LE (Num r) := inferInstanceAs (LE Value)
instance : DecidableLT (Num r) := inferInstanceAs (DecidableLT Value)
instance : DecidableLE (Num r) := inferInstanceAs (DecidableLE Value)
instance : DecidableEq (Num r) := inferInstanceAs (DecidableEq Value)
instance : Zero (Num r) := ⟨ofRat 0⟩
instance : IntCast (Num r) := ⟨fun n => r.round n⟩
instance : Add (Num r) := ⟨r.add⟩
instance : Sub (Num r) := ⟨fun x y => r.add x (Value.neg y)⟩
instance : Mul (Num r) := ⟨r.mul⟩
instance : Div (Num r) := ⟨r.div⟩

end Num

/-! ### Comparisons for a sort -/

/-- The comparison is a strict weak ordering of the elements of a list. -/
structure StrictWeakOn {α : Type*} (before : α → α → Prop) (l : List α) : Prop where
  irrefl : ∀ a ∈ l, ¬ before a a
  trans : ∀ a ∈ l, ∀ b ∈ l, ∀ c ∈ l, before a b → before b c → before a c
  incomparable : ∀ a ∈ l, ∀ b ∈ l, ∀ c ∈ l, ¬ before a b → ¬ before b a → ¬ before b c →
    ¬ before c b → ¬ before a c ∧ ¬ before c a

/-- Elements are compared by values that can be compared. -/
theorem strictWeakOn_of_ne_nan {α : Type*} {f : α → Value} {l : List α}
    (h : ∀ a ∈ l, f a ≠ .nan) : StrictWeakOn (fun a b => f b < f a) l := by
  refine ⟨fun a ha => ?_, fun a ha b hb c hc => ?_, fun a ha b hb c hc => ?_⟩
  · obtain ⟨x, hx⟩ := Value.exists_place (h a ha)
    simp [Value.lt_def, hx]
  · obtain ⟨x, hx⟩ := Value.exists_place (h a ha)
    obtain ⟨y, hy⟩ := Value.exists_place (h b hb)
    obtain ⟨z, hz⟩ := Value.exists_place (h c hc)
    simp only [Value.lt_def, hx, hy, hz, Option.mem_def, Option.some.injEq, exists_eq_left']
    exact fun hyx hzy => hzy.trans hyx
  · obtain ⟨x, hx⟩ := Value.exists_place (h a ha)
    obtain ⟨y, hy⟩ := Value.exists_place (h b hb)
    obtain ⟨z, hz⟩ := Value.exists_place (h c hc)
    simp only [Value.lt_def, hx, hy, hz, Option.mem_def, Option.some.injEq, exists_eq_left', not_lt]
    exact fun hxy hyx hyz hzy => ⟨hxy.trans hyz, hzy.trans hyx⟩

end Floating
