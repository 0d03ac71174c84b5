import Mathlib.Data.List.Basic
import Mathlib.Data.List.Infix

/-!
# The lines of a text

`str.splitlines` as Python has it, on the bytes of a text in UTF-8. A line may end in more ways than
one: besides the ends of ASCII there are NEL and the two separators of Unicode. What is printable
has none of them.

## Main definitions

* `boundary`, `splitlines`
* `Printable` — the printable characters of ASCII

## Main results

* `splitlines_lines` — printable lines, each with a newline behind it, are the lines of their text
-/

namespace TextLines

/-- The length of the line boundary that a text begins with, if it begins with one. -/
def boundary : List UInt8 → ℕ
  | 0x0D :: 0x0A :: _ => 2
  | 0x0A :: _ | 0x0B :: _ | 0x0C :: _ | 0x0D :: _ | 0x1C :: _ | 0x1D :: _ | 0x1E :: _ => 1
  | 0xC2 :: 0x85 :: _ => 2
  | 0xE2 :: 0x80 :: 0xA8 :: _ | 0xE2 :: 0x80 :: 0xA9 :: _ => 3
  | _ => 0

/-- The lines of a text, of which `skip` bytes belong to a boundary and `line` has been read. -/
def splitFrom : ℕ → List UInt8 → List UInt8 → List (List UInt8)
  | _, line, [] => if line = [] then [] else [line]
  | skip + 1, line, _ :: rest => splitFrom skip line rest
  | 0, line, b :: rest =>
    match boundary (b :: rest) with
    | 0 => splitFrom 0 (line ++ [b]) rest
    | n + 1 => line :: splitFrom n [] rest

def splitlines (text : List UInt8) : List (List UInt8) := splitFrom 0 [] text

example : splitlines [0x61, 0x0D, 0x0A, 0x0A, 0x62, 0xC2, 0x85, 0x63] =
    [[0x61], [], [0x62], [0x63]] := by
  decide

/-- The newline. -/
def newline : UInt8 := 0x0A

def Printable (text : List UInt8) : Prop := ∀ b ∈ text, 0x20 ≤ b ∧ b < 0x7F

instance (text : List UInt8) : Decidable (Printable text) :=
  decidable_of_iff ((text.all fun b => decide (0x20 ≤ b ∧ b < 0x7F)) = true) <| by
    simp only [List.all_eq_true, decide_eq_true_iff]
    exact Iff.rfl

variable {text text' rest line : List UInt8}

theorem Printable.nil : Printable [] := by
  intro b hb
  cases hb

theorem Printable.append (h : Printable text) (h' : Printable text') :
    Printable (text ++ text') := by
  intro b hb
  rcases List.mem_append.mp hb with hb | hb
  · exact h b hb
  · exact h' b hb

theorem Printable.cons {b : UInt8} (hb : 0x20 ≤ b ∧ b < 0x7F) (h : Printable text) :
    Printable (b :: text) := by
  intro c hc
  rcases List.mem_cons.mp hc with rfl | hc
  · exact hb
  · exact h c hc

theorem Printable.flatMap {α : Type*} {l : List α} {f : α → List UInt8}
    (h : ∀ a ∈ l, Printable (f a)) : Printable (l.flatMap f) := by
  intro b hb
  obtain ⟨a, ha, hb⟩ := List.mem_flatMap.mp hb
  exact h a ha b hb

/-- No line ends with a printable character. -/
theorem boundary_printable {b : UInt8} (hb : 0x20 ≤ b ∧ b < 0x7F) : boundary (b :: rest) = 0 := by
  unfold boundary
  split
  all_goals first
    | rfl
    | simp_all

theorem splitFrom_append (h : Printable text) :
    splitFrom 0 line (text ++ rest) = splitFrom 0 (line ++ text) rest := by
  induction text generalizing line with
  | nil => rw [List.nil_append, List.append_nil]
  | cons b text ih =>
    have hb : boundary (b :: (text ++ rest)) = 0 := boundary_printable (h b List.mem_cons_self)
    have htext : Printable text := fun c hc => h c (List.mem_cons_of_mem b hc)
    rw [List.cons_append, splitFrom, hb]
    show splitFrom 0 (line ++ [b]) (text ++ rest) = _
    rw [ih htext, List.append_assoc, List.singleton_append]

/-- **Printable lines are read back.** -/
theorem splitlines_lines {lines : List (List UInt8)} (h : ∀ line ∈ lines, Printable line) :
    splitlines (lines.flatMap (· ++ [newline])) = lines := by
  induction lines with
  | nil => rfl
  | cons line lines ih =>
    have hline := h line List.mem_cons_self
    have hlines : splitlines (lines.flatMap (· ++ [newline])) = lines := by
      apply ih
      intro line' hline'
      exact h line' (List.mem_cons_of_mem line hline')
    rw [List.flatMap_cons, List.append_assoc, splitlines, splitFrom_append hline, List.nil_append]
    show line :: splitlines (lines.flatMap (· ++ [newline])) = line :: lines
    rw [hlines]

end TextLines
