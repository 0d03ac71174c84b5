/-!
# Computations that may fail

Programs in `Except` are taken apart from the end: what such a program returns was returned by its
last step, for something that the steps before it returned.

## Main definitions

* `refuse` — a test that ends the computation

## Main results

* `bind_ok`, `map_ok`, `refuse_ok_iff`, `exists_ok`
-/

namespace Outcome

variable {ε α β : Type}

theorem bind_ok {x : Except ε α} {f : α → Except ε β} {b : β} (h : x.bind f = .ok b) :
    ∃ a, x = .ok a ∧ f a = .ok b := by
  cases x with
  | error e => cases h
  | ok a => exact ⟨a, rfl, h⟩

theorem exists_bind_ok_iff {x : Except ε α} {f : α → Except ε β} :
    (∃ b, x.bind f = .ok b) ↔ ∃ a, x = .ok a ∧ ∃ b, f a = .ok b := by
  constructor
  · rintro ⟨b, h⟩
    obtain ⟨a, hx, hf⟩ := bind_ok h
    exact ⟨a, hx, b, hf⟩
  · rintro ⟨a, rfl, b, hf⟩
    exact ⟨b, hf⟩

theorem map_ok {x : Except ε α} {f : α → β} {b : β} (h : x.map f = .ok b) :
    ∃ a, x = .ok a ∧ b = f a := by
  cases x with
  | error e => cases h
  | ok a => exact ⟨a, rfl, (Except.ok.inj h).symm⟩

/-- What a computation returns, by computation. -/
theorem exists_ok (x : Except ε α) (P : α → Prop) [DecidablePred P]
    (h : x.toOption.any (fun a => decide (P a)) = true) : ∃ a, x = .ok a ∧ P a := by
  cases x with
  | error e => cases h
  | ok a => exact ⟨a, rfl, of_decide_eq_true h⟩

/-- `if` something is wrong, `raise`. -/
def refuse (wrong : Bool) (error : ε) : Except ε Unit := if wrong then .error error else .ok ()

theorem refuse_ok_iff {wrong : Bool} {error : ε} {u : Unit} :
    refuse wrong error = .ok u ↔ wrong = false := by
  cases wrong with
  | false => exact iff_of_true rfl rfl
  | true => exact iff_of_false (by rintro ⟨⟩) (by rintro ⟨⟩)

end Outcome
