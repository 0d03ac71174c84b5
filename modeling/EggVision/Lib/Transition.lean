import Mathlib.Data.List.Basic

/-!
# Labelled transition systems given by a step function

A system is a function `step : σ → α → Option σ`: `none` says that the action is not enabled. A
run is recorded with the state in which each of its actions was taken, so that statements about
every state reached and about every step taken speak of the same object.

## Main definitions

* `Run` — a run, with its history of states and actions
* `Reachable` — the last state of some run
* `exec`, `trace` — the state after a list of actions, and its history

## Main results

* `Reachable.invariant` — the invariant rule
* `Run.forall_of`, `Run.forall_iff` — a property of every state of a run, from a condition on its
  steps
* `Reachable.map` — a simulation, with stuttering
* `Run.lift` — a system that records more has the same runs
* `Run.project` — what a run is for a part of the system
* `Run.exec`, `Reachable.exec`, `exists_reachable` — runs that are computed
-/

namespace Transition

universe u v w

variable {σ : Type u} {α : Type v} {step : σ → α → Option σ} {start : σ}

/-- A run from `start`. The history holds every action with the state it was taken in. -/
inductive Run (step : σ → α → Option σ) (start : σ) : List (σ × α) → σ → Prop
  | nil : Run step start [] start
  | snoc {history : List (σ × α)} {s s' : σ} {a : α} :
      Run step start history s → step s a = some s' → Run step start (history ++ [(s, a)]) s'

/-- The last state of some run. -/
def Reachable (step : σ → α → Option σ) (start s : σ) : Prop :=
  ∃ history, Run step start history s

theorem Reachable.refl : Reachable step start start := ⟨[], .nil⟩

theorem Run.reachable {history : List (σ × α)} {s : σ} (h : Run step start history s) :
    Reachable step start s := ⟨history, h⟩

theorem Reachable.tail {s s' : σ} {a : α} (h : Reachable step start s)
    (hs : step s a = some s') : Reachable step start s' := by
  obtain ⟨history, h⟩ := h
  exact ⟨_, h.snoc hs⟩

/-! ### Invariants -/

/-- The invariant rule: what the start has and every step keeps, every reachable state has. -/
theorem Reachable.invariant (Inv : σ → Prop) (hstart : Inv start)
    (hstep : ∀ s a s', Inv s → step s a = some s' → Inv s') {s : σ}
    (h : Reachable step start s) : Inv s := by
  obtain ⟨history, h⟩ := h
  induction h with
  | nil => exact hstart
  | snoc _ hs ih => exact hstep _ _ _ ih hs

/-- Every state of a run is reachable. -/
theorem Run.reachable_of_mem {history : List (σ × α)} {s : σ} (h : Run step start history s) :
    ∀ x ∈ history, Reachable step start x.1 := by
  induction h with
  | nil => simp
  | snoc hrun _ ih =>
    intro x hx
    rcases List.mem_append.mp hx with hx | hx
    · exact ih x hx
    · rw [List.mem_singleton.mp hx]
      exact hrun.reachable

/-- Every step of a run leads to a state from which the run goes on. -/
theorem Run.step_of_mem {history : List (σ × α)} {s : σ} (h : Run step start history s) :
    ∀ x ∈ history, ∃ s', step x.1 x.2 = some s' ∧ Reachable step s' s := by
  induction h with
  | nil => simp
  | snoc _ hs ih =>
    intro x hx
    rcases List.mem_append.mp hx with hx | hx
    · obtain ⟨s', hnext, hreach⟩ := ih x hx
      exact ⟨s', hnext, hreach.tail hs⟩
    · rw [List.mem_singleton.mp hx]
      exact ⟨_, hs, .refl⟩

/-- A property that holds at the start and that a good step keeps holds in every state of a run of
good steps. -/
theorem Run.forall_of (P : σ → Prop) (Good : σ → α → Prop) (hstart : P start)
    (hkeep : ∀ s a s', Reachable step start s → P s → Good s a → step s a = some s' → P s')
    {history : List (σ × α)} {s : σ} (h : Run step start history s)
    (hgood : ∀ x ∈ history, Good x.1 x.2) : (∀ x ∈ history, P x.1) ∧ P s := by
  induction h with
  | nil => simpa using hstart
  | @snoc history s s' a hrun hs ih =>
    obtain ⟨hprev, hbefore⟩ := ih fun x hx => hgood x (List.mem_append_left _ hx)
    refine ⟨fun x hx => ?_, hkeep s a s' hrun.reachable hbefore (hgood (s, a) (by simp)) hs⟩
    rcases List.mem_append.mp hx with hx | hx
    · exact hprev x hx
    · rw [List.mem_singleton.mp hx]
      exact hbefore

/-- If moreover a bad step breaks the property, it holds in every state of a run iff every step of
the run is good. -/
theorem Run.forall_iff (P : σ → Prop) (Good : σ → α → Prop) (hstart : P start)
    (hkeep : ∀ s a s', Reachable step start s → P s → Good s a → step s a = some s' → P s')
    (hbreak : ∀ s a s', Reachable step start s → P s → ¬ Good s a → step s a = some s' → ¬ P s')
    {history : List (σ × α)} {s : σ} (h : Run step start history s) :
    ((∀ x ∈ history, P x.1) ∧ P s) ↔ ∀ x ∈ history, Good x.1 x.2 := by
  refine ⟨?_, h.forall_of P Good hstart hkeep⟩
  induction h with
  | nil => simp
  | @snoc history s s' a hrun hs ih =>
    rintro ⟨hall, hlast⟩ x hx
    have hbefore : P s := hall (s, a) (by simp)
    rcases List.mem_append.mp hx with hx | hx
    · exact ih ⟨fun y hy => hall y (List.mem_append_left _ hy), hbefore⟩ x hx
    · rw [List.mem_singleton.mp hx]
      by_contra hbad
      exact hbreak s a s' hrun.reachable hbefore hbad hs hlast

/-! ### Simulations -/

/-- A map that takes every step to a step or to no change takes reachable states to reachable
states. -/
theorem Reachable.map {τ : Type w} {β : Type v} {step' : τ → β → Option τ} (f : σ → τ)
    (hsim : ∀ s a s', step s a = some s' → f s' = f s ∨ ∃ b, step' (f s) b = some (f s'))
    {s : σ} (h : Reachable step start s) : Reachable step' (f start) (f s) := by
  refine h.invariant (fun s => Reachable step' (f start) (f s)) .refl ?_
  intro s a s' hr hs
  rcases hsim s a s' hs with heq | ⟨b, hb⟩
  · rw [heq]
    exact hr
  · exact hr.tail hb

/-- A system that differs from another only in what it records has all its runs. -/
theorem Run.lift {τ : Type w} {step' : τ → α → Option τ} (f : σ → τ)
    (hsquare : ∀ s a, (step s a).map f = step' (f s) a) {history : List (τ × α)} {t : τ}
    (h : Run step' (f start) history t) :
    ∃ history' s, Run step start history' s ∧ f s = t ∧
      history'.map (fun x => (f x.1, x.2)) = history := by
  induction h with
  | nil => exact ⟨[], start, .nil, rfl, rfl⟩
  | @snoc history t t' a _ hs ih =>
    obtain ⟨history', s, hrun, rfl, rfl⟩ := ih
    rw [← hsquare] at hs
    obtain ⟨s', hs', rfl⟩ := Option.map_eq_some_iff.mp hs
    exact ⟨history' ++ [(s, a)], s', hrun.snoc hs', rfl, by simp⟩

/-- A run of a system is a run of a part of it, with the actions that the part takes. -/
theorem Run.project {τ : Type w} {β : Type v} {step' : τ → β → Option τ} (f : σ → τ)
    (act : σ → α → Option β)
    (htakes : ∀ s a s' b, step s a = some s' → act s a = some b → step' (f s) b = some (f s'))
    (hrests : ∀ s a s', step s a = some s' → act s a = none → f s' = f s)
    {history : List (σ × α)} {s : σ} (h : Run step start history s) :
    Run step' (f start)
      (history.filterMap fun x => (act x.1 x.2).map fun b => (f x.1, b)) (f s) := by
  induction h with
  | nil => exact .nil
  | @snoc history s s' a _ hs ih =>
    rw [List.filterMap_append]
    cases hact : act s a with
    | none => simpa [hact, hrests s a s' hs hact] using ih
    | some b => simpa [hact] using ih.snoc (htakes s a s' b hs hact)

/-! ### Runs that are computed -/

/-- The state after a list of actions, if all of them are enabled. -/
def exec (step : σ → α → Option σ) : σ → List α → Option σ
  | s, [] => some s
  | s, a :: rest => (step s a).bind fun s => exec step s rest

/-- The history of a list of actions, up to the first that is not enabled. -/
def trace (step : σ → α → Option σ) : σ → List α → List (σ × α)
  | _, [] => []
  | s, a :: rest =>
    (s, a) :: match step s a with
      | some s' => trace step s' rest
      | none => []

theorem Run.exec (actions : List α) : ∀ {history : List (σ × α)} {s s' : σ},
    Run step start history s → exec step s actions = some s' →
    Run step start (history ++ trace step s actions) s' := by
  induction actions with
  | nil =>
    intro history s s' h heq
    cases heq
    simpa [trace] using h
  | cons a rest ih =>
    intro history s s' h heq
    obtain ⟨mid, hmid, hrest⟩ := Option.bind_eq_some_iff.mp heq
    have := ih (h.snoc hmid) hrest
    simpa [trace, hmid] using this

/-- The run of a list of actions from the start. -/
theorem Run.ofExec (actions : List α) {s : σ} (heq : Transition.exec step start actions = some s) :
    Run step start (trace step start actions) s :=
  Run.nil.exec actions heq

theorem Reachable.exec (actions : List α) {s s' : σ} (h : Reachable step start s)
    (heq : exec step s actions = some s') : Reachable step start s' := by
  obtain ⟨history, h⟩ := h
  exact (h.exec actions heq).reachable

/-- A property of the state after a list of actions is one of a reachable state. -/
theorem exists_reachable (step : σ → α → Option σ) (start : σ) (actions : List α)
    (P : σ → Prop) [DecidablePred P]
    (h : (exec step start actions).any (fun s => decide (P s)) = true) :
    ∃ s, Reachable step start s ∧ P s := by
  obtain ⟨s, hs, hP⟩ := (Option.any_eq_true _ _).mp h
  exact ⟨s, Reachable.refl.exec actions hs, of_decide_eq_true hP⟩

end Transition
