import EggVision.LatestFrameQueue
import EggVision.Lib.History
import EggVision.Lib.Ownership
import EggVision.Lib.Transition

/-!
# What becomes of the values of a queue

Any number of threads call a `LatestFrameQueue`. A call is one lock region, but for `waitPop`: it
releases the lock while it waits, and looks again each time the thread is woken, with or without a
reason.

A value that was pushed may be equal to another one. To follow values through a run, each accepted
one gets a ticket, the number of values accepted before it. The queue itself does not see the
tickets: a run with tickets is a run of the same calls without them.

## Main definitions

* `QueueState.step` — the queue and the threads that wait in it.
* `TicketRun.step` — the same, with tickets.
* `TicketRun.leaves` — what leaves the queue in a step.
* `TicketRun.Accounted` — what holds of the account in every state.

## Main results

* `TicketRun.erase_step` — tickets make no difference.
* `TicketRun.step_accounted` — every call keeps the account.
* `QueueState.values_accounted` — no value is lost silently, and none crosses an epoch.
-/

namespace EggVision

open Ownership Transition

variable {α β : Type}

/-! ### Threads -/

inductive QueueCall (α : Type)
  | push (value : α)
  | waitPop
  | clear
  | close
  | reopen
deriving DecidableEq, Repr

/-- A lock region: the first one of a call, or the one of a thread that wakes up in `waitPop`. -/
inductive QueueAction (α : Type)
  | call (thread : ℕ) (call : QueueCall α)
  | wake (thread : ℕ)
deriving DecidableEq, Repr

/-- A queue, and the threads that wait in it. -/
structure QueueState (α : Type) where
  queue : LatestFrameQueue α := {}
  waiting : List ℕ := []
deriving DecidableEq, Repr

namespace QueueState

/-- A lock region. A thread that waits makes no other call. -/
def step (s : QueueState α) : QueueAction α → Option (QueueState α)
  | .call thread call =>
    if thread ∈ s.waiting then none
    else
      match call with
      | .push value => some { s with queue := (s.queue.push value).1 }
      | .waitPop =>
        match s.queue.waitPop with
        | some (_, queue) => some { s with queue }
        | none => some { s with waiting := s.waiting ++ [thread] }
      | .clear => some { s with queue := s.queue.clear }
      | .close => some { s with queue := s.queue.close }
      | .reopen => some { s with queue := s.queue.reopen }
  | .wake thread =>
    if thread ∈ s.waiting then
      match s.queue.waitPop with
      | some (_, queue) => some { queue, waiting := s.waiting.erase thread }
      | none => some s
    else none

/-- The queue after a region of `waitPop`, whether it returns or waits. -/
def afterWait (q : LatestFrameQueue α) : LatestFrameQueue α :=
  match q.waitPop with
  | some (_, queue) => queue
  | none => q

/-- What a region does to the queue. -/
def effect (q : LatestFrameQueue α) : QueueAction α → LatestFrameQueue α
  | .call _ (.push value) => (q.push value).1
  | .call _ .clear => q.clear
  | .call _ .close => q.close
  | .call _ .reopen => q.reopen
  | .call _ .waitPop => afterWait q
  | .wake _ => afterWait q

theorem step_queue {s s' : QueueState α} {action : QueueAction α} (h : s.step action = some s') :
    s'.queue = effect s.queue action := by
  rcases action with ⟨thread, call⟩ | thread
  · simp only [step] at h
    split at h
    · cases h
    cases call with
    | waitPop =>
      rw [effect, afterWait]
      rcases hpop : s.queue.waitPop with _ | ⟨result, queue⟩
      all_goals rw [hpop] at h
      all_goals cases h
      all_goals rfl
    | _ =>
      cases h
      rfl
  · simp only [step] at h
    split at h
    · rw [effect, afterWait]
      rcases hpop : s.queue.waitPop with _ | ⟨result, queue⟩
      all_goals rw [hpop] at h
      all_goals cases h
      all_goals rfl
    · cases h

/-- What a `waitPop` that returns in this region returns: a value, or `false`. There is nothing
while it waits on. -/
def popped (s : QueueState α) : QueueAction α → Option (Option α)
  | .call _ .waitPop => s.queue.waitPop.map Prod.fst
  | .wake _ => s.queue.waitPop.map Prod.fst
  | _ => none

/-- The value that a `push` into an open queue adds. -/
def accepts {γ : Type} (s : QueueState γ) : QueueAction α → List α
  | .call _ (.push value) => if s.queue.closed then [] else [value]
  | _ => []

end QueueState

/-- The calls after which no earlier value is popped. -/
def QueueAction.endsEpoch : QueueAction α → Bool
  | .call _ .close => true
  | .call _ .reopen => true
  | _ => false

/-! ### Tickets -/

/-- How a value leaves the queue. -/
inductive Departure
  | popped
  | replaced
  | cleared
  | closed
  | reopened
deriving DecidableEq, Repr

/-- A queue of values with their tickets, and the values accepted so far. -/
structure TicketRun (α : Type) where
  state : QueueState (ℕ × α) := {}
  accepted : List α := []
deriving DecidableEq, Repr

namespace TicketRun

/-- A value is pushed with its ticket. -/
def ticketed (s : TicketRun α) : QueueAction α → QueueAction (ℕ × α)
  | .call thread (.push value) => .call thread (.push (s.accepted.length, value))
  | .call thread .waitPop => .call thread .waitPop
  | .call thread .clear => .call thread .clear
  | .call thread .close => .call thread .close
  | .call thread .reopen => .call thread .reopen
  | .wake thread => .wake thread

def step (s : TicketRun α) (action : QueueAction α) : Option (TicketRun α) :=
  (s.state.step (s.ticketed action)).map fun state =>
    { state, accepted := s.accepted ++ s.state.accepts action }

/-- The ticket in the queue. -/
def held (s : TicketRun α) : List ℕ := (s.state.queue.value.map Prod.fst).toList

/-- The ticket and the value that a `waitPop` returns. -/
def popped (s : TicketRun α) (action : QueueAction α) : Option (Option (ℕ × α)) :=
  s.state.popped (s.ticketed action)

/-- What leaves the queue in a region: the value that `waitPop` returns, the value that a `push`
says by its result it has replaced, and what the other calls find. -/
def leaves (s : TicketRun α) (action : QueueAction α) : List (ℕ × Departure) :=
  match action with
  | .call _ (.push value) =>
    if (s.state.queue.push (s.accepted.length, value)).2 then
      s.held.map fun ticket => (ticket, .replaced)
    else []
  | .call _ .clear => s.held.map fun ticket => (ticket, .cleared)
  | .call _ .close => s.held.map fun ticket => (ticket, .closed)
  | .call _ .reopen => s.held.map fun ticket => (ticket, .reopened)
  | .call _ .waitPop | .wake _ =>
    match s.popped action with
    | some (some (ticket, _)) => [(ticket, .popped)]
    | _ => []

end TicketRun

/-! ### Tickets make no difference -/

namespace LatestFrameQueue

def map (f : α → β) (q : LatestFrameQueue α) : LatestFrameQueue β where
  value := q.value.map f
  closed := q.closed

theorem push_map (f : α → β) (value : α) (q : LatestFrameQueue α) :
    (q.map f).push (f value) = ((q.push value).1.map f, (q.push value).2) := by
  rcases q with ⟨slot, closed⟩
  cases closed
  · simp [push, map]
  · simp [push, map]

theorem waitPop_map (f : α → β) (q : LatestFrameQueue α) :
    (q.map f).waitPop = q.waitPop.map fun popped => (popped.1.map f, popped.2.map f) := by
  rcases q with ⟨_ | slot, closed⟩
  · cases closed <;> rfl
  · rfl

end LatestFrameQueue

def QueueAction.map (f : α → β) : QueueAction α → QueueAction β
  | .call thread (.push value) => .call thread (.push (f value))
  | .call thread .waitPop => .call thread .waitPop
  | .call thread .clear => .call thread .clear
  | .call thread .close => .call thread .close
  | .call thread .reopen => .call thread .reopen
  | .wake thread => .wake thread

def QueueState.map (f : α → β) (s : QueueState α) : QueueState β where
  queue := s.queue.map f
  waiting := s.waiting

/-- The queue treats all values alike. -/
theorem QueueState.step_map (f : α → β) (s : QueueState α) (action : QueueAction α) :
    (s.step action).map (QueueState.map f) = (s.map f).step (action.map f) := by
  rcases action with ⟨thread, call⟩ | thread
  · by_cases hwaiting : thread ∈ s.waiting
    · cases call <;> simp [step, QueueAction.map, QueueState.map, hwaiting]
    · cases call with
      | push value => simp [step, QueueAction.map, QueueState.map, hwaiting,
          LatestFrameQueue.push_map]
      | waitPop =>
        rcases hpop : s.queue.waitPop with _ | ⟨result, queue⟩ <;>
          simp [step, QueueAction.map, QueueState.map, hwaiting, LatestFrameQueue.waitPop_map, hpop]
      | clear => simp [step, QueueAction.map, QueueState.map, hwaiting, LatestFrameQueue.clear,
          LatestFrameQueue.map]
      | close => simp [step, QueueAction.map, QueueState.map, hwaiting, LatestFrameQueue.close,
          LatestFrameQueue.map]
      | reopen => simp [step, QueueAction.map, QueueState.map, hwaiting, LatestFrameQueue.reopen,
          LatestFrameQueue.map]
  · by_cases hwaiting : thread ∈ s.waiting
    · rcases hpop : s.queue.waitPop with _ | ⟨result, queue⟩ <;>
        simp [step, QueueAction.map, QueueState.map, hwaiting, LatestFrameQueue.waitPop_map, hpop]
    · simp [step, QueueAction.map, QueueState.map, hwaiting]

namespace TicketRun

/-- The queue without the tickets. -/
def erase (s : TicketRun α) : QueueState α := s.state.map Prod.snd

/-- **Tickets make no difference** to what can be done and what it does. -/
theorem erase_step (s : TicketRun α) (action : QueueAction α) :
    (s.step action).map erase = s.erase.step action := by
  have haction : (s.ticketed action).map Prod.snd = action := by
    rcases action with ⟨thread, call⟩ | thread
    · cases call <;> rfl
    · rfl
  rw [step, Option.map_map]
  calc (s.state.step (s.ticketed action)).map (QueueState.map Prod.snd)
      = (s.state.map Prod.snd).step ((s.ticketed action).map Prod.snd) :=
        QueueState.step_map _ _ _
    _ = s.erase.step action := by rw [haction]; rfl

/-! ### The account -/

/-- Every accepted value has left once or is in the queue; what is in the queue is the value
accepted last. -/
structure Accounted (left : List (ℕ × Departure)) (s : TicketRun α) : Prop where
  balanced : Balanced s.accepted.length (left.map Prod.fst) s.held
  latest : ∀ ticket value, s.state.queue.value = some (ticket, value) →
    ticket + 1 = s.accepted.length ∧ s.accepted.getLast? = some value

theorem accounted_empty : Accounted [] ({} : TicketRun α) :=
  ⟨Balanced.empty, fun _ _ h => by cases h⟩

/-- The value in the queue leaves it. -/
theorem Accounted.leave {left : List (ℕ × Departure)} {s s' : TicketRun α} (h : Accounted left s)
    (departure : Departure) (hvalue : s'.state.queue.value = none)
    (haccepted : s'.accepted = s.accepted) :
    Accounted (left ++ s.held.map fun ticket => (ticket, departure)) s' := by
  have hheld : s'.held = [] := by rw [held, hvalue]; rfl
  refine ⟨?_, fun ticket value heq => ?_⟩
  · have hbalanced := h.balanced
    rw [← List.append_nil s.held] at hbalanced
    have hreleased := hbalanced.release
    rw [haccepted, hheld, List.map_append, List.map_map]
    simpa [Function.comp_def] using hreleased
  · rw [hvalue] at heq
    cases heq

/-- Nothing happens to the value in the queue. -/
theorem Accounted.keep {left : List (ℕ × Departure)} {s s' : TicketRun α} (h : Accounted left s)
    (hvalue : s'.state.queue.value = s.state.queue.value) (haccepted : s'.accepted = s.accepted) :
    Accounted (left ++ []) s' := by
  rw [List.append_nil]
  refine ⟨?_, ?_⟩
  · rw [haccepted, held, hvalue]
    exact h.balanced
  · rw [hvalue, haccepted]
    exact h.latest

theorem Accounted.push {left : List (ℕ × Departure)} {s s' : TicketRun α} (h : Accounted left s)
    {value : α} (hopen : s.state.queue.closed = false)
    (hqueue : s'.state.queue = (s.state.queue.push (s.accepted.length, value)).1)
    (haccepted : s'.accepted = s.accepted ++ [value]) :
    Accounted (left ++ if (s.state.queue.push (s.accepted.length, value)).2 then
      s.held.map fun ticket => (ticket, .replaced) else []) s' := by
  have hpush : s.state.queue.push (s.accepted.length, value) =
      (⟨some (s.accepted.length, value), false⟩, s.state.queue.value.isSome) := by
    simp [LatestFrameQueue.push, hopen]
  rw [hpush] at hqueue ⊢
  have hleft : (if s.state.queue.value.isSome = true then
      s.held.map fun ticket => (ticket, Departure.replaced) else []) =
        s.held.map fun ticket => (ticket, .replaced) := by
    rw [held]
    cases s.state.queue.value <;> rfl
  have hempty : Accounted (left ++ s.held.map fun ticket => (ticket, .replaced))
      { s with state := { s.state with queue := { s.state.queue with value := none } } } :=
    h.leave .replaced rfl rfl
  have hvalue : s'.state.queue.value = some (s.accepted.length, value) := by rw [hqueue]
  have hheld : s'.held = [s.accepted.length] := by rw [held, hvalue]; rfl
  refine ⟨?_, fun ticket other heq => ?_⟩
  · rw [hleft, haccepted, hheld, List.length_append]
    exact hempty.balanced.take
  · rw [hvalue] at heq
    cases heq
    rw [haccepted]
    simp

/-- A `waitPop` takes the value that it returns. -/
theorem Accounted.pop {left : List (ℕ × Departure)} {s s' : TicketRun α} (h : Accounted left s)
    (haccepted : s'.accepted = s.accepted)
    (hqueue : s'.state.queue = QueueState.afterWait s.state.queue) :
    Accounted (left ++ match s.state.queue.waitPop.map Prod.fst with
      | some (some (ticket, _)) => [(ticket, .popped)]
      | _ => []) s' := by
  rcases hvalue : s.state.queue.value with _ | ⟨ticket, value⟩
  · have hkeep : s'.state.queue.value = s.state.queue.value := by
      rw [hqueue, QueueState.afterWait, LatestFrameQueue.waitPop, hvalue]
      cases s.state.queue.closed <;> exact hvalue
    have hnothing : (match s.state.queue.waitPop.map Prod.fst with
        | some (some (ticket, _)) => [(ticket, Departure.popped)]
        | _ => []) = [] := by
      rw [LatestFrameQueue.waitPop, hvalue]
      cases s.state.queue.closed <;> rfl
    rw [hnothing]
    exact h.keep hkeep haccepted
  · have hpop : s.state.queue.waitPop =
        some (some (ticket, value), { s.state.queue with value := none }) := by
      rw [LatestFrameQueue.waitPop, hvalue]
    rw [QueueState.afterWait, hpop] at hqueue
    rw [hpop]
    have hheld : s.held = [ticket] := by rw [held, hvalue]; rfl
    have hleave := h.leave .popped (by rw [hqueue]) haccepted
    rw [hheld] at hleave
    exact hleave

/-- **Every call keeps the account.** -/
theorem step_accounted {left : List (ℕ × Departure)} {s s' : TicketRun α} {action : QueueAction α}
    (h : Accounted left s) (hs : s.step action = some s') :
    Accounted (left ++ s.leaves action) s' := by
  obtain ⟨state, hstate, rfl⟩ := Option.map_eq_some_iff.mp hs
  have hqueue := QueueState.step_queue hstate
  rcases action with ⟨thread, call⟩ | thread
  · cases call with
    | push value =>
      cases hclosed : s.state.queue.closed with
      | false => exact h.push hclosed hqueue (by simp [QueueState.accepts, hclosed])
      | true =>
        have hrefused : s.state.queue.push (s.accepted.length, value) = (s.state.queue, false) := by
          simp [LatestFrameQueue.push, hclosed]
        have hsame : state.queue = s.state.queue := hqueue.trans (congrArg Prod.fst hrefused)
        simp only [leaves, hrefused, QueueState.accepts, hclosed]
        exact h.keep (congrArg LatestFrameQueue.value hsame) (List.append_nil _)
    | waitPop => exact h.pop (List.append_nil _) hqueue
    | clear => exact h.leave .cleared (congrArg LatestFrameQueue.value hqueue) (List.append_nil _)
    | close => exact h.leave .closed (congrArg LatestFrameQueue.value hqueue) (List.append_nil _)
    | reopen => exact h.leave .reopened (congrArg LatestFrameQueue.value hqueue) (List.append_nil _)
  · exact h.pop (List.append_nil _) hqueue

/-- The account of a run. -/
theorem run_accounted {history : List (TicketRun α × QueueAction α)} {t : TicketRun α}
    (h : Run step {} history t) : Accounted (history.flatMap fun x => x.1.leaves x.2) t := by
  induction h with
  | nil => exact accounted_empty
  | snoc _ hs ih =>
    rw [List.flatMap_append, List.flatMap_singleton]
    exact step_accounted ih hs

/-- The values accepted in a run are those pushed into an open queue. -/
theorem run_accepted {history : List (TicketRun α × QueueAction α)} {t : TicketRun α}
    (h : Run step {} history t) :
    t.accepted = history.flatMap fun x => x.1.erase.accepts x.2 := by
  induction h with
  | nil => rfl
  | snoc _ hs ih =>
    obtain ⟨state, -, rfl⟩ := Option.map_eq_some_iff.mp hs
    rw [List.flatMap_append, List.flatMap_singleton, ← ih]
    rfl

/-- What is returned was in the queue. -/
theorem value_of_popped {s : TicketRun α} {action : QueueAction α} {ticket : ℕ} {value : α}
    (h : s.popped action = some (some (ticket, value))) :
    s.state.queue.value = some (ticket, value) := by
  have hpop : s.state.queue.waitPop.map Prod.fst = some (some (ticket, value)) := by
    rcases action with ⟨thread, call⟩ | thread
    · cases call with
      | waitPop => exact h
      | _ => cases h
    · exact h
  rw [LatestFrameQueue.waitPop] at hpop
  rcases hvalue : s.state.queue.value with _ | held
  · rw [hvalue] at hpop
    cases hclosed : s.state.queue.closed <;> simp [hclosed] at hpop
  · rw [hvalue] at hpop
    exact Option.some.inj hpop

/-- A `push` says that it has replaced a value when one has left. -/
theorem replaced_iff {s : TicketRun α} {thread : ℕ} {value : α} :
    (s.erase.queue.push value).2 = true ↔
      ∃ ticket, s.leaves (.call thread (.push value)) = [(ticket, .replaced)] := by
  have hresult : (s.erase.queue.push value).2 =
      (s.state.queue.push (s.accepted.length, value)).2 :=
    congrArg Prod.snd (LatestFrameQueue.push_map Prod.snd (s.accepted.length, value) s.state.queue)
  rw [hresult, leaves, held, LatestFrameQueue.push]
  cases s.state.queue.closed with
  | true => simp
  | false => cases s.state.queue.value <;> simp

/-! ### Epochs -/

/-- Waiting adds nothing to the queue. -/
theorem afterWait_held {s : TicketRun α} {ticket : ℕ}
    (h : ticket ∈ ((QueueState.afterWait s.state.queue).value.map Prod.fst).toList) :
    ticket ∈ s.held := by
  rw [QueueState.afterWait, LatestFrameQueue.waitPop] at h
  rw [held]
  rcases hvalue : s.state.queue.value with _ | value
  · rw [hvalue] at h
    cases hclosed : s.state.queue.closed <;> simp [hclosed, hvalue] at h
  · rw [hvalue] at h
    cases h

/-- A region leaves the ticket in the queue, or takes it out, or puts the next one in. -/
theorem step_held {s s' : TicketRun α} {action : QueueAction α} (hs : s.step action = some s') :
    (∀ ticket ∈ s'.held, ticket ∈ s.held ∨ ticket = s.accepted.length) ∧
      s.accepted.length ≤ s'.accepted.length ∧ (action.endsEpoch = true → s'.held = []) := by
  obtain ⟨state, hstate, rfl⟩ := Option.map_eq_some_iff.mp hs
  have hqueue := QueueState.step_queue hstate
  refine ⟨fun ticket hmem => ?_, by simp, fun hends => ?_⟩
  · rw [held, hqueue] at hmem
    rcases action with ⟨thread, call⟩ | thread
    · cases call with
      | push value =>
        simp only [ticketed, QueueState.effect, LatestFrameQueue.push] at hmem
        split at hmem
        · exact .inl hmem
        · exact .inr (by simpa using hmem)
      | waitPop => exact .inl (afterWait_held hmem)
      | _ => cases hmem
    · exact .inl (afterWait_held hmem)
  · rw [held, hqueue]
    rcases action with ⟨thread, call⟩ | thread
    · cases call with
      | close => rfl
      | reopen => rfl
      | _ => cases hends
    · cases hends

/-- After the end of an epoch, all tickets are new. -/
theorem run_epochs {history : List (TicketRun α × QueueAction α)} {t : TicketRun α}
    (h : Run step {} history t) {before after : List (TicketRun α × QueueAction α)}
    {s : TicketRun α} {action : QueueAction α} (hcut : history = before ++ (s, action) :: after)
    (hends : action.endsEpoch = true) :
    (∀ ticket ∈ t.held, s.accepted.length ≤ ticket) ∧
      s.accepted.length ≤ t.accepted.length ∧
      ∀ x ∈ after, ∀ ticket value, x.1.popped x.2 = some (some (ticket, value)) →
        s.accepted.length ≤ ticket := by
  induction h generalizing after with
  | nil => simp at hcut
  | @snoc history u u' last hrun hs ih =>
    obtain ⟨hheld, hlength, hempty⟩ := step_held hs
    rcases History.append_cons_eq_snoc hcut with ⟨rfl, heq, rfl⟩ | ⟨rest, rfl, hearlier⟩
    · cases heq
      refine ⟨fun ticket hmem => ?_, hlength, fun x hx => absurd hx List.not_mem_nil⟩
      rw [hempty hends] at hmem
      cases hmem
    · obtain ⟨hold, haccepted, hpopped⟩ := ih hearlier
      refine ⟨fun ticket hmem => ?_, haccepted.trans hlength, fun x hx ticket value hpop => ?_⟩
      · rcases hheld ticket hmem with hmem | rfl
        · exact hold ticket hmem
        · exact haccepted
      · rcases List.mem_append.mp hx with hx | hx
        · exact hpopped x hx ticket value hpop
        · rw [List.mem_singleton.mp hx] at hpop
          refine hold ticket ?_
          rw [held, value_of_popped hpop]
          exact List.mem_singleton_self ticket

end TicketRun

/-- Only a closed queue lets `waitPop` return without a value. -/
theorem QueueState.closed_of_popped {s : QueueState α} {action : QueueAction α}
    (h : s.popped action = some none) : s.queue.closed = true := by
  have hpop : s.queue.waitPop.map Prod.fst = some none := by
    rcases action with ⟨thread, call⟩ | thread
    · cases call with
      | waitPop => exact h
      | _ => cases h
    · exact h
  rw [LatestFrameQueue.waitPop] at hpop
  rcases hvalue : s.queue.value with _ | value
  · rw [hvalue] at hpop
    cases hclosed : s.queue.closed with
    | true => rfl
    | false => simp [hclosed] at hpop
  · rw [hvalue] at hpop
    cases hpop

/-- **No value is lost silently, and none crosses an epoch.** A run of any threads is a run with
tickets, in which each accepted value has left exactly once or is in the queue: it was popped, or
replaced by a `push`, which then returns true, or dropped by `clear`, `close` or `reopen`. A
`waitPop` returns the value accepted last, or false from a closed queue, and after `close` and
`reopen` no value from before. -/
theorem QueueState.values_accounted {history : List (QueueState α × QueueAction α)}
    {t : QueueState α} (h : Run QueueState.step {} history t) :
    ∃ tickets run, Run TicketRun.step {} tickets run ∧ run.erase = t ∧
      tickets.map (fun x => (x.1.erase, x.2)) = history ∧
      run.accepted = history.flatMap (fun x => x.1.accepts x.2) ∧
      Balanced run.accepted.length ((tickets.flatMap fun x => x.1.leaves x.2).map Prod.fst)
        run.held ∧
      (∀ x ∈ tickets, ∀ thread value, x.2 = .call thread (.push value) →
        ((x.1.erase.queue.push value).2 = true ↔
          ∃ ticket, x.1.leaves x.2 = [(ticket, .replaced)])) ∧
      (∀ x ∈ tickets, ∀ ticket value, x.1.popped x.2 = some (some (ticket, value)) →
        ticket + 1 = x.1.accepted.length ∧ x.1.accepted.getLast? = some value) ∧
      (∀ x ∈ history, x.1.popped x.2 = some none → x.1.queue.closed = true) ∧
      ∀ before s action after, tickets = before ++ (s, action) :: after →
        action.endsEpoch = true → ∀ x ∈ after, ∀ ticket value,
          x.1.popped x.2 = some (some (ticket, value)) → s.accepted.length ≤ ticket := by
  have hlift : Run QueueState.step (TicketRun.erase {}) history t := h
  obtain ⟨tickets, run, hrun, herase, hmap⟩ :=
    hlift.lift TicketRun.erase TicketRun.erase_step
  refine ⟨tickets, run, hrun, herase, hmap, ?_, (TicketRun.run_accounted hrun).balanced, ?_, ?_, ?_,
    ?_⟩
  · rw [TicketRun.run_accepted hrun, ← hmap, List.flatMap_map]
  · rintro ⟨s, _⟩ - thread value rfl
    exact TicketRun.replaced_iff
  · intro x hx ticket value hpop
    obtain ⟨earlier, hearlier⟩ := hrun.reachable_of_mem x hx
    exact (TicketRun.run_accounted hearlier).latest ticket value (TicketRun.value_of_popped hpop)
  · exact fun x _ => QueueState.closed_of_popped
  · intro before s action after hcut hends
    exact (TicketRun.run_epochs hrun hcut hends).2.2

/-- A camera thread pushes two frames, a consumer takes the second and waits, and is woken by the
end of the epoch; a frame of the next one is dropped by `clear`. -/
def queueActions : List (QueueAction ℕ) :=
  [.call 0 (.push 5), .call 0 (.push 6), .call 1 .waitPop, .call 1 .waitPop, .wake 1,
    .call 2 .close, .wake 1, .call 0 (.push 7), .call 2 .reopen, .call 0 (.push 8), .call 2 .clear]

theorem values_accounted_queueActions :
    ∃ (tickets : List (TicketRun ℕ × QueueAction ℕ)) (run : TicketRun ℕ),
      Run TicketRun.step {} tickets run ∧ run.erase = {} ∧ run.accepted = [5, 6, 8] ∧
      Balanced 3 ((tickets.flatMap fun x => x.1.leaves x.2).map Prod.fst) run.held := by
  have hrun : Run QueueState.step {} (trace QueueState.step {} queueActions) {} :=
    Run.ofExec queueActions (by decide)
  obtain ⟨tickets, run, htickets, herase, -, haccepted, hbalanced, -⟩ :=
    QueueState.values_accounted hrun
  have hthree : run.accepted = [5, 6, 8] := haccepted.trans (by decide)
  rw [hthree] at hbalanced
  exact ⟨tickets, run, htickets, herase, hthree, hbalanced⟩

end EggVision
