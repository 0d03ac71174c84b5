import Mathlib.Data.Option.Basic

/-!
# The capacity-one queue

`LatestFrameQueue` keeps the latest value only: a slow consumer gets the newest frame, and the one
it did not take in time is replaced. Every operation is one lock region.
-/

namespace EggVision

/-- `LatestFrameQueue`. -/
structure LatestFrameQueue (α : Type) where
  value : Option α := none
  closed : Bool := false
deriving DecidableEq, Repr

namespace LatestFrameQueue

variable {α : Type}

/-- The result says that a value nobody had taken was replaced. -/
def push (value : α) (q : LatestFrameQueue α) : LatestFrameQueue α × Bool :=
  if q.closed then (q, false) else ({ q with value := some value }, q.value.isSome)

/-- `waitPop`, once the wait is over; `none` while it is not. The value is missing when the queue
was closed. -/
def waitPop (q : LatestFrameQueue α) : Option (Option α × LatestFrameQueue α) :=
  match q.value with
  | some value => some (some value, { q with value := none })
  | none => if q.closed then some (none, q) else none

def clear (q : LatestFrameQueue α) : LatestFrameQueue α := { q with value := none }

def close (_q : LatestFrameQueue α) : LatestFrameQueue α := { value := none, closed := true }

def reopen (_q : LatestFrameQueue α) : LatestFrameQueue α := { value := none, closed := false }

end LatestFrameQueue

end EggVision
