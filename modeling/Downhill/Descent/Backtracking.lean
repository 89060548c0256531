/-
Backtracking line search.

The search tries step sizes from large to small.  A step size will do when the
cost falls by at least a fixed share of what the slope at the start promises for
it.  The comparison is written so that a NaN passes it: a step that leads out of
the ordinary numbers ends the search, and whoever asked for it sees where it
leads.
-/
import Downhill.Descent.Config
import Downhill.Descent.Direction
import Downhill.Log
import Downhill.Objective

namespace Downhill.Descent

variable {α : Type}

/-- A step that a line search settled on. -/
structure Candidate (α : Type) where
  /-- Where the step leads. -/
  point : Point α
  /-- The cost there. -/
  cost : α
  /-- How far along the direction it lies. -/
  stepSize : α
  /-- How many candidates were looked at, this one included. -/
  shrinks : Nat

/-- What a line search starts from. -/
structure Probe (α : Type) where
  /-- The point to leave. -/
  start : Point α
  /-- The cost there. -/
  startCost : α
  /-- Where to go. -/
  direction : Point α
  /-- The decrease that a step of size one must achieve. -/
  target : α

variable [Zero α] [One α] [Add α] [Sub α] [Mul α] [Neg α] [BEq α]
  [LT α] [LE α] [DecidableLT α] [Magnitude α]

/-- Prepares a search from a point along a direction. -/
def Probe.along (search : LineSearch α) (start : Point α) (startCost : α)
    (gradient direction : Point α) : Probe α :=
  ⟨start, startCost, direction, -search.control * slope gradient direction⟩

/-- Whether a step of some size lowers the cost by less than the target. -/
def Probe.isInsufficient (probe : Probe α) (stepSize cost : α) : Bool :=
  decide (probe.startCost - cost < stepSize * probe.target)

/-- Tries the remaining candidates; `stepSize` is that of the last one tried and
`shrinks` counts them.  Without a result, every candidate was insufficient. -/
def backtrack (objective : Objective α) (shrink : α) (probe : Probe α) :
    (remaining shrinks : Nat) → (stepSize : α) → Log α →
      Except EvalError (Option (Candidate α)) × Log α
  | 0, shrinks, stepSize, log =>
    (.ok none, log.emit (.searchStalled shrinks stepSize probe.startCost))
  | remaining + 1, shrinks, stepSize, log =>
    let stepSize := stepSize * shrink
    let point := advance probe.start probe.direction stepSize
    match objective.cost point with
    | .error e => (.error e, log)
    | .ok cost =>
      let insufficient := probe.isInsufficient stepSize cost
      let log := log.emit (.candidate (shrinks + 1) stepSize cost insufficient)
      if insufficient then backtrack objective shrink probe remaining (shrinks + 1) stepSize log
      else (.ok (some ⟨point, cost, stepSize, shrinks + 1⟩), log)

/-- Searches from a point whose cost and gradient are known. -/
def lineSearch (search : LineSearch α) (objective : Objective α) (start : Point α) (startCost : α)
    (gradient direction : Point α) (log : Log α) :
    Except EvalError (Option (Candidate α)) × Log α :=
  backtrack objective search.shrink (.along search start startCost gradient direction)
    search.maxShrinks 0 search.initialStep log

end Downhill.Descent
