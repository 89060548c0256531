/-
Observers that need only a step number and a cost.

Many observers do not care which solver is running.  They are written against
`Reading`, the part that the events of every solver have in common, and attached
to a solver by `Observer.comap`.
-/
import Downhill.Observer.Basic
import Downhill.Scalar

namespace Downhill

/-- The step that an event reports and the cost that was reached. -/
structure Reading (α : Type) where
  /-- Zero for the start of a run, and one more for each step. -/
  step : Nat
  /-- The cost after that step. -/
  cost : α

variable {α : Type}

/-- Stops a run once its cost has come within a tolerance of zero, but not before
it has taken a number of steps. -/
def Observer.goodEnough [LT α] [DecidableLT α] [Magnitude α] (tolerance : α) (minSteps : Nat) :
    Observer (Reading α) Unit :=
  stopWhen fun r => decide (minSteps ≤ r.step) && decide (Magnitude.abs r.cost < tolerance)

/-- Stops a run at the step that is the observer's state, if it has one. -/
def Observer.stopAt : Observer (Reading α) (Option Nat) :=
  ⟨fun last r => (last, if last = some r.step then .stop else .proceed)⟩

/-- The costs of a run, with the steps that reached them. -/
structure CostHistory (α : Type) where
  /-- A reading for each event, in order. -/
  entries : Array (Reading α) := #[]

namespace CostHistory

/-- The history of a run that has not begun. -/
def empty : CostHistory α := {}

instance : EmptyCollection (CostHistory α) := ⟨empty⟩

/-- Keeps one more reading. -/
def push (h : CostHistory α) (r : Reading α) : CostHistory α := ⟨h.entries.push r⟩

/-- The costs, in order. -/
def costs (h : CostHistory α) : List α := h.entries.toList.map Reading.cost

/-- The most recent cost. -/
def lastCost? (h : CostHistory α) : Option α := h.entries.back?.map Reading.cost

/-- Whether every cost is at most the one before it.  A NaN is not. -/
def isMonotone [LE α] [DecidableLE α] (h : CostHistory α) : Bool :=
  (h.costs.zip h.costs.tail).all fun (before, after) => decide (after ≤ before)

/-- How many events were seen. -/
def length (h : CostHistory α) : Nat := h.entries.size

/-- Whether no event was seen. -/
def isEmpty (h : CostHistory α) : Bool := h.entries.isEmpty

@[simp] theorem costs_empty : (∅ : CostHistory α).costs = [] := rfl

@[simp] theorem costs_push (h : CostHistory α) (r : Reading α) :
    (h.push r).costs = h.costs ++ [r.cost] := by
  simp [push, costs]

/-- The observer that keeps the history of a run and never stops it. -/
def observer : Observer (Reading α) (CostHistory α) := ⟨fun h r => (h.push r, .proceed)⟩

end CostHistory

end Downhill
