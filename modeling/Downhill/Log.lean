/-
What a run writes to its log.

A `Record` says what happened, in terms of the run; its level, its message and
its named fields are read off it.  A `Log` keeps the records that are at least as
severe as its threshold, in the order in which they were emitted.
-/
import Downhill.Descent.Status

namespace Downhill

/-! ### Levels -/

/-- How severe a record is, the most severe level first. -/
inductive Level where
  | error
  | warn
  | info
  | debug
  | trace
  deriving DecidableEq, Repr

namespace Level

/-- The name of a level. -/
def name : Level → String
  | error => "ERROR"
  | warn => "WARN"
  | info => "INFO"
  | debug => "DEBUG"
  | trace => "TRACE"

/-- The place of a level in the order of severity; zero is the most severe. -/
def rank : Level → Nat
  | error => 0
  | warn => 1
  | info => 2
  | debug => 3
  | trace => 4

end Level

/-! ### Records -/

/-- The value of a field of a record. -/
inductive FieldValue (α : Type) where
  | number (value : α)
  | count (value : Nat)
  | flag (value : Bool)
  | status (value : Status)

/-- Something that is worth a line in the log. -/
inductive Record (α : Type) where
  /-- A descent begins, at a start with this cost. -/
  | descentStarted (cost : α)
  /-- A line search looked at a step size; `shrinks` counts the candidates. -/
  | candidate (shrinks : Nat) (stepSize cost : α) (insufficient : Bool)
  /-- A line search gave up after its last candidate. -/
  | searchStalled (shrinks : Nat) (stepSize startCost : α)
  /-- A line search chose a point that is not finite. -/
  | domainLeft (step : Nat) (stepSize : α)
  /-- A step was taken. -/
  | stepAccepted (step : Nat) (cost stepSize : α) (shrinks : Nat)
  /-- A descent ended. -/
  | descentEnded (status : Status) (cost : α) (iters : Nat)
  /-- A batch of descents begins. -/
  | batchStarted (starts : Nat)
  /-- A batch of descents ended. -/
  | batchEnded (starts converged : Nat)
  /-- A grid of start points was laid. -/
  | gridBuilt (dimensions : Nat) (spacing : α) (points : Nat)

namespace Record

variable {α : Type}

/-- Single candidates are for tracing; what went wrong is a warning. -/
def level : Record α → Level
  | candidate .. => .trace
  | searchStalled .. | domainLeft .. => .warn
  | descentEnded status .. => if status.isWarning then .warn else .debug
  | descentStarted .. | stepAccepted .. | batchStarted .. | batchEnded .. | gridBuilt .. => .debug

/-- The message, without the fields. -/
def message : Record α → String
  | descentStarted .. => "starting gradient descent"
  | candidate .. => "line search candidate"
  | searchStalled .. => "line search stalled"
  | domainLeft .. => "step left the finite domain"
  | stepAccepted .. => "accepted step"
  | descentEnded status .. =>
    if status.isWarning then "gradient descent stopped without a root"
    else "gradient descent finished"
  | batchStarted .. => "starting batch solve"
  | batchEnded .. => "finished batch solve"
  | gridBuilt .. => "built sampling grid"

/-- The fields by name, in the order in which they are written. -/
def fields : Record α → List (String × FieldValue α)
  | descentStarted cost => [("cost", .number cost)]
  | candidate shrinks stepSize cost insufficient =>
    [("shrinks", .count shrinks), ("step_size", .number stepSize), ("cost", .number cost),
      ("insufficient", .flag insufficient)]
  | searchStalled shrinks stepSize startCost =>
    [("shrinks", .count shrinks), ("step_size", .number stepSize),
      ("start_cost", .number startCost)]
  | domainLeft step stepSize => [("step", .count step), ("step_size", .number stepSize)]
  | stepAccepted step cost stepSize shrinks =>
    [("step", .count step), ("cost", .number cost), ("step_size", .number stepSize),
      ("shrinks", .count shrinks)]
  | descentEnded status cost iters =>
    [("status", .status status), ("cost", .number cost), ("iters", .count iters)]
  | batchStarted starts => [("starts", .count starts)]
  | batchEnded starts converged => [("starts", .count starts), ("converged", .count converged)]
  | gridBuilt dimensions spacing points =>
    [("dimensions", .count dimensions), ("spacing", .number spacing), ("points", .count points)]

end Record

/-! ### Logs -/

/-- The records that were kept so far. -/
structure Log (α : Type) where
  /-- The least severe level that is kept; without one, nothing is. -/
  threshold : Option Level
  /-- What was kept, in the order of emission. -/
  records : Array (Record α)

namespace Log

variable {α : Type}

/-- The empty log that keeps nothing. -/
def silent : Log α := ⟨none, #[]⟩

/-- The empty log that keeps a level and all that is more severe. -/
def upTo (level : Level) : Log α := ⟨some level, #[]⟩

/-- Whether records of a level are kept. -/
def admits (log : Log α) (level : Level) : Bool :=
  match log.threshold with
  | some least => level.rank ≤ least.rank
  | none => false

/-- Adds a record, if the log keeps records of its level. -/
def emit (log : Log α) (r : Record α) : Log α :=
  if log.admits r.level then { log with records := log.records.push r } else log

end Log

end Downhill
