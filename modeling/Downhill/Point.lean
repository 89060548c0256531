/-
Points of the search space.

A point gives each variable a value.  A gradient and a direction have the same
form, one component for each variable, and are points too.
-/
import Downhill.Scalar
import Downhill.Bindings.Basic

namespace Downhill

/-- A value for each of finitely many variables. -/
abbrev Point (α : Type) := Bindings α

/-- Why an expression has no value at a point. -/
inductive EvalError where
  /-- A variable that the point does not bind. -/
  | unbound (name : String)
  deriving DecidableEq, Repr

/-- The error in words. -/
def EvalError.message : EvalError → String
  | unbound name => "variable `" ++ name ++ "` is not bound"

namespace Point

variable {α : Type}

/-- The value of a variable that the point is expected to bind. -/
def value (p : Point α) (name : String) : Except EvalError α :=
  match p.get? name with
  | some v => .ok v
  | none => .error (.unbound name)

/-- Whether every coordinate is an ordinary number. -/
def isFinite [Magnitude α] (p : Point α) : Bool := p.all fun _ v => Magnitude.isFinite v

/-- The component for a name, zero when there is none. -/
def component [Zero α] (p : Point α) (name : String) : α := (p.get? name).getD 0

end Point

end Downhill
