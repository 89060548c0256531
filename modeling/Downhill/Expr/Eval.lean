/-
The value of an expression at a point.

Operands are evaluated from left to right, so the error that is reported names
the leftmost variable that the point leaves unbound.
-/
import Downhill.Expr.Basic
import Downhill.Point

namespace Downhill

namespace Expr

variable {α : Type}

/-- The value at a point.  A variable that the point does not bind never counts
as zero; it is an error. -/
def eval [Add α] [Mul α] (p : Point α) : Expr α → Except EvalError α
  | const c => .ok c
  | var name => p.value name
  | sum l r =>
    match l.eval p with
    | .error e => .error e
    | .ok a =>
      match r.eval p with
      | .error e => .error e
      | .ok b => .ok (a + b)
  | product l r =>
    match l.eval p with
    | .error e => .error e
    | .ok a =>
      match r.eval p with
      | .error e => .error e
      | .ok b => .ok (a * b)

end Expr

end Downhill
