/-
The text of an expression.

Every sum and product stands in parentheses, so the text shows the tree.  How a
constant is written is a parameter: the structure of the text does not depend
on it.
-/
import Downhill.Expr.Basic
import Downhill.Decimal.Style

namespace Downhill

namespace Expr

variable {α : Type}

/-- The text of an expression whose constants are written by `constant`. -/
def renderWith (constant : α → String) : Expr α → String
  | const c => constant c
  | var name => name
  | sum l r => "(" ++ l.renderWith constant ++ " + " ++ r.renderWith constant ++ ")"
  | product l r => "(" ++ l.renderWith constant ++ " * " ++ r.renderWith constant ++ ")"

/-- The text of an expression over floating-point numbers. -/
def render (e : Expr Float) : String := e.renderWith Decimal.Style.plain.float

end Expr

end Downhill
