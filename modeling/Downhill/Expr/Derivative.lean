/-
Variables and symbolic derivatives.

The derivative is again an expression, built with the simplifying operators, so
terms that vanish drop out of it.  The partial derivatives are kept by the
variable that they are taken for: one for each variable that the expression
mentions, even where the partial is a constant.
-/
import Downhill.Expr.Eval

namespace Downhill

namespace Expr

variable {α : Type}

/-! ### Variables -/

/-- The variable names at the leaves, from left to right and with repetitions. -/
def occurrences : Expr α → List String
  | const _ => []
  | var name => [name]
  | sum l r => l.occurrences ++ r.occurrences
  | product l r => l.occurrences ++ r.occurrences

/-- The variables as a set. -/
def variableSet (e : Expr α) : Bindings Unit :=
  Bindings.ofList (e.occurrences.map fun name => (name, ()))

/-- The names of the variables, in order and without repetition. -/
def variableNames (e : Expr α) : List String := e.variableSet.keys

/-! ### Derivatives -/

/-- The derivative with respect to one variable, by the sum and product rules. -/
def derivative [Zero α] [One α] [Add α] [Mul α] [BEq α] (name : String) : Expr α → Expr α
  | const _ => const 0
  | var other => const (if other = name then 1 else 0)
  | sum l r => l.derivative name + r.derivative name
  | product l r => l * r.derivative name + l.derivative name * r

/-- The partial derivative for each variable of the expression. -/
def partials [Zero α] [One α] [Add α] [Mul α] [BEq α] (e : Expr α) : Bindings (Expr α) :=
  e.variableSet.map fun name _ => e.derivative name

end Expr

end Downhill
