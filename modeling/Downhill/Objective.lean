/-
Objectives: what a solve makes small.

An `Objective` is an expression with its partial derivatives, differentiated once
and evaluated many times.  A system of equations becomes an objective by summing
the squares of its residuals: that sum is zero exactly at a common root.
-/
import Downhill.Expr.Derivative

namespace Downhill

variable {α : Type}

/-- The sum of the squares of a list of residuals, added up from zero. -/
def sumOfSquares [Zero α] [One α] [Add α] [Mul α] [BEq α] (residuals : List (Expr α)) : Expr α :=
  residuals.foldl (fun total r => total + r * r) (.const 0)

/-- An expression to minimise, with its partial derivatives at hand. -/
structure Objective (α : Type) [Zero α] [One α] [Add α] [Mul α] [BEq α] where
  /-- The expression. -/
  expr : Expr α
  /-- Its partial derivatives, by variable. -/
  partials : Bindings (Expr α)
  /-- They are the derivatives of the expression and of nothing else. -/
  partials_eq : partials = expr.partials

namespace Objective

variable [Zero α] [One α] [Add α] [Mul α] [BEq α]

/-- The objective of an expression. -/
def ofExpr (e : Expr α) : Objective α := ⟨e, e.partials, rfl⟩

/-- The objective of a system of equations, given by their residuals. -/
def ofEquations (residuals : List (Expr α)) : Objective α := ofExpr (sumOfSquares residuals)

/-- The value at a point. -/
def cost (o : Objective α) (p : Point α) : Except EvalError α := o.expr.eval p

/-- The partial derivatives at a point.  They are evaluated in name order, and of
several failures the first counts.  Partials may mention fewer variables than
the expression, so a gradient can exist where the cost does not. -/
def gradient (o : Objective α) (p : Point α) : Except EvalError (Point α) :=
  o.partials.traverse fun _ partialDerivative => partialDerivative.eval p

end Objective

end Downhill
