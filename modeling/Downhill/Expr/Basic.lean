/-
Symbolic expressions.

An `Expr` is a tree of sums and products over constants and named variables.
The constructors build exactly the node they name; the operators `+`, `*` and
`-` build the same value but simplify as they go.  They apply these rules and no
others, so terms are never reordered or collected:

    0 + e = e    e + 0 = e    0 * e = 0    e * 0 = 0    1 * e = e    e * 1 = e

and an operation on two constants folds to one constant.
-/
import Downhill.Scalar

namespace Downhill

/-- A symbolic expression over named variables, with constants from `α`. -/
inductive Expr (α : Type) where
  /-- A constant. -/
  | const (value : α)
  /-- A variable, to be looked up at the point of evaluation. -/
  | var (name : String)
  /-- A sum of two terms. -/
  | sum (l r : Expr α)
  /-- A product of two factors. -/
  | product (l r : Expr α)

namespace Expr

variable {α : Type}

instance [Zero α] : Inhabited (Expr α) := ⟨const 0⟩

/-! ### The simplifying operators -/

/-- Whether the expression is a constant that the number test calls equal to
`value`; so `-0.0` counts as zero, and no constant counts as NaN. -/
def isConst [BEq α] (value : α) : Expr α → Bool
  | const c => c == value
  | _ => false

/-- The sum, with zero terms dropped and two constants folded. -/
protected def add [Zero α] [Add α] [BEq α] (l r : Expr α) : Expr α :=
  if l.isConst 0 then r
  else if r.isConst 0 then l
  else match l, r with
    | const a, const b => const (a + b)
    | _, _ => sum l r

/-- The product; a zero factor leaves zero, factors of one are dropped, and two
constants fold.  The zeros are tested first, on both sides, so `1 * 0` is the
constant zero and not whichever zero was written. -/
protected def mul [Zero α] [One α] [Mul α] [BEq α] (l r : Expr α) : Expr α :=
  if l.isConst 0 || r.isConst 0 then const 0
  else if l.isConst 1 then r
  else if r.isConst 1 then l
  else match l, r with
    | const a, const b => const (a * b)
    | _, _ => product l r

instance [Zero α] [Add α] [BEq α] : Add (Expr α) := ⟨Expr.add⟩

instance [Zero α] [One α] [Mul α] [BEq α] : Mul (Expr α) := ⟨Expr.mul⟩

/-- The negation, with the sign pushed down to the leaves: into both terms of a
sum, into the left factor of a product, and in front of a variable. -/
protected def neg [Zero α] [One α] [Add α] [Mul α] [Neg α] [BEq α] : Expr α → Expr α
  | const c => const (-c)
  | var name => product (const (-1)) (var name)
  | product l r => l.neg * r
  | sum l r => l.neg + r.neg

instance [Zero α] [One α] [Add α] [Mul α] [Neg α] [BEq α] : Neg (Expr α) := ⟨Expr.neg⟩

/-- The difference is the sum with the negation. -/
instance [Zero α] [One α] [Add α] [Mul α] [Neg α] [BEq α] : Sub (Expr α) :=
  ⟨fun l r => l + -r⟩

/-- The residual of the equation `l = r`: the difference of its two sides, which
is zero exactly where the equation holds. -/
def equation [Zero α] [One α] [Add α] [Mul α] [Neg α] [BEq α] (l r : Expr α) : Expr α :=
  l - r

end Expr

end Downhill
