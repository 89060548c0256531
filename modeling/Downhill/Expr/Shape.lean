/-
Telling the nodes of an expression apart.

Every node has a `Kind`.  The two leaf kinds have an identity of their own, the
type `Leaf`, which can be compared and counted; compound nodes have none.  What
reads a node as one kind and finds another answers with a `ShapeError`.
-/
import Downhill.Expr.Basic

namespace Downhill

namespace Expr

/-- What a node of an expression is. -/
inductive Kind where
  | sum
  | product
  | const
  | var
  deriving DecidableEq, Repr

/-- The word for a kind of node. -/
def Kind.name : Kind → String
  | sum => "sum"
  | product => "product"
  | const => "constant"
  | var => "variable"

/-- What an operation may ask a node to be. -/
inductive Shape where
  | sum
  | product
  | leaf
  deriving DecidableEq, Repr

/-- The words for what was asked. -/
def Shape.name : Shape → String
  | sum => "sum"
  | product => "product"
  | leaf => "constant or variable"

/-- A node was not what an operation asked it to be. -/
structure ShapeError where
  /-- What the operation asked for. -/
  expected : Shape
  /-- What the node is. -/
  found : Kind
  deriving DecidableEq, Repr

namespace ShapeError

/-- The error in words. -/
def message (e : ShapeError) : String :=
  "expected " ++ e.expected.name ++ ", found " ++ e.found.name

/-- The words for a node that was taken apart without looking at its kind first. -/
def misuse (e : ShapeError) : String := "wrong expression variant: " ++ e.message

end ShapeError

variable {α : Type}

/-- The kind of the outermost node. -/
def kind : Expr α → Kind
  | Expr.sum .. => .sum
  | Expr.product .. => .product
  | Expr.const _ => .const
  | Expr.var _ => .var

/-! ### Operands -/

/-- The two terms of a sum. -/
def terms : Expr α → Except ShapeError (Expr α × Expr α)
  | Expr.sum l r => .ok (l, r)
  | e => .error ⟨.sum, e.kind⟩

/-- The two factors of a product. -/
def factors : Expr α → Except ShapeError (Expr α × Expr α)
  | Expr.product l r => .ok (l, r)
  | e => .error ⟨.product, e.kind⟩

/-- The first term of a sum. -/
def addend (e : Expr α) : Except ShapeError (Expr α) := e.terms.map Prod.fst

/-- The second term of a sum. -/
def augend (e : Expr α) : Except ShapeError (Expr α) := e.terms.map Prod.snd

/-- The first factor of a product. -/
def multiplier (e : Expr α) : Except ShapeError (Expr α) := e.factors.map Prod.fst

/-- The second factor of a product. -/
def multiplicand (e : Expr α) : Except ShapeError (Expr α) := e.factors.map Prod.snd

/-! ### Leaves -/

/-- An expression without operands. -/
inductive Leaf (α : Type) where
  | const (value : α)
  | var (name : String)

/-- A leaf as an expression. -/
def Leaf.toExpr : Leaf α → Expr α
  | .const c => Expr.const c
  | .var name => Expr.var name

/-- Two leaves are the same when they are variables of one name or constants of
one value.  All zeros are one value here and all NaNs are another, which makes
this an equivalence although the numbers' own test is not. -/
instance [BEq α] : BEq (Leaf α) where
  beq
    | .const a, .const b => a == b || (a != a && b != b)
    | .var a, .var b => a == b
    | _, _ => false

/-- The leaf that an expression is. -/
def leaf : Expr α → Except ShapeError (Leaf α)
  | const c => .ok (.const c)
  | var name => .ok (.var name)
  | e => .error ⟨.leaf, e.kind⟩

/-- How many different leaves a list holds. -/
def Leaf.countDistinct [BEq α] (leaves : List (Leaf α)) : Nat := leaves.eraseDups.length

/-- The value of a constant. -/
def asConst? : Expr α → Option α
  | const c => some c
  | _ => none

/-- The name of a variable. -/
def asVar? : Expr α → Option String
  | var name => some name
  | _ => none

end Expr

end Downhill
