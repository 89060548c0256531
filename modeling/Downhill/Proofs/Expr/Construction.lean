/-
Building an expression with the simplifying operators and without.

A `Recipe` says how an expression is put together.  It can be followed with the operators,
which simplify at every step, or with bare nodes, which leave everything as it was said.  The
two trees may have little in common: a zero factor takes a whole subtree with it, and a
negation is pushed down to the leaves.  Yet they have the same value wherever no node of the
bare tree leaves the finite numbers (`eval_build`).

Each rewriting may change the sign of a zero, and nothing else.  So values are compared as
rationals, for which there is one zero only: `ComesTo` evaluates an expression on exact
numbers and rounds at every node.  It holds of simplified sums, products and negations as it
does of bare ones, because rounding leaves floats alone and treats both sides of zero alike.
-/
import Downhill.Proofs.Expr.Simplification
import Downhill.Proofs.Float.Subtraction

namespace Downhill

open Binary64

/-! ### Recipes -/

/-- An operation with two operands. -/
inductive Operation where
  | sum
  | product
  | difference
  deriving DecidableEq, Repr

/-- How an expression is put together. -/
inductive Recipe (α : Type) where
  | const (value : α)
  | var (name : String)
  | negation (r : Recipe α)
  | combination (op : Operation) (l r : Recipe α)
  /-- The residual of an equation. -/
  | equation (l r : Recipe α)
  /-- An operation on a number and an expression. -/
  | scalarLeft (op : Operation) (value : α) (r : Recipe α)
  /-- An operation on an expression and a number. -/
  | scalarRight (op : Operation) (l : Recipe α) (value : α)

section

variable {α : Type} [One α] [Neg α]

/-- The operation as nodes.  To subtract is to add the product with minus one. -/
def Operation.bare (l r : Expr α) : Operation → Expr α
  | sum => .sum l r
  | product => .product l r
  | difference => .sum l (.product (.const (-1)) r)

/-- The tree that a recipe describes, to the letter. -/
def Recipe.bare : Recipe α → Expr α
  | const c => .const c
  | var name => .var name
  | negation r => .product (.const (-1)) r.bare
  | combination op l r => op.bare l.bare r.bare
  | equation l r => Operation.difference.bare l.bare r.bare
  | scalarLeft op c r => op.bare (.const c) r.bare
  | scalarRight op l c => op.bare l.bare (.const c)

variable [Zero α] [Add α] [Mul α] [BEq α]

/-- The operation with simplification. -/
def Operation.build (l r : Expr α) : Operation → Expr α
  | sum => l + r
  | product => l * r
  | difference => l - r

/-- The tree that the operators build by a recipe. -/
def Recipe.build : Recipe α → Expr α
  | const c => .const c
  | var name => .var name
  | negation r => -r.build
  | combination op l r => op.build l.build r.build
  | equation l r => Expr.equation l.build r.build
  | scalarLeft op c r => op.build (.const c) r.build
  | scalarRight op l c => op.build l.build (.const c)

end

namespace Expr

/-- All nodes of an expression, itself included. -/
def nodes {α : Type} : Expr α → List (Expr α)
  | const c => [const c]
  | var name => [var name]
  | sum l r => sum l r :: (l.nodes ++ r.nodes)
  | product l r => product l r :: (l.nodes ++ r.nodes)

/-! ### Rounding at every node -/

/-- Every node of the expression is finite at the point, and its value is that of the exact
operation on the values of its operands, rounded. -/
inductive ComesTo (p : Point Float) : Expr Float → ℚ → Prop where
  | const {c : Float} (finite : c.isFinite = true) : ComesTo p (const c) (value c)
  | var {name : String} {x : Float} (found : p.get? name = some x) (finite : x.isFinite = true) :
      ComesTo p (var name) (value x)
  | sum {l r : Expr Float} {a b : ℚ} (left : ComesTo p l a) (right : ComesTo p r b)
      (in_range : |rounded (a + b)| < limit) : ComesTo p (sum l r) (rounded (a + b))
  | product {l r : Expr Float} {a b : ℚ} (left : ComesTo p l a) (right : ComesTo p r b)
      (in_range : |rounded (a * b)| < limit) : ComesTo p (product l r) (rounded (a * b))

section

variable {p : Point Float} {e l r : Expr Float} {a b : ℚ}

theorem ComesTo.exists_eval (h : ComesTo p e a) :
    ∃ v, e.eval p = .ok v ∧ v.isFinite = true ∧ value v = a := by
  induction h with
  | @const c finite => exact ⟨c, rfl, finite, rfl⟩
  | @var name x found finite => exact ⟨x, eval_var_eq_ok_iff.mpr found, finite, rfl⟩
  | sum left right in_range ihl ihr =>
      obtain ⟨x, hx, finite_x, rfl⟩ := ihl
      obtain ⟨y, hy, finite_y, rfl⟩ := ihr
      have result := yields_add finite_x finite_y
      exact ⟨x + y, eval_sum_eq_ok_iff.mpr ⟨x, y, hx, hy, rfl⟩, result.isFinite_iff.mpr in_range,
        result.value_eq⟩
  | product left right in_range ihl ihr =>
      obtain ⟨x, hx, finite_x, rfl⟩ := ihl
      obtain ⟨y, hy, finite_y, rfl⟩ := ihr
      have result := yields_mul finite_x finite_y
      exact ⟨x * y, eval_product_eq_ok_iff.mpr ⟨x, y, hx, hy, rfl⟩,
        result.isFinite_iff.mpr in_range, result.value_eq⟩

theorem ComesTo.of_eval {v : Float} (h : ComesTo p e a) (hv : e.eval p = .ok v) :
    v.isFinite = true ∧ value v = a := by
  obtain ⟨v', hv', finite, value_eq⟩ := h.exists_eval
  obtain rfl := Except.ok.inj (hv.symm.trans hv')
  exact ⟨finite, value_eq⟩

/-- An expression whose nodes are all finite comes to something. -/
theorem exists_comesTo (finite : ∀ node ∈ e.nodes, ∃ v, node.eval p = .ok v ∧ v.isFinite = true) :
    ∃ a, ComesTo p e a := by
  induction e with
  | const c =>
      obtain ⟨v, hv, finite_v⟩ := finite (const c) List.mem_cons_self
      cases hv
      exact ⟨value c, .const finite_v⟩
  | var name =>
      obtain ⟨x, hx, finite_x⟩ := finite (var name) List.mem_cons_self
      exact ⟨value x, .var (eval_var_eq_ok_iff.mp hx) finite_x⟩
  | sum l r ihl ihr =>
      obtain ⟨v, hv, finite_v⟩ := finite (sum l r) List.mem_cons_self
      obtain ⟨x, y, hx, hy, rfl⟩ := eval_sum_eq_ok_iff.mp hv
      obtain ⟨a, left⟩ := ihl fun node mem => finite node (by simp [nodes, mem])
      obtain ⟨b, right⟩ := ihr fun node mem => finite node (by simp [nodes, mem])
      obtain ⟨finite_x, rfl⟩ := left.of_eval hx
      obtain ⟨finite_y, rfl⟩ := right.of_eval hy
      exact ⟨_, .sum left right ((yields_add finite_x finite_y).isFinite_iff.mp finite_v)⟩
  | product l r ihl ihr =>
      obtain ⟨v, hv, finite_v⟩ := finite (product l r) List.mem_cons_self
      obtain ⟨x, y, hx, hy, rfl⟩ := eval_product_eq_ok_iff.mp hv
      obtain ⟨a, left⟩ := ihl fun node mem => finite node (by simp [nodes, mem])
      obtain ⟨b, right⟩ := ihr fun node mem => finite node (by simp [nodes, mem])
      obtain ⟨finite_x, rfl⟩ := left.of_eval hx
      obtain ⟨finite_y, rfl⟩ := right.of_eval hy
      exact ⟨_, .product left right ((yields_mul finite_x finite_y).isFinite_iff.mp finite_v)⟩

/-- What an expression comes to is the value of a float, so rounding leaves it alone. -/
theorem ComesTo.rounded_eq (h : ComesTo p e a) : rounded a = a := by
  obtain ⟨v, -, -, rfl⟩ := h.exists_eval
  exact rounded_value v

theorem ComesTo.of_isConst {c : Float} (h : ComesTo p e a) (is_const : e.isConst c = true) :
    a = value c := by
  obtain ⟨c', rfl, equal⟩ := isConst_eq_true_iff.mp is_const
  cases h
  exact (beq_iff.mp equal).2.2

theorem ComesTo.of_zero (h : ComesTo p e a) (zero : e.isConst 0 = true) : a = 0 :=
  (h.of_isConst zero).trans value_zero

theorem ComesTo.of_one (h : ComesTo p e a) (one : e.isConst 1 = true) : a = 1 :=
  (h.of_isConst one).trans value_one

/-! ### The operators -/

/-- **A simplified sum comes to what the bare one does.** -/
theorem ComesTo.add (left : ComesTo p l a) (right : ComesTo p r b)
    (in_range : |rounded (a + b)| < limit) : ComesTo p (l + r) (rounded (a + b)) := by
  have form := addForm_add l r
  generalize l + r = s at form
  cases form with
  | dropLeft zero =>
      rw [left.of_zero zero, zero_add, right.rounded_eq]
      exact right
  | dropRight _ zero =>
      rw [right.of_zero zero, add_zero, left.rounded_eq]
      exact left
  | folded hl hr =>
      subst hl hr
      cases left with
      | const finite_x =>
          cases right with
          | const finite_y =>
              have result := yields_add finite_x finite_y
              rw [← result.value_eq]
              exact .const (result.isFinite_iff.mpr in_range)
  | node => exact .sum left right in_range

/-- **A simplified product comes to what the bare one does.** -/
theorem ComesTo.mul (left : ComesTo p l a) (right : ComesTo p r b)
    (in_range : |rounded (a * b)| < limit) : ComesTo p (l * r) (rounded (a * b)) := by
  have form := mulForm_mul l r
  generalize l * r = s at form
  cases form with
  | zero zero =>
      have vanishes : a * b = 0 := by
        rcases zero with zero | zero
        · rw [left.of_zero zero, zero_mul]
        · rw [right.of_zero zero, mul_zero]
      rw [vanishes, rounded_zero]
      exact .const isFinite_zero
  | dropLeft _ _ one =>
      rw [left.of_one one, one_mul, right.rounded_eq]
      exact right
  | dropRight _ _ _ one =>
      rw [right.of_one one, mul_one, left.rounded_eq]
      exact left
  | folded hl hr =>
      subst hl hr
      cases left with
      | const finite_x =>
          cases right with
          | const finite_y =>
              have result := yields_mul finite_x finite_y
              rw [← result.value_eq]
              exact .const (result.isFinite_iff.mpr in_range)
  | node => exact .product left right in_range

theorem value_neg_one : value (-1 : Float) = -1 := by
  rw [value_neg]
  exact congrArg Neg.neg value_one

/-- The product with minus one comes to the opposite. -/
theorem comesTo_neg_one_mul_iff :
    ComesTo p (product (const (-1)) e) a ↔ ComesTo p e (-a) := by
  constructor
  · intro h
    cases h with
    | product left right in_range =>
        cases left with
        | const finite =>
            rw [value_neg_one, neg_one_mul, rounded_neg, right.rounded_eq, neg_neg]
            exact right
  · intro h
    have exact_eq : rounded (value (-1 : Float) * -a) = a := by
      rw [value_neg_one, neg_one_mul, neg_neg, ← neg_neg a, rounded_neg, h.rounded_eq]
    obtain ⟨v, -, finite, value_eq⟩ := h.exists_eval
    have in_range : |rounded (value (-1 : Float) * -a)| < limit := by
      rw [exact_eq, ← abs_neg, ← value_eq]
      exact (isFinite_iff.mp finite).2
    have product := ComesTo.product (.const (c := -1) rfl) h in_range
    rwa [exact_eq] at product

/-- **A negation comes to the opposite**, though the sign is pushed down to the leaves. -/
theorem ComesTo.neg (h : ComesTo p e a) : ComesTo p (-e) (-a) := by
  induction h with
  | const finite =>
      rw [← value_neg]
      exact .const ((isFinite_neg _).trans finite)
  | var found finite =>
      refine comesTo_neg_one_mul_iff.mpr ?_
      rw [neg_neg]
      exact .var found finite
  | @sum l r a b left right in_range ihl ihr =>
      have opposite : rounded (-a + -b) = -rounded (a + b) := by
        rw [← neg_add, rounded_neg]
      have size : |rounded (-a + -b)| = |rounded (a + b)| := by
        rw [opposite, abs_neg]
      rw [← opposite]
      exact ihl.add ihr (size.trans_lt in_range)
  | @product l r a b left right in_range ihl ihr =>
      have opposite : rounded (-a * b) = -rounded (a * b) := by
        rw [neg_mul, rounded_neg]
      have size : |rounded (-a * b)| = |rounded (a * b)| := by
        rw [opposite, abs_neg]
      rw [← opposite]
      exact ihl.mul right (size.trans_lt in_range)

end

end Expr

/-! ### The two trees of a recipe -/

section

open Downhill.Expr

variable {p : Point Float}

theorem Operation.comesTo_build {l r l' r' : Expr Float}
    (left : ∀ {b}, ComesTo p l b → ComesTo p l' b) (right : ∀ {b}, ComesTo p r b → ComesTo p r' b)
    (op : Operation) {a : ℚ} (h : ComesTo p (op.bare l r) a) : ComesTo p (op.build l' r') a := by
  cases op with
  | sum =>
      cases h with
      | sum hl hr in_range => exact (left hl).add (right hr) in_range
  | product =>
      cases h with
      | product hl hr in_range => exact (left hl).mul (right hr) in_range
  | difference =>
      cases h with
      | sum hl hr in_range =>
          have opposite := (right (comesTo_neg_one_mul_iff.mp hr)).neg
          rw [neg_neg] at opposite
          exact (left hl).add opposite in_range

/-- **Following a recipe with simplification comes to the same.** -/
theorem Recipe.comesTo_build (r : Recipe Float) :
    ∀ {a : ℚ}, ComesTo p r.bare a → ComesTo p r.build a := by
  induction r with
  | const c => exact id
  | var name => exact id
  | negation r ih =>
      intro a h
      have opposite := (ih (comesTo_neg_one_mul_iff.mp h)).neg
      rwa [neg_neg] at opposite
  | combination op l r ihl ihr => exact op.comesTo_build ihl ihr
  | equation l r ihl ihr => exact Operation.difference.comesTo_build ihl ihr
  | scalarLeft op c r ih => exact op.comesTo_build id ih
  | scalarRight op l c ih => exact op.comesTo_build ih id

/-- **Simplification does not change values.**  Where every node of the bare tree is finite, the
simplified tree has an equal value. -/
theorem Recipe.eval_build (r : Recipe Float) (p : Point Float)
    (finite : ∀ node ∈ r.bare.nodes, ∃ v, node.eval p = .ok v ∧ v.isFinite = true) :
    ∃ v w, r.bare.eval p = .ok v ∧ r.build.eval p = .ok w ∧ (v == w) = true := by
  obtain ⟨a, bare⟩ := exists_comesTo finite
  obtain ⟨v, hv, finite_v, value_v⟩ := bare.exists_eval
  obtain ⟨w, hw, finite_w, value_w⟩ := (r.comesTo_build bare).exists_eval
  refine ⟨v, w, hv, hw, beq_iff.mpr ⟨?_, ?_, value_v.trans value_w.symm⟩⟩
  · exact (isFinite_iff.mp finite_v).1
  · exact (isFinite_iff.mp finite_w).1

/-- The equation `0 * x + y * 1 = -((1 - 2) * x)`, of which `y - x` is left. -/
def Recipe.detour : Recipe Float :=
  .equation
    (.combination .sum (.scalarLeft .product 0 (.var "x")) (.scalarRight .product (.var "y") 1))
    (.negation (.combination .product (.scalarLeft .difference 1 (.const 2)) (.var "x")))

theorem Recipe.eval_build_detour :
    (∀ node ∈ detour.bare.nodes, ∃ v,
      node.eval (.ofList [("x", 3), ("y", 0.1)]) = .ok v ∧ v.isFinite = true) ∧
    detour.bare.nodes.length = 19 ∧ detour.build.nodes.length = 5 ∧
    ∃ v w, detour.bare.eval (.ofList [("x", 3), ("y", 0.1)]) = .ok v ∧
      detour.build.eval (.ofList [("x", 3), ("y", 0.1)]) = .ok w ∧ (v == w) = true := by
  have evaluated : ∀ node ∈ detour.bare.nodes,
      (node.eval (.ofList [("x", 3), ("y", 0.1)])).toOption.any Float.isFinite = true := by
    decide +kernel
  have finite : ∀ node ∈ detour.bare.nodes, ∃ v,
      node.eval (.ofList [("x", 3), ("y", 0.1)]) = .ok v ∧ v.isFinite = true := by
    intro node mem
    have seen := evaluated node mem
    cases h : node.eval (.ofList [("x", 3), ("y", 0.1)]) with
    | error e => simp [h, Except.toOption] at seen
    | ok v => exact ⟨v, rfl, by simpa [h, Except.toOption] using seen⟩
  exact ⟨finite, by decide +kernel, by decide +kernel, eval_build detour _ finite⟩

end

end Downhill
