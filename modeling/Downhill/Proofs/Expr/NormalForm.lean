/-
The normal form of what the operators build.

An expression is normal if none of its nodes is one that the operators would have simplified:
no sum has a zero term or two constant ones, and no product has a factor of zero or one or two
constant factors.

Sums and products of normal expressions are normal (`Normal.add`, `Normal.mul`), and so is
whatever is put together from constants and variables with the operators, even if it was
differentiated, squared and summed, and taken apart again on the way (`Constructed.normal`).  A
derivative copies old subtrees next to new ones, but it joins them with the operators; and the
one node that is made without them, a variable times minus one, is a node that they would have
made.

A negation is built anew, from the leaves up, and a node may be simplified on the way: a factor
of minus one turns into one, and goes.  But no more than that can happen to a normal
expression.  Its negation is a constant only if the expression is one
(`Normal.exists_const_of_neg`), so in particular no subtree turns into zero.
-/
import Downhill.Expr.Shape
import Downhill.Proofs.Expr.Construction
import Downhill.Proofs.Expr.SumOfSquares

namespace Downhill

open Binary64

namespace Expr

section

variable {α : Type} [Zero α] [One α] [BEq α]

/-- No node is one that the operators would have simplified. -/
inductive Normal : Expr α → Prop where
  | const (c : α) : Normal (const c)
  | var (name : String) : Normal (var name)
  | sum {l r : Expr α} (left : Normal l) (right : Normal r) (left_ne : l.isConst 0 = false)
      (right_ne : r.isConst 0 = false) (open_terms : ∀ a b, ¬ (l = const a ∧ r = const b)) :
      Normal (sum l r)
  | product {l r : Expr α} (left : Normal l) (right : Normal r) (left_ne : l.isConst 0 = false)
      (right_ne : r.isConst 0 = false) (left_ne_one : l.isConst 1 = false)
      (right_ne_one : r.isConst 1 = false)
      (open_factors : ∀ a b, ¬ (l = const a ∧ r = const b)) : Normal (product l r)

variable {e l r : Expr α}

/-! ### Node by node -/

/-- Whether the operators would have made something else of a node: of a sum with a zero term or
two constant ones, or of a product with a factor of zero or one or two constant ones. -/
def isSimplifiable : Expr α → Bool
  | sum l r => l.isConst 0 || r.isConst 0 || (l.asConst?.isSome && r.asConst?.isSome)
  | product l r =>
      l.isConst 0 || r.isConst 0 || l.isConst 1 || r.isConst 1 ||
        (l.asConst?.isSome && r.asConst?.isSome)
  | _ => false

omit [Zero α] [One α] [BEq α] in
theorem both_const_eq_false_iff :
    (l.asConst?.isSome && r.asConst?.isSome) = false ↔ ∀ a b, ¬ (l = const a ∧ r = const b) := by
  cases l <;> cases r <;> simp [asConst?]

theorem normal_sum_iff :
    Normal (sum l r) ↔ (sum l r).isSimplifiable = false ∧ Normal l ∧ Normal r := by
  simp only [isSimplifiable, Bool.or_eq_false_iff, both_const_eq_false_iff]
  constructor
  · intro normal
    cases normal with
    | sum left right left_ne right_ne open_terms =>
        exact ⟨⟨⟨left_ne, right_ne⟩, open_terms⟩, left, right⟩
  · rintro ⟨⟨⟨left_ne, right_ne⟩, open_terms⟩, left, right⟩
    exact .sum left right left_ne right_ne open_terms

theorem normal_product_iff :
    Normal (product l r) ↔ (product l r).isSimplifiable = false ∧ Normal l ∧ Normal r := by
  simp only [isSimplifiable, Bool.or_eq_false_iff, both_const_eq_false_iff]
  constructor
  · intro normal
    cases normal with
    | product left right left_ne right_ne left_ne_one right_ne_one open_factors =>
        exact ⟨⟨⟨⟨⟨left_ne, right_ne⟩, left_ne_one⟩, right_ne_one⟩, open_factors⟩, left, right⟩
  · rintro ⟨⟨⟨⟨⟨left_ne, right_ne⟩, left_ne_one⟩, right_ne_one⟩, open_factors⟩, left, right⟩
    exact .product left right left_ne right_ne left_ne_one right_ne_one open_factors

/-- **A tree is normal if there is nothing to simplify at any of its nodes.** -/
theorem normal_iff : Normal e ↔ ∀ node ∈ e.nodes, node.isSimplifiable = false := by
  induction e with
  | const c => simp [nodes, isSimplifiable, Normal.const]
  | var name => simp [nodes, isSimplifiable, Normal.var]
  | sum l r ihl ihr =>
      simp only [nodes, List.forall_mem_cons, List.forall_mem_append, normal_sum_iff, ihl, ihr]
  | product l r ihl ihr =>
      simp only [nodes, List.forall_mem_cons, List.forall_mem_append, normal_product_iff, ihl, ihr]

instance : DecidablePred (Normal (α := α)) := fun _ => decidable_of_iff _ normal_iff.symm

/-! ### Sums and products -/

theorem Normal.add [Add α] (left : Normal l) (right : Normal r) : Normal (l + r) := by
  have form := addForm_add l r
  generalize l + r = s at form
  cases form with
  | dropLeft => exact right
  | dropRight => exact left
  | folded => exact .const _
  | node left_ne right_ne open_terms => exact .sum left right left_ne right_ne open_terms

theorem Normal.mul [Mul α] (left : Normal l) (right : Normal r) : Normal (l * r) := by
  have form := mulForm_mul l r
  generalize l * r = s at form
  cases form with
  | zero => exact .const 0
  | dropLeft => exact right
  | dropRight => exact left
  | folded => exact .const _
  | node left_ne right_ne left_ne_one right_ne_one open_factors =>
      exact .product left right left_ne right_ne left_ne_one right_ne_one open_factors

theorem normal_sumOfSquares [Add α] [Mul α] {residuals : List (Expr α)}
    (normal : ∀ r ∈ residuals, Normal r) : Normal (sumOfSquares residuals) := by
  induction residuals using List.reverseRecOn with
  | nil => exact .const 0
  | append_singleton residuals r ih =>
      rw [List.forall_mem_append, List.forall_mem_singleton] at normal
      obtain ⟨earlier, last⟩ := normal
      rw [sumOfSquares_append_singleton]
      exact (ih earlier).add (last.mul last)

/-! ### Derivatives and operands -/

theorem Normal.derivative [Add α] [Mul α] (normal : Normal e) (x : String) :
    Normal (e.derivative x) := by
  induction normal with
  | const c => exact .const 0
  | var name => exact .const _
  | sum _ _ _ _ _ ihl ihr => exact ihl.add ihr
  | product left right _ _ _ _ _ ihl ihr => exact (left.mul ihr).add (ihl.mul right)

/-- Bare nodes stay in a derivative, and so they may show in it. -/
example : ¬ Normal ((product (sum (const 1) (const 2)) (var "x") : Expr Float).derivative "x") := by
  decide +kernel

/-- An expression has `t` as a term or as a factor. -/
def HasOperand (e t : Expr α) : Prop :=
  e.addend = .ok t ∨ e.augend = .ok t ∨ e.multiplier = .ok t ∨ e.multiplicand = .ok t

omit [Zero α] [One α] [BEq α] in
theorem hasOperand_iff {t : Expr α} :
    e.HasOperand t ↔ ∃ l r, (e = sum l r ∨ e = product l r) ∧ (t = l ∨ t = r) := by
  cases e <;>
    simp [HasOperand, addend, augend, multiplier, multiplicand, terms, factors, Except.map, eq_comm]

theorem Normal.operand (normal : Normal e) {t : Expr α} (operand : e.HasOperand t) : Normal t := by
  obtain ⟨l, r, rfl | rfl, part⟩ := hasOperand_iff.mp operand
  · obtain ⟨-, left, right⟩ := normal_sum_iff.mp normal
    rcases part with rfl | rfl
    · exact left
    · exact right
  · obtain ⟨-, left, right⟩ := normal_product_iff.mp normal
    rcases part with rfl | rfl
    · exact left
    · exact right

end

/-! ### Negations -/

theorem Normal.neg {e : Expr Float} (normal : Normal e) : Normal (-e) := by
  induction normal with
  | const c => exact .const (-c)
  | var name =>
      refine .product (.const (-1)) (.var name) rfl rfl rfl rfl ?_
      rintro a b ⟨-, ⟨⟩⟩
  | sum _ _ _ _ _ ihl ihr => exact ihl.add ihr
  | product _ right _ _ _ _ _ ihl _ => exact ihl.mul right

theorem neg_beq_zero (c : Float) : (-c == 0) = (c == 0) := by
  have zero : value 0 = 0 := rfl
  rw [Bool.eq_iff_iff, beq_iff, beq_iff, isNaN_neg, value_neg, zero, neg_eq_zero]

/-- The negation of an expression that is not a constant is not zero, and that of a constant only
if the constant is. -/
theorem isConst_zero_of_neg {e : Expr Float} (constant : ∀ c, -e = .const c → ∃ c', e = .const c')
    (zero : (-e).isConst 0 = true) : e.isConst 0 = true := by
  obtain ⟨c, neg_eq, is_zero⟩ := isConst_eq_true_iff.mp zero
  obtain ⟨c', rfl⟩ := constant c neg_eq
  cases neg_eq
  exact (neg_beq_zero c').symm.trans is_zero

/-- **The negation of a normal expression is a constant only if the expression is.** -/
theorem Normal.exists_const_of_neg {e : Expr Float} (normal : Normal e) :
    ∀ c, -e = .const c → ∃ c', e = .const c' := by
  induction normal with
  | const c => exact fun _ _ => ⟨c, rfl⟩
  | var name => rintro c ⟨⟩
  | sum _ _ left_ne right_ne open_terms ihl ihr =>
      -- if the negated terms collapse, then the terms would have done so before
      intro c constant
      exfalso
      rcases of_add_eq_const constant with zero | zero | ⟨a, b, left, right⟩
      · cases left_ne.symm.trans (isConst_zero_of_neg ihl zero)
      · cases right_ne.symm.trans (isConst_zero_of_neg ihr zero)
      · obtain ⟨a', rfl⟩ := ihl a left
        obtain ⟨b', rfl⟩ := ihr b right
        exact open_terms a' b' ⟨rfl, rfl⟩
  | product _ _ left_ne right_ne _ right_ne_one open_factors ihl _ =>
      intro c constant
      exfalso
      rcases of_mul_eq_const constant with (zero | zero) | one | ⟨a, b, left, right⟩
      · cases left_ne.symm.trans (isConst_zero_of_neg ihl zero)
      · cases right_ne.symm.trans zero
      · cases right_ne_one.symm.trans one
      · obtain ⟨a', rfl⟩ := ihl a left
        exact open_factors a' b ⟨rfl, right⟩

theorem Normal.neg_ne_zero {e : Expr Float} (normal : Normal e) (ne : e.isConst 0 = false) :
    (-e).isConst 0 = false := by
  rw [← Bool.not_eq_true]
  intro zero
  cases ne.symm.trans (isConst_zero_of_neg normal.exists_const_of_neg zero)

end Expr

/-! ### What the operators can make -/

open Downhill.Expr

theorem Operation.normal_build {l r : Expr Float} (left : Normal l) (right : Normal r)
    (op : Operation) : Normal (op.build l r) := by
  cases op with
  | sum => exact left.add right
  | product => exact left.mul right
  | difference => exact left.add right.neg

/-- What can be made of constants and variables without naming a bare node: with the operators,
where a number stands for a constant, with sums of squares and derivatives, and by taking the
operands of what was made. -/
inductive Expr.Constructed {α : Type} [Zero α] [One α] [Add α] [Mul α] [Neg α] [BEq α] :
    Expr α → Prop where
  | const (c : α) : Constructed (.const c)
  | var (name : String) : Constructed (.var name)
  | operation (op : Operation) {l r : Expr α} (left : Constructed l) (right : Constructed r) :
      Constructed (op.build l r)
  | negation {e : Expr α} (positive : Constructed e) : Constructed (-e)
  | equation {l r : Expr α} (left : Constructed l) (right : Constructed r) :
      Constructed (Expr.equation l r)
  | sumOfSquares {residuals : List (Expr α)} (each : ∀ r ∈ residuals, Constructed r) :
      Constructed (Downhill.sumOfSquares residuals)
  | derivative {e : Expr α} (whole : Constructed e) (x : String) : Constructed (e.derivative x)
  | operand {e t : Expr α} (whole : Constructed e) (operand : e.HasOperand t) : Constructed t

/-- **Whatever the operators make is normal**, also after differentiating it and taking it apart. -/
theorem Expr.Constructed.normal {e : Expr Float} (made : Constructed e) : Normal e := by
  induction made with
  | const c => exact .const c
  | var name => exact .var name
  | operation op _ _ left right => exact op.normal_build left right
  | negation _ positive => exact positive.neg
  | equation _ _ left right => exact Operation.difference.normal_build left right
  | sumOfSquares _ each => exact normal_sumOfSquares each
  | derivative _ x whole => exact whole.derivative x
  | operand _ operand whole => exact whole.operand operand

/-- What a recipe says is made with the operators. -/
theorem Recipe.constructed {α : Type} [Zero α] [One α] [Add α] [Mul α] [Neg α] [BEq α]
    (r : Recipe α) : Constructed r.build := by
  induction r with
  | const c => exact .const c
  | var name => exact .var name
  | negation _ ih => exact .negation ih
  | combination op _ _ ihl ihr => exact .operation op ihl ihr
  | equation _ _ ihl ihr => exact .equation ihl ihr
  | scalarLeft op c _ ih => exact .operation op (.const c) ih
  | scalarRight op _ c ih => exact .operation op ih (.const c)

/-- So whatever a recipe builds is normal. -/
theorem Recipe.normal_build (r : Recipe Float) : Normal r.build := r.constructed.normal

end Downhill
