/-
What the simplifying operators can come to.

`+` and `*` on expressions look at their operands before they build a node.  The
relations `AddForm` and `MulForm` list the outcomes, each with the tests that lead
to it, and `addForm_add` and `mulForm_mul` say that there are no others.  Whatever
is proved about simplified trees is a case distinction on these two.

Evaluating a simplified sum or product is not quite evaluating its operands: a
dropped operand is never looked at, and a dropped zero may have had a sign.
`eval_add` and `eval_mul` say that over exact arithmetic neither matters, as long as
both operands have a value.
-/
import Downhill.Expr.Eval
import Mathlib.Algebra.Ring.Defs

namespace Downhill

namespace Expr

variable {α : Type}

/-! ### Outcomes -/

theorem isConst_eq_true_iff [BEq α] {value : α} {e : Expr α} :
    e.isConst value = true ↔ ∃ c, e = const c ∧ (c == value) = true := by
  cases e <;> simp [isConst]

section

variable [Zero α] [BEq α]

/-- What a simplified sum can be. -/
inductive AddForm [Add α] (l r : Expr α) : Expr α → Prop where
  | dropLeft (zero : l.isConst 0 = true) : AddForm l r r
  | dropRight (nonzero : l.isConst 0 = false) (zero : r.isConst 0 = true) : AddForm l r l
  | folded {a b : α} (left : l = const a) (right : r = const b) (left_ne : (a == 0) = false)
      (right_ne : (b == 0) = false) : AddForm l r (const (a + b))
  | node (left_ne : l.isConst 0 = false) (right_ne : r.isConst 0 = false)
      (open_terms : ∀ a b, ¬ (l = const a ∧ r = const b)) : AddForm l r (sum l r)

theorem addForm_add [Add α] (l r : Expr α) : AddForm l r (l + r) := by
  show AddForm l r (Expr.add l r)
  unfold Expr.add
  split
  · rename_i zero
    exact .dropLeft zero
  rename_i left_ne
  rw [Bool.not_eq_true] at left_ne
  split
  · rename_i zero
    exact .dropRight left_ne zero
  rename_i right_ne
  rw [Bool.not_eq_true] at right_ne
  split
  · exact .folded rfl rfl left_ne right_ne
  · rename_i open_terms
    exact .node left_ne right_ne fun a b both => open_terms a b both.1 both.2

/-- What a simplified product can be. -/
inductive MulForm [One α] [Mul α] (l r : Expr α) : Expr α → Prop where
  | zero (zero : l.isConst 0 = true ∨ r.isConst 0 = true) : MulForm l r (const 0)
  | dropLeft (left_ne : l.isConst 0 = false) (right_ne : r.isConst 0 = false)
      (one : l.isConst 1 = true) : MulForm l r r
  | dropRight (left_ne : l.isConst 0 = false) (right_ne : r.isConst 0 = false)
      (not_one : l.isConst 1 = false) (one : r.isConst 1 = true) : MulForm l r l
  | folded {a b : α} (left : l = const a) (right : r = const b) (left_ne : (a == 0) = false)
      (right_ne : (b == 0) = false) (left_ne_one : (a == 1) = false)
      (right_ne_one : (b == 1) = false) : MulForm l r (const (a * b))
  | node (left_ne : l.isConst 0 = false) (right_ne : r.isConst 0 = false)
      (left_ne_one : l.isConst 1 = false) (right_ne_one : r.isConst 1 = false)
      (open_factors : ∀ a b, ¬ (l = const a ∧ r = const b)) : MulForm l r (product l r)

theorem mulForm_mul [One α] [Mul α] (l r : Expr α) : MulForm l r (l * r) := by
  show MulForm l r (Expr.mul l r)
  unfold Expr.mul
  split
  · rename_i zero
    exact .zero (Bool.or_eq_true_iff.mp zero)
  rename_i nonzero
  rw [Bool.not_eq_true, Bool.or_eq_false_iff] at nonzero
  obtain ⟨left_ne, right_ne⟩ := nonzero
  split
  · rename_i one
    exact .dropLeft left_ne right_ne one
  rename_i left_ne_one
  rw [Bool.not_eq_true] at left_ne_one
  split
  · rename_i one
    exact .dropRight left_ne right_ne left_ne_one one
  rename_i right_ne_one
  rw [Bool.not_eq_true] at right_ne_one
  split
  · exact .folded rfl rfl left_ne right_ne left_ne_one right_ne_one
  · rename_i open_factors
    exact .node left_ne right_ne left_ne_one right_ne_one
      fun a b both => open_factors a b both.1 both.2

theorem add_of_isConst_zero [Add α] {l r : Expr α} (h : l.isConst 0 = true) : l + r = r := if_pos h

theorem mul_of_isConst_zero [One α] [Mul α] {l r : Expr α}
    (h : l.isConst 0 = true ∨ r.isConst 0 = true) : l * r = const 0 :=
  if_pos (Bool.or_eq_true_iff.mpr h)

theorem add_eq_sum [Add α] {l r : Expr α} (left_ne : l.isConst 0 = false)
    (right_ne : r.isConst 0 = false) (open_terms : ∀ a b, ¬ (l = const a ∧ r = const b)) :
    l + r = sum l r := by
  have form := addForm_add l r
  generalize l + r = s at form
  cases form with
  | dropLeft zero => cases left_ne.symm.trans zero
  | dropRight _ zero => cases right_ne.symm.trans zero
  | folded left right => exact (open_terms _ _ ⟨left, right⟩).elim
  | node => rfl

theorem mul_eq_product [One α] [Mul α] {l r : Expr α} (left_ne : l.isConst 0 = false)
    (right_ne : r.isConst 0 = false) (left_ne_one : l.isConst 1 = false)
    (right_ne_one : r.isConst 1 = false)
    (open_factors : ∀ a b, ¬ (l = const a ∧ r = const b)) : l * r = product l r := by
  have form := mulForm_mul l r
  generalize l * r = s at form
  cases form with
  | zero zero =>
      rcases zero with zero | zero
      · cases left_ne.symm.trans zero
      · cases right_ne.symm.trans zero
  | dropLeft _ _ one => cases left_ne_one.symm.trans one
  | dropRight _ _ _ one => cases right_ne_one.symm.trans one
  | folded left right => exact (open_factors _ _ ⟨left, right⟩).elim
  | node => rfl

/-- A sum collapses to a constant only if a term is zero or both are constants. -/
theorem of_add_eq_const [Add α] {l r : Expr α} {c : α} (h : l + r = const c) :
    l.isConst 0 = true ∨ r.isConst 0 = true ∨ ∃ a b, l = const a ∧ r = const b := by
  have form := addForm_add l r
  generalize l + r = s at form h
  cases form with
  | dropLeft zero => exact .inl zero
  | dropRight _ zero => exact .inr (.inl zero)
  | @folded a b left right => exact .inr (.inr ⟨a, b, left, right⟩)
  | node => cases h

/-- A product collapses to a constant only if a factor is zero, the right one is one, or both are
constants. -/
theorem of_mul_eq_const [One α] [Mul α] {l r : Expr α} {c : α} (h : l * r = const c) :
    (l.isConst 0 = true ∨ r.isConst 0 = true) ∨ r.isConst 1 = true ∨
      ∃ a b, l = const a ∧ r = const b := by
  have form := mulForm_mul l r
  generalize l * r = s at form h
  cases form with
  | zero zero => exact .inl zero
  | dropLeft _ _ one =>
      obtain ⟨a, left, -⟩ := isConst_eq_true_iff.mp one
      exact .inr (.inr ⟨a, c, left, h⟩)
  | dropRight _ _ _ one => exact .inr (.inl one)
  | @folded a b left right => exact .inr (.inr ⟨a, b, left, right⟩)
  | node => cases h

end

/-! ### Values -/

section

variable [Add α] [Mul α] {p : Point α}

theorem eval_var_eq_ok_iff {name : String} {v : α} :
    (var name).eval p = .ok v ↔ p.get? name = some v := by
  rw [eval, Point.value]
  cases p.get? name <;> simp

theorem eval_sum_eq_ok_iff {l r : Expr α} {v : α} :
    (sum l r).eval p = .ok v ↔ ∃ a b, l.eval p = .ok a ∧ r.eval p = .ok b ∧ v = a + b := by
  rw [eval]
  cases l.eval p with
  | error e => simp
  | ok a => cases r.eval p <;> simp [eq_comm]

theorem eval_product_eq_ok_iff {l r : Expr α} {v : α} :
    (product l r).eval p = .ok v ↔ ∃ a b, l.eval p = .ok a ∧ r.eval p = .ok b ∧ v = a * b := by
  rw [eval]
  cases l.eval p with
  | error e => simp
  | ok a => cases r.eval p <;> simp [eq_comm]

theorem eval_sum_eq_error_iff {l r : Expr α} {e : EvalError} :
    (sum l r).eval p = .error e ↔
      l.eval p = .error e ∨ ∃ a, l.eval p = .ok a ∧ r.eval p = .error e := by
  rw [eval]
  cases l.eval p with
  | error e => simp
  | ok a => cases r.eval p <;> simp

theorem eval_product_eq_error_iff {l r : Expr α} {e : EvalError} :
    (product l r).eval p = .error e ↔
      l.eval p = .error e ∨ ∃ a, l.eval p = .ok a ∧ r.eval p = .error e := by
  rw [eval]
  cases l.eval p with
  | error e => simp
  | ok a => cases r.eval p <;> simp

end

/-! ### Operands

Over any numbers at all, these are the values that a simplified tree can have. -/

section

variable [BEq α] [Add α] [Mul α] {p : Point α}

/-- A constant that passes a test for a value has a value that does. -/
theorem exists_eval_of_isConst {value : α} {e : Expr α} (h : e.isConst value = true) :
    ∃ c, e.eval p = .ok c ∧ (c == value) = true := by
  obtain ⟨c, rfl, same⟩ := isConst_eq_true_iff.mp h
  exact ⟨c, rfl, same⟩

variable [Zero α]

/-- The operands of a sum have values wherever the sum has one, which is their sum unless
one of them was dropped for being zero. -/
theorem exists_of_eval_add {l r : Expr α} {v : α} (h : (l + r).eval p = .ok v) :
    ∃ a b, l.eval p = .ok a ∧ r.eval p = .ok b ∧
      (v = a + b ∨ (a == 0) = true ∧ v = b ∨ (b == 0) = true ∧ v = a) := by
  have form := addForm_add l r
  generalize l + r = s at form h
  cases form with
  | dropLeft zero =>
      obtain ⟨a, ha, is_zero⟩ := exists_eval_of_isConst (p := p) zero
      exact ⟨a, v, ha, h, .inr (.inl ⟨is_zero, rfl⟩)⟩
  | dropRight _ zero =>
      obtain ⟨b, hb, is_zero⟩ := exists_eval_of_isConst (p := p) zero
      exact ⟨v, b, h, hb, .inr (.inr ⟨is_zero, rfl⟩)⟩
  | @folded a b left right =>
      subst left right
      cases h
      exact ⟨a, b, rfl, rfl, .inl rfl⟩
  | node =>
      obtain ⟨a, b, ha, hb, rfl⟩ := eval_sum_eq_ok_iff.mp h
      exact ⟨a, b, ha, hb, .inl rfl⟩

/-- An expression has a value wherever its square has one, which is the square of the
value unless it was dropped for being zero or one. -/
theorem exists_of_eval_square [One α] {e : Expr α} {v : α} (h : (e * e).eval p = .ok v) :
    ∃ a, e.eval p = .ok a ∧
      (v = a * a ∨ (a == 0) = true ∧ v = 0 ∨ (a == 1) = true ∧ v = a) := by
  have form := mulForm_mul e e
  generalize e * e = s at form h
  cases form with
  | zero zero =>
      obtain ⟨a, ha, is_zero⟩ := exists_eval_of_isConst (p := p) (or_self_iff.mp zero)
      cases h
      exact ⟨a, ha, .inr (.inl ⟨is_zero, rfl⟩)⟩
  | dropLeft _ _ one | dropRight _ _ _ one =>
      obtain ⟨a, ha, is_one⟩ := exists_eval_of_isConst (p := p) one
      cases h.symm.trans ha
      exact ⟨v, ha, .inr (.inr ⟨is_one, rfl⟩)⟩
  | @folded a b left right =>
      cases left.symm.trans right
      subst left
      cases h
      exact ⟨a, rfl, .inl rfl⟩
  | node =>
      obtain ⟨a, b, ha, hb, rfl⟩ := eval_product_eq_ok_iff.mp h
      cases ha.symm.trans hb
      exact ⟨a, ha, .inl rfl⟩

end

/-! ### Exact arithmetic -/

section

variable [CommSemiring α] [BEq α] [LawfulBEq α] {p : Point α} {l r : Expr α} {a b : α}

/-- A constant that passes a test for a value has that value. -/
theorem eval_of_isConst {value : α} (h : l.isConst value = true) (hl : l.eval p = .ok a) :
    a = value := by
  obtain ⟨c, rfl, same⟩ := isConst_eq_true_iff.mp h
  cases hl
  exact eq_of_beq same

/-- **Simplifying a sum keeps its value.** -/
theorem eval_add (hl : l.eval p = .ok a) (hr : r.eval p = .ok b) :
    (l + r).eval p = .ok (a + b) := by
  have form := addForm_add l r
  generalize l + r = s at form
  cases form with
  | dropLeft zero => rw [eval_of_isConst zero hl, zero_add, hr]
  | dropRight _ zero => rw [eval_of_isConst zero hr, add_zero, hl]
  | folded left right =>
      subst left right
      cases hl
      cases hr
      rfl
  | node => exact eval_sum_eq_ok_iff.mpr ⟨a, b, hl, hr, rfl⟩

/-- **Simplifying a product keeps its value.** -/
theorem eval_mul (hl : l.eval p = .ok a) (hr : r.eval p = .ok b) :
    (l * r).eval p = .ok (a * b) := by
  have form := mulForm_mul l r
  generalize l * r = s at form
  cases form with
  | zero zero =>
      rcases zero with left | right
      · rw [eval_of_isConst left hl, zero_mul]
        rfl
      · rw [eval_of_isConst right hr, mul_zero]
        rfl
  | dropLeft _ _ one => rw [eval_of_isConst one hl, one_mul, hr]
  | dropRight _ _ _ one => rw [eval_of_isConst one hr, mul_one, hl]
  | folded left right =>
      subst left right
      cases hl
      cases hr
      rfl
  | node => exact eval_product_eq_ok_iff.mpr ⟨a, b, hl, hr, rfl⟩

end

end Expr

end Downhill
