/-
Negation and subtraction are exact on whatever the operators build.

At every point that binds its variables, a negated expression has the negated value, and a
difference has the difference of the values (`Recipe.eval_sub`).  No rounding comes in, and
infinities and NaN are no exceptions.

This is not so of all expressions.  A simplified product of zero and anything is zero, but zero
times infinity is NaN, and a negation may simplify what was not simplified before.  So a
product keeps its value only if neither factor is the constant zero (`exists_eval_mul`); and
the negation of a normal expression multiplies no such factor.
-/
import Downhill.Proofs.Expr.NormalForm
import Downhill.Proofs.Expr.Variables
import Downhill.Proofs.Float.Identities

namespace Downhill

open Binary64

namespace Expr

variable {p : Point Float} {e l r : Expr Float} {a b v : Float}

/-! ### Operators on values -/

theorem alike_of_isConst {c : Float} (h : e.isConst c = true) (he : e.eval p = .ok v) :
    Alike v c := by
  obtain ⟨c', rfl, equal⟩ := isConst_eq_true_iff.mp h
  cases he
  exact alike_of_beq equal

/-- **A simplified sum has the value of the bare one**, but for the sign of a zero. -/
theorem exists_eval_add (hl : l.eval p = .ok a) (hr : r.eval p = .ok b) :
    ∃ w, (l + r).eval p = .ok w ∧ Alike w (a + b) := by
  have form := addForm_add l r
  generalize l + r = s at form
  cases form with
  | dropLeft zero =>
      have dropped := (alike_of_isConst zero hl).add (.refl b)
      exact ⟨b, hr, (dropped.trans (alike_zero_add b)).symm⟩
  | dropRight _ zero =>
      have dropped := (Alike.refl a).add (alike_of_isConst zero hr)
      exact ⟨a, hl, (dropped.trans (alike_add_zero a)).symm⟩
  | folded left right =>
      subst left right
      cases hl
      cases hr
      exact ⟨_, rfl, .refl _⟩
  | node => exact ⟨a + b, eval_sum_eq_ok_iff.mpr ⟨a, b, hl, hr, rfl⟩, .refl _⟩

/-- A simplified product has the value of the bare one, unless a factor is zero. -/
theorem exists_eval_mul (left_ne : l.isConst 0 = false) (right_ne : r.isConst 0 = false)
    (hl : l.eval p = .ok a) (hr : r.eval p = .ok b) :
    ∃ w, (l * r).eval p = .ok w ∧ Alike w (a * b) := by
  have form := mulForm_mul l r
  generalize l * r = s at form
  cases form with
  | zero zero =>
      rcases zero with zero | zero
      · cases left_ne.symm.trans zero
      · cases right_ne.symm.trans zero
  | dropLeft _ _ one =>
      have dropped := (alike_of_isConst one hl).mul (.refl b)
      exact ⟨b, hr, (dropped.trans (alike_one_mul b)).symm⟩
  | dropRight _ _ _ one =>
      have dropped := (Alike.refl a).mul (alike_of_isConst one hr)
      exact ⟨a, hl, (dropped.trans (alike_mul_one a)).symm⟩
  | folded left right =>
      subst left right
      cases hl
      cases hr
      exact ⟨_, rfl, .refl _⟩
  | node => exact ⟨a * b, eval_product_eq_ok_iff.mpr ⟨a, b, hl, hr, rfl⟩, .refl _⟩

/-- **The negation of a normal expression has the negated value.** -/
theorem Normal.exists_eval_neg (normal : Normal e) (h : e.eval p = .ok v) :
    ∃ w, (-e).eval p = .ok w ∧ Alike w (-v) := by
  induction normal generalizing v with
  | const c =>
      cases h
      exact ⟨-c, rfl, .refl _⟩
  | var name =>
      have opposite := (alike_neg_mul One.one v).trans (alike_one_mul v).neg
      exact ⟨-One.one * v, eval_product_eq_ok_iff.mpr ⟨_, v, rfl, h, rfl⟩, opposite⟩
  | sum left right _ _ _ ihl ihr =>
      obtain ⟨a, b, ha, hb, rfl⟩ := eval_sum_eq_ok_iff.mp h
      obtain ⟨a', ha', opposite_a⟩ := ihl ha
      obtain ⟨b', hb', opposite_b⟩ := ihr hb
      obtain ⟨w, hw, sum⟩ := exists_eval_add ha' hb'
      exact ⟨w, hw, sum.trans ((opposite_a.add opposite_b).trans (alike_neg_add a b))⟩
  | product left right left_ne right_ne _ _ _ ihl _ =>
      obtain ⟨a, b, ha, hb, rfl⟩ := eval_product_eq_ok_iff.mp h
      obtain ⟨a', ha', opposite_a⟩ := ihl ha
      obtain ⟨w, hw, product⟩ := exists_eval_mul (left.neg_ne_zero left_ne) right_ne ha' hb
      refine ⟨w, hw, product.trans ?_⟩
      exact (opposite_a.mul (.refl b)).trans (alike_neg_mul a b)

end Expr

/-! ### Expressions that the operators build -/

/-- **Negation and subtraction are exact, on infinities and NaN, too.**  Hence the residual of an
equation vanishes exactly where both sides have the same value, if these are finite. -/
theorem Recipe.eval_sub (l r : Recipe Float) (p : Point Float)
    (bound : ∀ name, name ∈ l.build.variableNames ∨ name ∈ r.build.variableNames → name ∈ p.keys) :
    ∃ a b n d, l.build.eval p = .ok a ∧ r.build.eval p = .ok b ∧
      (-l.build).eval p = .ok n ∧ SameValue n (-a) ∧
      (l.build - r.build).eval p = .ok d ∧ SameValue d (a - b) ∧
      (Expr.equation l.build r.build).eval p = .ok d ∧
      (a.isFinite = true → b.isFinite = true → ((d == 0) = true ↔ (a == b) = true)) := by
  obtain ⟨a, ha⟩ := Expr.exists_eval_eq_ok_iff.mpr fun name mem =>
    bound name (.inl (Expr.mem_variableNames.mpr mem))
  obtain ⟨b, hb⟩ := Expr.exists_eval_eq_ok_iff.mpr fun name mem =>
    bound name (.inr (Expr.mem_variableNames.mpr mem))
  obtain ⟨n, hn, opposite_a⟩ := l.normal_build.exists_eval_neg ha
  obtain ⟨m, hm, opposite_b⟩ := r.normal_build.exists_eval_neg hb
  obtain ⟨d, hd, sum⟩ := Expr.exists_eval_add ha hm
  have difference : Alike d (a - b) := by
    rw [sub_eq]
    exact sum.trans ((Alike.refl a).add opposite_b)
  refine ⟨a, b, n, d, ha, hb, hn, opposite_a.sameValue, hd, difference.sameValue, hd, ?_⟩
  intro finite_a finite_b
  rw [difference.beq_eq, sub_beq_zero_iff finite_a finite_b]

/-- The expression `-1 * x + y`, whose negation is `x + -1 * y`. -/
def Recipe.mirrored : Recipe Float :=
  .combination .sum (.scalarLeft .product (-1) (.var "x")) (.var "y")

/-- Less itself it is NaN at infinity; and it is one where `x` is two and `y` is three. -/
theorem Recipe.eval_sub_mirrored :
    (∃ a n d, mirrored.build.eval (.ofList [("x", 1 / 0), ("y", 2)]) = .ok a ∧
      (-mirrored.build).eval (.ofList [("x", 1 / 0), ("y", 2)]) = .ok n ∧ SameValue n (-a) ∧
      (mirrored.build - mirrored.build).eval (.ofList [("x", 1 / 0), ("y", 2)]) = .ok d ∧
      SameValue d (a - a)) ∧
    ∃ d, (Expr.equation mirrored.build (.const 1)).eval (.ofList [("x", 2), ("y", 3)]) = .ok d ∧
      (d == 0) = true := by
  have names : mirrored.build.variableNames = ["x", "y"] := by decide +kernel
  constructor
  · obtain ⟨a, b, n, d, ha, hb, hn, opposite, hd, difference, -⟩ :=
      eval_sub mirrored mirrored (.ofList [("x", 1 / 0), ("y", 2)]) fun name mem => by
        rw [or_self_iff, names] at mem
        exact mem
    cases ha.symm.trans hb
    exact ⟨a, n, d, ha, hn, opposite, hd, difference⟩
  · obtain ⟨a, b, n, d, ha, hb, -, -, -, -, hd, vanishes_iff⟩ :=
      eval_sub mirrored (.const 1) (.ofList [("x", 2), ("y", 3)]) fun name mem => by
        rw [names, Expr.mem_variableNames] at mem
        exact mem.resolve_right List.not_mem_nil
    have value_a : mirrored.build.eval (.ofList [("x", 2), ("y", 3)]) = .ok (-1 * 2 + 3) := rfl
    cases ha.symm.trans value_a
    cases hb
    exact ⟨d, hd, (vanishes_iff rfl rfl).mpr rfl⟩

/-- Bare nodes are different: a zero that was not folded takes an infinity with it when it is. -/
example :
    ((Expr.product (.sum (.const 1) (.const (-1))) (.var "x")).eval
      (.ofList [("x", (1 : Float) / 0)])).toOption.any Float.isNaN = true ∧
    ((-Expr.product (.sum (.const 1) (.const (-1))) (.var "x")).eval
      (.ofList [("x", (1 : Float) / 0)])).toOption.any Float.isFinite = true := by
  decide +kernel

end Downhill
