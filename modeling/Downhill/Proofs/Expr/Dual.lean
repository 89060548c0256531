/-
The symbolic derivative against dual numbers.

A dual number `a + a'ε`, with `ε * ε = 0`, carries a value and a slope.  Evaluating
an expression over dual numbers, with slope one at a single variable and slope zero
everywhere else, differentiates it without building a derivative at all: it is the
same evaluation with another arithmetic.  `eval_dual` says that over exact arithmetic
this gives the value of the expression and the value of its symbolic derivative.

The two have little else in common.  The symbolic derivative is simplified at every
node, so most of the terms that the product rule asks for are not in it.
-/
import Downhill.Proofs.Expr.Variables
import Mathlib.Algebra.DualNumber

namespace Downhill

open DualNumber TrivSqZeroExt

variable {α β : Type}

/-- The expression with every constant replaced. -/
def Expr.mapConst (f : α → β) : Expr α → Expr β
  | .const c => .const (f c)
  | .var name => .var name
  | .sum l r => .sum (l.mapConst f) (r.mapConst f)
  | .product l r => .product (l.mapConst f) (r.mapConst f)

/-- The point with slope one at a variable and slope zero at all others. -/
def Point.seed [Semiring α] (p : Point α) (x : String) : Point α[ε] :=
  p.map fun name v => if name = x then inl v + ε else inl v

namespace Expr

variable {R : Type} [CommRing R] [DecidableEq R]

/-- The induction behind `eval_dual`; that the variables are bound is said by the
value that the expression has. -/
theorem eval_seed (e : Expr R) (x : String) {p : Point R} :
    ∀ {v : R}, e.eval p = .ok v → ∃ d, (e.derivative x).eval p = .ok d ∧
      (e.mapConst inl).eval (p.seed x) = .ok (inl v + inr d) := by
  induction e with
  | const c =>
      intro v hv
      cases hv
      refine ⟨0, rfl, ?_⟩
      rw [inr_zero, add_zero]
      rfl
  | var name =>
      intro v hv
      have found := eval_var_eq_ok_iff.mp hv
      refine ⟨if name = x then 1 else 0, rfl, eval_var_eq_ok_iff.mpr ?_⟩
      rw [Point.seed, Bindings.get?_map, found, Option.map_some, Option.some_inj]
      split
      · rfl
      · rw [inr_zero, add_zero]
  | sum l r ihl ihr =>
      intro v hv
      obtain ⟨a, b, ha, hb, rfl⟩ := eval_sum_eq_ok_iff.mp hv
      obtain ⟨a', ha', dual_a⟩ := ihl ha
      obtain ⟨b', hb', dual_b⟩ := ihr hb
      refine ⟨a' + b', eval_add ha' hb', eval_sum_eq_ok_iff.mpr ⟨_, _, dual_a, dual_b, ?_⟩⟩
      rw [inl_add, inr_add, add_add_add_comm]
  | product l r ihl ihr =>
      intro v hv
      obtain ⟨a, b, ha, hb, rfl⟩ := eval_product_eq_ok_iff.mp hv
      obtain ⟨a', ha', dual_a⟩ := ihl ha
      obtain ⟨b', hb', dual_b⟩ := ihr hb
      -- the product rule, in the order in which the derivative writes it
      refine ⟨a * b' + a' * b, eval_add (eval_mul ha hb') (eval_mul ha' hb),
        eval_product_eq_ok_iff.mpr ⟨_, _, dual_a, dual_b, ?_⟩⟩
      ext
      · simp
      · simp

/-- **The symbolic derivative is the slope that dual numbers compute.** -/
theorem eval_dual (e : Expr R) (x : String) (p : Point R)
    (bound : ∀ name ∈ e.variableNames, name ∈ p.keys) :
    ∃ v d, e.eval p = .ok v ∧ (e.derivative x).eval p = .ok d ∧
      (e.mapConst inl).eval (p.seed x) = .ok (inl v + inr d : R[ε]) := by
  obtain ⟨v, hv⟩ := exists_eval_eq_ok_iff.mpr fun name mem => bound name (mem_variableNames.mpr mem)
  obtain ⟨d, hd, dual⟩ := eval_seed e x hv
  exact ⟨v, d, hv, hd, dual⟩

/-- A tree that no operator would build, with a zero, a one and repeated variables. -/
def unsimplified : Expr ℤ :=
  .product (.sum (.var "x") (.const 0))
    (.product (.const 1) (.sum (.var "x") (.product (.var "y") (.var "x"))))

theorem eval_dual_unsimplified :
    (∀ name ∈ unsimplified.variableNames, name ∈ (Bindings.ofList [("x", 3), ("y", 5)]).keys) ∧
      ∃ v d, unsimplified.eval (.ofList [("x", 3), ("y", 5)]) = .ok v ∧
        (unsimplified.derivative "x").eval (.ofList [("x", 3), ("y", 5)]) = .ok d ∧
        (unsimplified.mapConst inl).eval (Point.seed (.ofList [("x", 3), ("y", 5)]) "x") =
          .ok (inl v + inr d : ℤ[ε]) := by
  have bound : ∀ name ∈ unsimplified.variableNames,
      name ∈ (Bindings.ofList [("x", (3 : ℤ)), ("y", 5)]).keys := by decide +kernel
  exact ⟨bound, eval_dual unsimplified "x" (.ofList [("x", 3), ("y", 5)]) bound⟩

end Expr

end Downhill
