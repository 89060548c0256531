/-
The symbolic derivative is the derivative.

Over a field with limits, the value of an expression is a differentiable function of the
values of its variables.  While a point moves along a path, the value changes at the rate of
each partial derivative times the velocity of its variable, summed over the variables; and the
partial derivatives are the symbolic ones (`hasDerivAt_eval`).
-/
import Downhill.Proofs.Expr.Simplification
import Downhill.Expr.Derivative
import Mathlib.Analysis.Calculus.Deriv.Add
import Mathlib.Analysis.Calculus.Deriv.Mul
import Mathlib.Topology.Algebra.Module.ModuleTopology

namespace Downhill.Expr

variable {K : Type} [NontriviallyNormedField K] [BEq K] [LawfulBEq K]
  {path : K → Point K} {velocity : String → K} {t₀ : K} {names : Finset String}

/-- **Along a path, an expression changes as its partial derivatives say.** -/
theorem hasDerivAt_eval
    (moves : ∀ name ∈ names, ∃ x : K → K, (∀ t, (path t).get? name = some (x t)) ∧
      HasDerivAt x (velocity name) t₀)
    (e : Expr K) (covers : ∀ name ∈ e.occurrences, name ∈ names) :
    ∃ (f : K → K) (d : String → K), (∀ t, e.eval (path t) = .ok (f t)) ∧
      (∀ name, (e.derivative name).eval (path t₀) = .ok (d name)) ∧
      HasDerivAt f (∑ name ∈ names, d name * velocity name) t₀ := by
  induction e with
  | const c =>
      refine ⟨fun _ => c, fun _ => 0, fun _ => rfl, fun _ => rfl, ?_⟩
      simp only [zero_mul, Finset.sum_const_zero]
      exact hasDerivAt_const t₀ c
  | var other =>
      have mem := covers other List.mem_cons_self
      obtain ⟨x, get, velocity_eq⟩ := moves other mem
      refine ⟨x, fun name => if other = name then 1 else 0, ?_, fun _ => rfl, ?_⟩
      · exact fun t => eval_var_eq_ok_iff.mpr (get t)
      · simpa [ite_mul, mem] using velocity_eq
  | sum l r ihl ihr =>
      obtain ⟨f, d, hf, hd, rate⟩ := ihl fun name mem => covers name (List.mem_append_left _ mem)
      obtain ⟨f', d', hf', hd', rate'⟩ :=
        ihr fun name mem => covers name (List.mem_append_right _ mem)
      refine ⟨fun t => f t + f' t, fun name => d name + d' name, ?_, ?_, ?_⟩
      · exact fun t => eval_sum_eq_ok_iff.mpr ⟨f t, f' t, hf t, hf' t, rfl⟩
      · exact fun name => eval_add (hd name) (hd' name)
      · simp only [add_mul, Finset.sum_add_distrib]
        exact rate.add rate'
  | product l r ihl ihr =>
      obtain ⟨f, d, hf, hd, rate⟩ := ihl fun name mem => covers name (List.mem_append_left _ mem)
      obtain ⟨f', d', hf', hd', rate'⟩ :=
        ihr fun name mem => covers name (List.mem_append_right _ mem)
      refine ⟨fun t => f t * f' t, fun name => f t₀ * d' name + d name * f' t₀, ?_, ?_, ?_⟩
      · exact fun t => eval_product_eq_ok_iff.mpr ⟨f t, f' t, hf t, hf' t, rfl⟩
      · intro name
        exact eval_add (eval_mul (hf t₀) (hd' name)) (eval_mul (hd name) (hf' t₀))
      · -- the product rule, summed over the variables
        have summed : ∑ name ∈ names, (f t₀ * d' name + d name * f' t₀) * velocity name =
            (∑ name ∈ names, d name * velocity name) * f' t₀ +
              f t₀ * ∑ name ∈ names, d' name * velocity name := by
          rw [Finset.sum_mul, Finset.mul_sum, ← Finset.sum_add_distrib]
          refine Finset.sum_congr rfl ?_
          intro name _
          ring
        rw [summed]
        exact rate.mul rate'

end Downhill.Expr
