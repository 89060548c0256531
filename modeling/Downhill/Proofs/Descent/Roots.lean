/-
What a converged solve has found.

A solve of a system of equations looks at one number only, the sum of the squares of the
residuals.  When it reports convergence, every equation holds up to the tolerance at the
last point: the residual has a value there, which is not NaN and has a square that is at
most epsilon.
-/
import Downhill.Proofs.Descent.Status
import Downhill.Proofs.Expr.SumOfSquares

namespace Downhill

namespace Descent

open Binary64

/-- What is within the tolerance is not NaN and not larger than the tolerance. -/
theorem value_le_of_abs_le {cost epsilon : Float} (h : Magnitude.abs cost ≤ epsilon) :
    cost.isNaN = false ∧ epsilon.isNaN = false ∧ value cost ≤ value epsilon := by
  obtain ⟨not_nan_abs, not_nan_epsilon, small⟩ := le_iff.mp h
  have not_nan : cost.isNaN = false := (isNaN_abs cost).symm.trans not_nan_abs
  have size_le : |value cost| ≤ value epsilon := (value_abs cost).symm.trans_le small
  exact ⟨not_nan, not_nan_epsilon, (le_abs_self _).trans size_le⟩

/-- **A converged solve is an approximate root of every equation.** -/
theorem solve_converged {σ : Type} (residuals : List (Expr Float)) (start : Point Float)
    (config : Config Float) (observer : Observer (Event Float) σ) (state : σ) (log : Log Float)
    (s : Solution Float)
    (h : (solve (.ofEquations residuals) start config observer state log).result = .ok s)
    (converged : s.status = .converged) :
    ∀ r ∈ residuals, ∃ v, r.eval s.point = .ok v ∧ v.isNaN = false ∧ v * v ≤ config.epsilon := by
  obtain ⟨cost_eq, ends⟩ := grounds_of_solve h
  have small : Magnitude.abs s.cost ≤ config.epsilon := by
    rw [converged] at ends
    rcases ends with ⟨stopped, -⟩ | ⟨gradient, -, grounds⟩
    · cases stopped
    · exact grounds
  obtain ⟨not_nan_cost, not_nan_epsilon, cost_le⟩ := value_le_of_abs_le small
  obtain ⟨-, bound⟩ := eval_sumOfSquares_bound cost_eq not_nan_cost
  intro r mem
  obtain ⟨v, hv, not_nan_v, square_le⟩ := bound r mem
  exact ⟨v, hv, not_nan_v, le_of_le_of_value_le square_le not_nan_epsilon cost_le⟩

/-- The bowl has the coordinates for residuals, and the descent reaches its root. -/
theorem solve_converged_bowl :
    ∃ s, (solve bowl slopePoint .standard Observer.silent () .silent).result = .ok s ∧
      s.status = .converged ∧
      ∀ r ∈ [Expr.var "x", .var "y"],
        ∃ v, r.eval s.point = .ok v ∧ v.isNaN = false ∧
          v * v ≤ (Config.standard : Config Float).epsilon := by
  have solved : (solve bowl slopePoint .standard Observer.silent () .silent).result.toOption.any
      (fun s => s.status == .converged) = true := by decide +kernel
  obtain ⟨s, hs, seen⟩ := exists_ok_of_any solved
  have converged : s.status = .converged := eq_of_beq seen
  exact ⟨s, hs, converged, solve_converged [.var "x", .var "y"] slopePoint .standard
    Observer.silent () .silent s hs converged⟩

end Descent

end Downhill
