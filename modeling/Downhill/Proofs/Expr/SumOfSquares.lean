/-
What a sum of squares says about its terms.

In floating point a sum of squares is rounded many times over, its squares may have been
replaced and its terms dropped.  All the same no term is larger than the sum: a rounded
square is not negative, a rounded sum of two numbers that are not negative is at least
each of them, and simplifying takes away nothing but zeros.  So a bound on the sum is a
bound on each square, for a list of residuals of any length (`eval_sumOfSquares_bound`).

For the same reason no NaN comes up in the sum: infinities among squares have one sign, so
the sum is NaN only where a residual is (`not_nan_of_residuals`).
-/
import Downhill.Objective
import Downhill.Proofs.Expr.Simplification
import Downhill.Proofs.Float.Arithmetic

namespace Downhill

open Binary64

namespace Expr

variable {p : Point Float}

/-- An expression has a value where its square has one other than NaN, and the square of
the value is no larger. -/
theorem eval_square_bound {r : Expr Float} {q : Float} (h : (r * r).eval p = .ok q)
    (not_nan : q.isNaN = false) :
    0 ≤ value q ∧ ∃ v, r.eval p = .ok v ∧ v.isNaN = false ∧ v * v ≤ q := by
  obtain ⟨v, hv, rfl | ⟨is_zero, rfl⟩ | ⟨is_one, rfl⟩⟩ := exists_of_eval_square h
  · obtain ⟨not_nan_v, -⟩ := not_nan_of_mul not_nan
    exact ⟨value_square_nonneg not_nan_v, v, hv, not_nan_v, le_iff.mpr ⟨not_nan, not_nan, le_rfl⟩⟩
  · obtain ⟨not_nan_v, -, zero⟩ := beq_iff.mp is_zero
    have square := yields_square not_nan_v
    have vanishes : value (v * v) = 0 := by
      rw [square.value_eq, zero.trans value_zero, mul_zero, rounded_zero]
    exact ⟨value_zero.ge, v, hv, not_nan_v,
      le_iff.mpr ⟨square.not_nan, not_nan, (vanishes.trans value_zero.symm).le⟩⟩
  · obtain ⟨-, -, one⟩ := beq_iff.mp is_one
    have square := yields_square not_nan
    have same : value (q * q) = value q := by
      rw [square.value_eq, one.trans value_one, one_mul, ← value_one, rounded_value]
    exact ⟨zero_le_one.trans_eq (one.trans value_one).symm, q, hv, not_nan,
      le_iff.mpr ⟨square.not_nan, not_nan, same.le⟩⟩

/-- The terms of a sum have values where the sum has one other than NaN, and if both are
not negative the sum is at least each of them. -/
theorem eval_add_bound {l r : Expr Float} {t : Float} (h : (l + r).eval p = .ok t)
    (not_nan : t.isNaN = false) :
    ∃ a b, l.eval p = .ok a ∧ r.eval p = .ok b ∧ a.isNaN = false ∧ b.isNaN = false ∧
      (0 ≤ value a → 0 ≤ value b → value a ≤ value t ∧ value b ≤ value t) := by
  obtain ⟨a, b, ha, hb, rfl | ⟨is_zero, rfl⟩ | ⟨is_zero, rfl⟩⟩ := exists_of_eval_add h
  · obtain ⟨not_nan_a, not_nan_b⟩ := not_nan_of_add not_nan
    exact ⟨a, b, ha, hb, not_nan_a, not_nan_b, le_value_add not_nan⟩
  · obtain ⟨not_nan_a, -, zero⟩ := beq_iff.mp is_zero
    refine ⟨a, t, ha, hb, not_nan_a, not_nan, ?_⟩
    intro _ nonneg
    exact ⟨(zero.trans value_zero).trans_le nonneg, le_rfl⟩
  · obtain ⟨not_nan_b, -, zero⟩ := beq_iff.mp is_zero
    refine ⟨t, b, ha, hb, not_nan, not_nan_b, ?_⟩
    intro nonneg _
    exact ⟨le_rfl, (zero.trans value_zero).trans_le nonneg⟩

end Expr

/-! ### Any number of terms -/

theorem sumOfSquares_append_singleton {α : Type} [Zero α] [One α] [Add α] [Mul α] [BEq α]
    (residuals : List (Expr α)) (r : Expr α) :
    sumOfSquares (residuals ++ [r]) = sumOfSquares residuals + r * r := by
  rw [sumOfSquares, List.foldl_append]
  rfl

/-- **No square of a residual is larger than the sum of all.**  The induction takes the
residuals from the end, where the sum was extended last. -/
theorem eval_sumOfSquares_bound {p : Point Float} {residuals : List (Expr Float)} {t : Float}
    (h : (sumOfSquares residuals).eval p = .ok t) (not_nan : t.isNaN = false) :
    0 ≤ value t ∧ ∀ r ∈ residuals, ∃ v, r.eval p = .ok v ∧ v.isNaN = false ∧ v * v ≤ t := by
  induction residuals using List.reverseRecOn generalizing t with
  | nil =>
      cases h
      exact ⟨value_zero.ge, by simp⟩
  | append_singleton residuals r ih =>
      rw [sumOfSquares_append_singleton] at h
      obtain ⟨total, q, htotal, hq, not_nan_total, not_nan_q, bound⟩ :=
        Expr.eval_add_bound h not_nan
      obtain ⟨nonneg_total, earlier⟩ := ih htotal not_nan_total
      obtain ⟨nonneg_q, v, hv, not_nan_v, square_le⟩ := Expr.eval_square_bound hq not_nan_q
      obtain ⟨total_le, q_le⟩ := bound nonneg_total nonneg_q
      refine ⟨nonneg_total.trans total_le, ?_⟩
      intro r' mem
      rcases List.mem_append.mp mem with before | last
      · obtain ⟨v', hv', not_nan_v', square_le'⟩ := earlier r' before
        exact ⟨v', hv', not_nan_v', le_of_le_of_value_le square_le' not_nan total_le⟩
      · obtain rfl := List.mem_singleton.mp last
        exact ⟨v, hv, not_nan_v, le_of_le_of_value_le square_le not_nan q_le⟩

/-- **A sum of squares is NaN only where a residual is.**  There are no infinities of both
signs among squares. -/
theorem not_nan_of_residuals {p : Point Float} {residuals : List (Expr Float)} {t : Float}
    (h : (sumOfSquares residuals).eval p = .ok t)
    (not_nan : ∀ r ∈ residuals, ∀ v, r.eval p = .ok v → v.isNaN = false) : t.isNaN = false := by
  induction residuals using List.reverseRecOn generalizing t with
  | nil =>
      cases h
      rfl
  | append_singleton residuals r ih =>
      rw [sumOfSquares_append_singleton] at h
      obtain ⟨total, q, htotal, hq, sum_eq⟩ := Expr.exists_of_eval_add h
      have not_nan_total : total.isNaN = false :=
        ih htotal fun r' mem => not_nan r' (List.mem_append_left _ mem)
      have not_nan_q : q.isNaN = false := by
        obtain ⟨v, hv, square_eq⟩ := Expr.exists_of_eval_square hq
        have not_nan_v := not_nan r (by simp) v hv
        rcases square_eq with rfl | ⟨-, rfl⟩ | ⟨-, rfl⟩
        · exact (yields_square not_nan_v).not_nan
        · rfl
        · exact not_nan_v
      obtain ⟨nonneg_total, -⟩ := eval_sumOfSquares_bound htotal not_nan_total
      obtain ⟨nonneg_q, -⟩ := Expr.eval_square_bound hq not_nan_q
      rcases sum_eq with rfl | ⟨-, rfl⟩ | ⟨-, rfl⟩
      · exact (yields_add_of_nonneg not_nan_total not_nan_q nonneg_total nonneg_q).not_nan
      · exact not_nan_q
      · exact not_nan_total

end Downhill
