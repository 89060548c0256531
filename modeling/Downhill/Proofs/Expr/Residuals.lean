/-
What a sum of squares keeps of its residuals.

The squares are added up with the operators, so constant residuals disappear into a running
total, zeros are dropped, and what is left of the tree need not show how many residuals there
were.  But only constants can disappear: the variables of the sum are those of the residuals,
each residual twice, in their order (`occurrences_sumOfSquares`).  So the sum has a value exactly
where all residuals have one, and where it has none, the error is that of the first residual that
has none (`firstUnbound?_sumOfSquares`).

In exact arithmetic the value is the sum of the squares of the values, whatever was dropped or
folded on the way (`eval_sumOfSquares_exact`).
-/
import Downhill.Proofs.Expr.SumOfSquares
import Downhill.Proofs.Expr.Variables

namespace Downhill

open Downhill.Expr

/-! ### Variables -/

section

variable {α : Type} [Zero α] [One α] [Add α] [Mul α] [BEq α]

/-- **No variable of a residual is lost, and each keeps its place.** -/
theorem occurrences_sumOfSquares (residuals : List (Expr α)) :
    (sumOfSquares residuals).occurrences =
      residuals.flatMap fun r => r.occurrences ++ r.occurrences := by
  induction residuals using List.reverseRecOn with
  | nil => rfl
  | append_singleton residuals r ih =>
      rw [sumOfSquares_append_singleton, occurrences_add, occurrences_square, ih,
        List.flatMap_append, List.flatMap_singleton]

theorem mem_variableNames_sumOfSquares {residuals : List (Expr α)} {name : String} :
    name ∈ (sumOfSquares residuals).variableNames ↔ ∃ r ∈ residuals, name ∈ r.variableNames := by
  simp only [mem_variableNames, occurrences_sumOfSquares, List.mem_flatMap, List.mem_append,
    or_self]

theorem exists_eval_sumOfSquares_iff {residuals : List (Expr α)} {p : Point α} :
    (∃ v, (sumOfSquares residuals).eval p = .ok v) ↔ ∀ r ∈ residuals, ∃ v, r.eval p = .ok v := by
  simp only [exists_eval_eq_ok_iff, ← mem_variableNames, mem_variableNames_sumOfSquares]
  exact ⟨fun bound r mem name occurs => bound name ⟨r, mem, occurs⟩,
    fun bound name ⟨r, mem, occurs⟩ => bound r mem name occurs⟩

/-- **The first variable that the sum misses is the first one that the first residual without a
value misses.** -/
theorem firstUnbound?_sumOfSquares {residuals : List (Expr α)} {p : Point α} {name : String} :
    p.firstUnbound? (sumOfSquares residuals).occurrences = some name ↔
      ∃ before r after, residuals = before ++ r :: after ∧
        (∀ r' ∈ before, ∃ v, r'.eval p = .ok v) ∧ p.firstUnbound? r.occurrences = some name := by
  -- The second copy of a residual misses nothing that the first does not.
  have twice : ∀ r : Expr α,
      p.firstUnbound? (r.occurrences ++ r.occurrences) = p.firstUnbound? r.occurrences := by
    intro r
    rw [Point.firstUnbound?, List.find?_append, Option.or_self]
    rfl
  have searched : p.firstUnbound? (sumOfSquares residuals).occurrences =
      residuals.findSome? fun r => p.firstUnbound? r.occurrences := by
    rw [occurrences_sumOfSquares, Point.firstUnbound?, List.find?_flatMap]
    exact congrArg (residuals.findSome? ·) (funext twice)
  rw [searched, List.findSome?_eq_some_iff]
  refine exists₃_congr fun before r after => and_congr_right fun _ => ?_
  simp only [firstUnbound?_occurrences_eq_none_iff]
  exact and_comm

end

/-! ### Exact values -/

section

variable {K : Type} [Field K] [LinearOrder K] [IsStrictOrderedRing K] {residuals : List (Expr K)}
  {p : Point K} {value : Expr K → K} (values : ∀ r ∈ residuals, r.eval p = .ok (value r))

include values in
omit [IsStrictOrderedRing K] in
/-- **In exact arithmetic nothing is lost by simplifying.** -/
theorem eval_sumOfSquares_exact :
    (sumOfSquares residuals).eval p = .ok (residuals.map fun r => value r ^ 2).sum := by
  induction residuals using List.reverseRecOn with
  | nil => rfl
  | append_singleton residuals r ih =>
      have last : r.eval p = .ok (value r) := values r (by simp)
      have earlier := ih fun r' mem => values r' (by simp [mem])
      rw [sumOfSquares_append_singleton, eval_add earlier (eval_mul last last), List.map_append,
        List.sum_append, List.map_singleton, List.sum_singleton, sq]

theorem sum_squares_nonneg (residuals : List (Expr K)) (value : Expr K → K) :
    0 ≤ (residuals.map fun r => value r ^ 2).sum := by
  refine List.sum_nonneg fun square mem => ?_
  obtain ⟨r, -, rfl⟩ := List.mem_map.mp mem
  exact sq_nonneg (value r)

include values in
/-- Squares sum to zero only at a common root. -/
theorem sum_squares_eq_zero_iff :
    (residuals.map fun r => value r ^ 2).sum = 0 ↔ ∀ r ∈ residuals, r.eval p = .ok 0 := by
  constructor
  · intro zero r mem
    have nonneg : ∀ square ∈ residuals.map fun r => value r ^ 2, 0 ≤ square := by
      intro square mem'
      obtain ⟨r', -, rfl⟩ := List.mem_map.mp mem'
      exact sq_nonneg (value r')
    have vanishes : value r ^ 2 = 0 :=
      List.all_zero_of_le_zero_le_of_sum_eq_zero nonneg zero (List.mem_map_of_mem mem)
    rw [values r mem, pow_eq_zero_iff two_ne_zero |>.mp vanishes]
  · intro root
    refine List.sum_eq_zero fun square mem => ?_
    obtain ⟨r, mem', rfl⟩ := List.mem_map.mp mem
    have zero : value r = 0 := Except.ok.inj ((values r mem').symm.trans (root r mem'))
    rw [zero, zero_pow two_ne_zero]

end

/-- **The sum of squares of a system of equations**: it has a value exactly where every residual
has one, mentions the variables of the residuals, and fails as the first residual that fails.  In
exact arithmetic it is the sum of the squares, not negative, and zero exactly at a common root. -/
theorem eval_sumOfSquares {α : Type} [Zero α] [One α] [Add α] [Mul α] [BEq α]
    (residuals : List (Expr α)) (p : Point α) :
    ((∃ v, (sumOfSquares residuals).eval p = .ok v) ↔
      ∀ r ∈ residuals, ∃ v, r.eval p = .ok v) ∧
    (∀ name, name ∈ (sumOfSquares residuals).variableNames ↔
      ∃ r ∈ residuals, name ∈ r.variableNames) ∧
    (∀ name, (sumOfSquares residuals).eval p = .error (.unbound name) ↔
      ∃ before r after, residuals = before ++ r :: after ∧
        (∀ r' ∈ before, ∃ v, r'.eval p = .ok v) ∧ p.firstUnbound? r.occurrences = some name) ∧
    ∀ (K : Type) [Field K] [LinearOrder K] [IsStrictOrderedRing K] (residuals : List (Expr K))
      (p : Point K) (value : Expr K → K), (∀ r ∈ residuals, r.eval p = .ok (value r)) →
      (sumOfSquares residuals).eval p = .ok (residuals.map fun r => value r ^ 2).sum ∧
        0 ≤ (residuals.map fun r => value r ^ 2).sum ∧
        ((residuals.map fun r => value r ^ 2).sum = 0 ↔
          ∀ r ∈ residuals, r.eval p = .ok 0) := by
  refine ⟨exists_eval_sumOfSquares_iff, fun name => mem_variableNames_sumOfSquares, ?_, ?_⟩
  · intro name
    rw [eval_eq_error_iff, firstUnbound?_sumOfSquares]
  · intro K _ _ _ residuals p value values
    exact ⟨eval_sumOfSquares_exact values, sum_squares_nonneg residuals value,
      sum_squares_eq_zero_iff values⟩

/-- Two residuals that constants and zeros stand between and in. -/
def scattered {α : Type} [Zero α] [One α] : List (Expr α) :=
  [.const 0, .sum (.const 0) (.var "x"), .const 1, .product (.const 1) (.sum (.var "y") (.var "x"))]

/-- The third residual has no variables, so the fourth is the first that fails where `x` alone is
bound; and there is no common root, because of the third. -/
theorem eval_sumOfSquares_scattered :
    (sumOfSquares (scattered : List (Expr Float))).eval (.ofList [("x", 3)]) =
        .error (.unbound "y") ∧
      (∀ r ∈ (scattered : List (Expr ℚ)), r.eval (.ofList [("x", 3), ("y", -3)]) =
        .ok ((r.eval (.ofList [("x", 3), ("y", -3)])).toOption.getD 0)) ∧
      (sumOfSquares (scattered : List (Expr ℚ))).eval (.ofList [("x", 3), ("y", -3)]) = .ok 10 ∧
      ¬ ∀ r ∈ (scattered : List (Expr ℚ)), r.eval (.ofList [("x", 3), ("y", -3)]) = .ok 0 := by
  have values : ∀ r ∈ (scattered : List (Expr ℚ)), r.eval (.ofList [("x", 3), ("y", -3)]) =
      .ok ((r.eval (.ofList [("x", 3), ("y", -3)])).toOption.getD 0) := by decide +kernel
  obtain ⟨-, -, fails, exact_value⟩ :=
    eval_sumOfSquares (scattered : List (Expr Float)) (.ofList [("x", 3)])
  obtain ⟨eval_eq, -, root_iff⟩ := exact_value ℚ scattered (.ofList [("x", 3), ("y", -3)])
    (fun r => (r.eval (.ofList [("x", 3), ("y", -3)])).toOption.getD 0) values
  have ten : ((scattered : List (Expr ℚ)).map fun r =>
      (r.eval (.ofList [("x", 3), ("y", -3)])).toOption.getD 0 ^ 2).sum = 10 := by decide +kernel
  rw [ten] at eval_eq root_iff
  refine ⟨(fails "y").mpr ⟨scattered.take 3, scattered[3], [], rfl, ?_, by decide +kernel⟩, values,
    eval_eq, root_iff.not.mp (by norm_num)⟩
  intro r' mem
  refine exists_eval_eq_ok_iff.mpr ?_
  revert r'
  decide +kernel

end Downhill
