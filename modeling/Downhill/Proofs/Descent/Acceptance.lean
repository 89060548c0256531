/-
A search that may shrink long enough finds a step.

In exact arithmetic a search can only stall for want of candidates.  The cost along the
direction is a differentiable function of the step size, and its derivative at zero is the
slope that the search computes (`hasDerivAt_cost`).  The slope is negative where some partial
derivative is not zero.  So a small step lowers the cost by nearly what the slope promises for
it, and that is more than a control below one asks (`eventually_sufficient`); and a factor
below one shrinks the initial step to any size.
-/
import Downhill.Proofs.Descent.Armijo
import Downhill.Proofs.Expr.Tangent
import Mathlib.Analysis.Calculus.Deriv.Slope
import Mathlib.Analysis.Normed.Field.Lemmas
import Mathlib.Analysis.SpecificLimits.Basic

namespace Downhill

open Filter Topology

theorem Bindings.sumBy_eq_sum_keys {α β : Type} [AddCommMonoid β] (b : Bindings α)
    (f : String → β) : (b.sumBy fun name _ => f name) = ∑ name ∈ b.keys.toFinset, f name := by
  have distinct : b.keys.Nodup := by
    refine b.ascending.imp ?_
    rintro name _ less rfl
    exact String.lt_irrefl name less
  rw [sumBy_eq_sum, List.sum_toFinset f distinct, keys, List.map_map]
  rfl

namespace Descent

/-! ### The cost along a direction -/

section

variable {K : Type} [NontriviallyNormedField K] [BEq K] [LawfulBEq K]

omit [BEq K] [LawfulBEq K] in
theorem advance_zero (p direction : Point K) : advance p direction 0 = p := by
  refine Bindings.ext_get? fun name => ?_
  simp only [advance, Bindings.get?_map, zero_mul, add_zero, Option.map_id']

/-- **The slope is the derivative of the cost along the direction.** -/
theorem hasDerivAt_cost {objective : Objective K} {p gradient : Point K} {cost : K}
    (cost_eq : objective.cost p = .ok cost) (gradient_eq : objective.gradient p = .ok gradient)
    (direction : Point K) :
    ∃ f : K → K, (∀ t, objective.cost (advance p direction t) = .ok (f t)) ∧
      HasDerivAt f (slope gradient direction) 0 := by
  have moves : ∀ name ∈ objective.expr.variableNames.toFinset, ∃ x : K → K,
      (∀ t, (advance p direction t).get? name = some (x t)) ∧
        HasDerivAt x (direction.component name) 0 := by
    intro name mem
    rw [List.mem_toFinset, Expr.mem_variableNames] at mem
    obtain ⟨x, found⟩ := Bindings.mem_keys_iff.mp
      (Expr.exists_eval_eq_ok_iff.mp ⟨cost, cost_eq⟩ name mem)
    refine ⟨fun t => x + t * direction.component name, ?_, (hasDerivAt_mul_const _).const_add x⟩
    intro t
    rw [advance, Bindings.get?_map, found]
    rfl
  obtain ⟨f, d, hf, hd, rate⟩ := Expr.hasDerivAt_eval moves objective.expr fun name mem =>
    List.mem_toFinset.mpr (Expr.mem_variableNames.mpr mem)
  refine ⟨f, hf, ?_⟩
  have partials_eq : objective.gradient p = .ok (objective.partials.map fun name _ => d name) := by
    rw [← Bindings.traverse_ok (ε := EvalError)]
    refine Bindings.traverse_congr ?_
    intro name partialDerivative found
    rw [objective.partials_eq, Expr.partials, Bindings.get?_map, Option.map_eq_some_iff] at found
    obtain ⟨-, -, rfl⟩ := found
    have value := hd name
    rwa [advance_zero] at value
  cases gradient_eq.symm.trans partials_eq
  have names : objective.partials.keys = objective.expr.variableNames := by
    rw [objective.partials_eq, Expr.partials, Bindings.keys_map]
    rfl
  rw [slope, Bindings.sumBy_map, Bindings.sumBy_eq_sum_keys _ fun name =>
    d name * direction.component name, names]
  exact rate

end

/-! ### Small steps -/

section

variable {objective : Objective ℚ} {p gradient direction : Point ℚ}
  {cost control shrink initialStep : ℚ}

/-- **All late candidates lower the cost by what is asked**, whatever the limit on them. -/
theorem eventually_sufficient (cost_eq : objective.cost p = .ok cost)
    (gradient_eq : objective.gradient p = .ok gradient)
    (dir : direction? gradient = some direction) (control_lt : control < 1)
    (shrink_range : 0 < shrink ∧ shrink < 1) (initialStep_pos : 0 < initialStep) :
    ∀ᶠ j in atTop, ∃ c,
      objective.cost (advance p direction (initialStep * shrink ^ j)) = .ok c ∧
        ¬ cost - c < initialStep * shrink ^ j * (-control * slope gradient direction) := by
  obtain ⟨f, hf, rate⟩ := hasDerivAt_cost cost_eq gradient_eq direction
  have start_eq : f 0 = cost := by
    have value := hf 0
    rw [advance_zero, cost_eq] at value
    exact (Except.ok.inj value).symm
  have size_pos : ∀ j, 0 < initialStep * shrink ^ j := fun j =>
    mul_pos initialStep_pos (pow_pos shrink_range.1 j)
  have sizes : Tendsto (fun j => initialStep * shrink ^ j) atTop (𝓝[≠] 0) := by
    refine tendsto_nhdsWithin_iff.mpr ⟨?_, .of_forall fun j => (size_pos j).ne'⟩
    have decays := tendsto_pow_atTop_nhds_zero_of_lt_one shrink_range.1.le shrink_range.2
    simpa using decays.const_mul initialStep
  have quotients := (hasDerivAt_iff_tendsto_slope_zero.mp rate).comp sizes
  have steeper : slope gradient direction < control * slope gradient direction :=
    lt_mul_of_lt_one_left (slope_neg dir) control_lt
  filter_upwards [quotients.eventually_lt_const steeper] with j below
  refine ⟨f (initialStep * shrink ^ j), hf _, not_lt.mpr ?_⟩
  have size := size_pos j
  simp only [Function.comp_apply, zero_add, smul_eq_mul, start_eq] at below
  generalize initialStep * shrink ^ j = t at below size ⊢
  rw [inv_mul_lt_iff₀ size] at below
  linarith

end

/-! ### The search -/

section

variable {α : Type} [Zero α] [One α] [Add α] [Sub α] [Mul α] [Neg α] [Div α] [BEq α] [LT α] [LE α]
  [Magnitude α]

omit [Add α] [Sub α] [Mul α] [Neg α] [Div α] [BEq α] in
/-- Parameters that are in range make a search, and it has them. -/
theorem exists_make [DecidableLT α] [DecidableLE α] {control shrink initialStep : α}
    {maxShrinks : Nat} (control_range : 0 < control ∧ control ≤ 1)
    (shrink_range : 0 < shrink ∧ shrink ≤ 1)
    (initialStep_range : Magnitude.isFinite initialStep = true ∧ ¬ initialStep ≤ 0)
    (maxShrinks_ne_zero : maxShrinks ≠ 0) :
    ∃ search, LineSearch.make control shrink initialStep maxShrinks = .ok search ∧
      search.control = control ∧ search.shrink = shrink ∧ search.initialStep = initialStep ∧
      search.maxShrinks = maxShrinks := by
  rw [LineSearch.make, dif_pos control_range, dif_pos shrink_range, dif_pos initialStep_range,
    dif_pos maxShrinks_ne_zero]
  exact ⟨_, rfl, rfl, rfl, rfl, rfl⟩

/-- A search finds a step if one of its candidates will do and all of them have a cost. -/
theorem Search.exists_found {objective : Objective α} {search : LineSearch α} {p gradient : Point α}
    {cost : α} {result : Except EvalError (Option (Candidate α))}
    (h : Search objective search p cost gradient result) (cost_eq : objective.cost p = .ok cost)
    {j : Nat} (one_le : 1 ≤ j) (le_maxShrinks : j ≤ search.maxShrinks)
    (sufficient : Sufficient objective search p cost gradient j) : ∃ c, result = .ok (some c) := by
  cases h with
  | @found c => exact ⟨c, rfl⟩
  | stalled fails =>
      exact absurd (fails j one_le le_maxShrinks) (not_insufficient_of_sufficient sufficient)
  | failed i failed =>
      obtain ⟨c, hc⟩ :=
        Objective.exists_cost_of_keys_eq cost_eq (keys_candidate search p gradient i)
      cases failed.symm.trans hc

end

/-- **In exact arithmetic a search that may try enough candidates finds a step.** -/
theorem lineSearch_accepts (objective : Objective ℚ) (p : Point ℚ)
    (bound : ∀ name ∈ objective.expr.variableNames, name ∈ p.keys)
    (steep : ∃ name partialDerivative g, objective.partials.get? name = some partialDerivative ∧
      partialDerivative.eval p = .ok g ∧ g ≠ 0)
    {control shrink initialStep : ℚ} (control_range : 0 < control ∧ control < 1)
    (shrink_range : 0 < shrink ∧ shrink < 1) (initialStep_pos : 0 < initialStep) :
    ∃ cost gradient direction N, objective.cost p = .ok cost ∧
      objective.gradient p = .ok gradient ∧ direction? gradient = some direction ∧
      ∀ maxShrinks ≥ N, ∃ search,
        LineSearch.make control shrink initialStep maxShrinks = .ok search ∧
        ∀ log, ∃ c,
          (lineSearch search objective p cost gradient direction log).1 = .ok (some c) := by
  obtain ⟨cost, cost_eq⟩ : ∃ cost, objective.cost p = .ok cost :=
    Expr.exists_eval_eq_ok_iff.mpr fun name mem => bound name (Expr.mem_variableNames.mpr mem)
  obtain ⟨gradient, gradient_eq⟩ := Objective.exists_gradient cost_eq
  obtain ⟨name, partialDerivative, g, found, value, ne⟩ := steep
  obtain ⟨g', value', component⟩ := Bindings.exists_of_traverse_eq_ok gradient_eq found
  cases value.symm.trans value'
  obtain ⟨direction, dir⟩ := exists_direction_iff.mpr (absSum_pos component ne).ne'
  obtain ⟨N, sufficient, one_le⟩ := ((eventually_sufficient cost_eq gradient_eq dir control_range.2
    shrink_range initialStep_pos).and (eventually_ge_atTop 1)).exists
  refine ⟨cost, gradient, direction, N, cost_eq, gradient_eq, dir, ?_⟩
  intro maxShrinks enough
  obtain ⟨search, made, rfl, rfl, rfl, rfl⟩ := exists_make
    ⟨control_range.1, control_range.2.le⟩ ⟨shrink_range.1, shrink_range.2.le⟩
    ⟨rfl, not_le.mpr initialStep_pos⟩ (Nat.ne_of_gt (one_le.trans enough))
  refine ⟨search, made, ?_⟩
  intro log
  obtain ⟨records, written, -⟩ := writes_lineSearch objective search cost log dir
  refine written.toSearch.exists_found cost_eq one_le enough ?_
  rw [Sufficient, candidate_eq_advance search p N dir, asked_eq_slope search dir, stepSize_eq]
  exact sufficient

/-- The searches from `(1, 2)` for the bottom of the bowl, which ask for nine tenths of what
the slope promises. -/
theorem lineSearch_accepts_exactBowl :
    ∃ cost gradient direction N,
      exactBowl.cost (.ofList [("x", 1), ("y", 2)]) = .ok cost ∧
      exactBowl.gradient (.ofList [("x", 1), ("y", 2)]) = .ok gradient ∧
      direction? gradient = some direction ∧
      ∀ maxShrinks ≥ N, ∃ search, LineSearch.make (9 / 10) (1 / 2) 2 maxShrinks = .ok search ∧
        ∀ log, ∃ c, (lineSearch search exactBowl (.ofList [("x", 1), ("y", 2)]) cost gradient
          direction log).1 = .ok (some c) :=
  lineSearch_accepts exactBowl (.ofList [("x", 1), ("y", 2)]) (by decide +kernel)
    ⟨"x", exactBowl.expr.derivative "x", 2, rfl, by decide +kernel, by decide⟩
    ⟨by norm_num, by norm_num⟩ ⟨by norm_num, by norm_num⟩ (by norm_num)

end Descent

end Downhill
