/-
Costs in floating point do not rise.

A candidate is taken when the decrease of the cost is not less than asked, and NaN is less
than nothing.  So the cost could rise if what is asked were NaN or negative.  It is neither
when the candidate is finite (`asked_nonneg`): then no component of the direction
is NaN, and this settles the partial derivatives and their sum.  All partials are finite.  If
their sum is finite, each term of the slope is in size at most its partial derivative, so the
slope is finite.  If it overflows, each component of the direction is zero, and so is the
slope.

What is asked of a step is then a product of two finite numbers that are not negative,
though either may have vanished (`threshold_nonneg`).  A cost higher than the one before would
make the decrease negative, even between infinities, and would fail the test (`solve_costs`).
-/
import Downhill.Proofs.Descent.Succession
import Downhill.Proofs.Expr.Variables
import Downhill.Proofs.Float.Division
import Downhill.Proofs.Float.Subtraction
import Downhill.Proofs.Float.Sums

namespace Downhill

open Binary64

/-! ### Step sizes -/

/-- Shrinking keeps a step size finite.  It may vanish. -/
theorem LineSearch.stepSize_nonneg (search : LineSearch Float) (j : Nat) :
    (search.stepSize j).isFinite = true ∧ 0 ≤ value (search.stepSize j) := by
  obtain ⟨shrink_finite, shrink_nonneg, shrink_le⟩ := finite_of_unit_range search.shrink_range
  induction j with
  | zero =>
      have finite : search.initialStep.isFinite = true := search.initialStep_finite
      refine ⟨finite, ?_⟩
      by_contra negative
      exact search.initialStep_pos
        (le_iff.mpr ⟨(isFinite_iff.mp finite).1, rfl, (not_le.mp negative).le⟩)
  | succ j ih =>
      obtain ⟨finite, nonneg⟩ := ih
      have product := yields_mul finite shrink_finite
      have exact_nonneg := mul_nonneg nonneg shrink_nonneg
      have exact_le : |value (search.stepSize j) * value search.shrink| ≤
          value (search.stepSize j) := by
        rw [abs_of_nonneg exact_nonneg]
        exact mul_le_of_le_one_right nonneg shrink_le
      exact ⟨product.finite finite exact_le, product.nonneg exact_nonneg⟩

namespace Descent

/-! ### The slope -/

section

variable {gradient : Point Float}

/-- A partial derivative is no larger than the sum of their sizes. -/
theorem abs_value_le_absSum {name : String} {g : Float} (found : gradient.get? name = some g)
    (not_nan : (absSum gradient).isNaN = false) :
    g.isNaN = false ∧ |value g| ≤ value (absSum gradient) := by
  have sum_eq : absSum gradient = total (gradient.toList.map fun e => e.2.abs) :=
    sumBy_eq_total _ _
  rw [sum_eq] at not_nan ⊢
  have nonneg : ∀ x ∈ gradient.toList.map fun e => e.2.abs, 0 ≤ value x := by
    intro x mem
    obtain ⟨e, -, rfl⟩ := List.mem_map.mp mem
    rw [value_abs]
    exact abs_nonneg _
  have mem : g.abs ∈ gradient.toList.map fun e => e.2.abs :=
    List.mem_map.mpr ⟨(name, g), Bindings.get?_eq_some_iff.mp found, rfl⟩
  have bound := (le_value_total nonneg not_nan).2 g.abs mem
  rw [isNaN_abs, value_abs] at bound
  exact bound

/-- What bounds the terms of the slope: the partial derivatives, unless their sum overflows. -/
def slopeBound (gradient : Point Float) (g : Float) : Float :=
  if (absSum gradient).isFinite then g.abs else Zero.zero

/-- **A component of the direction that is not NaN keeps its term of the slope in bounds.** -/
theorem damped_term {name : String} {g : Float} (nonzero : (absSum gradient == 0) = false)
    (found : gradient.get? name = some g) (not_nan : (heading gradient name).isNaN = false) :
    Damped (g * heading gradient name) (slopeBound gradient g) := by
  rw [heading_of_get? found] at not_nan ⊢
  obtain ⟨-, not_nan_sum⟩ := not_nan_of_div not_nan
  obtain ⟨not_nan_g, size_le⟩ := abs_value_le_absSum found not_nan_sum
  rw [slopeBound]
  split
  · rename_i finite
    have finite_g : g.isFinite = true := finite_of_abs_le not_nan_g finite size_le
    have sum_pos : 0 < value (absSum gradient) := by
      refine lt_of_le_of_ne ((abs_nonneg _).trans size_le) ?_
      intro zero
      have equal : (absSum gradient == Zero.zero) = true :=
        beq_iff.mpr ⟨not_nan_sum, rfl, zero.symm.trans value_zero.symm⟩
      exact Bool.false_ne_true (nonzero.symm.trans equal)
    have quotient := yields_div ((isFinite_neg g).trans finite_g) finite sum_pos.ne'
    rw [value_neg] at quotient
    have ratio_le : |-value g / value (absSum gradient)| ≤ value One.one := by
      rw [abs_div, abs_neg, abs_of_pos sum_pos, value_one]
      exact (div_le_one sum_pos).mpr size_le
    have component_le : |value (-g / absSum gradient)| ≤ 1 :=
      (quotient.abs_value_le ratio_le).trans_eq value_one
    have product := yields_mul finite_g (quotient.finite isFinite_one ratio_le)
    refine product.damped (isFinite_abs finite_g) ?_ ?_
    · rcases le_total 0 (value g) with nonneg | nonpos
      · exact mul_nonpos_of_nonneg_of_nonpos nonneg
          (quotient.nonpos (div_nonpos_of_nonpos_of_nonneg (neg_nonpos.mpr nonneg) sum_pos.le))
      · exact mul_nonpos_of_nonpos_of_nonneg nonpos
          (quotient.nonneg (div_nonneg (neg_nonneg.mpr nonpos) sum_pos.le))
    · calc -(value g * value (-g / absSum gradient))
          ≤ |value g * value (-g / absSum gradient)| := neg_le_abs _
        _ = |value g| * |value (-g / absSum gradient)| := abs_mul _ _
        _ ≤ |value g| := mul_le_of_le_one_right (abs_nonneg _) component_le
        _ = value g.abs := (value_abs g).symm
  · rename_i infinite
    obtain ⟨finite_neg, vanishes⟩ := div_infinity infinite not_nan
    have finite_component : (-g / absSum gradient).isFinite = true :=
      finite_of_abs_le not_nan isFinite_zero (by rw [vanishes, abs_zero, value_zero])
    have product := yields_mul ((isFinite_neg g).symm.trans finite_neg) finite_component
    rw [vanishes, mul_zero] at product
    exact product.damped isFinite_zero le_rfl (by rw [neg_zero, value_zero])

theorem isFinite_slopeBound :
    (gradient.sumBy fun _ g => slopeBound gradient g).isFinite = true := by
  rw [sumBy_eq_total]
  by_cases finite : (absSum gradient).isFinite = true
  · simp only [slopeBound, finite, if_true]
    rw [absSum, sumBy_eq_total] at finite
    exact finite
  · simp only [slopeBound, finite, Bool.false_eq_true, if_false]
    rw [List.map_const', total_zeros]
    exact isFinite_zero

/-- A slope along a direction without NaN is finite and not positive. -/
theorem slope_nonpos (nonzero : (absSum gradient == 0) = false)
    (not_nan : ∀ name ∈ gradient.keys, (heading gradient name).isNaN = false) :
    (gradient.sumBy fun name g => g * heading gradient name).isFinite = true ∧
      value (gradient.sumBy fun name g => g * heading gradient name) ≤ 0 := by
  have finite : (gradient.sumBy fun _ g => slopeBound gradient g).isFinite = true :=
    isFinite_slopeBound
  rw [sumBy_eq_total] at finite
  rw [sumBy_eq_total]
  have each : ∀ e ∈ gradient.toList,
      Damped (e.2 * heading gradient e.1) (slopeBound gradient e.2) := by
    intro e mem
    exact damped_term nonzero (Bindings.get?_eq_some_iff.mpr mem)
      (not_nan e.1 (List.mem_map_of_mem mem))
  have damped := damped_total each finite
  exact ⟨damped.finite, damped.nonpos⟩

/-- **What is asked of a step in a direction without NaN is finite and not negative.** -/
theorem asked_nonneg (search : LineSearch Float) (nonzero : (absSum gradient == 0) = false)
    (not_nan : ∀ name ∈ gradient.keys, (heading gradient name).isNaN = false) :
    (asked search gradient).isFinite = true ∧ 0 ≤ value (asked search gradient) := by
  obtain ⟨control_finite, control_nonneg, control_le⟩ := finite_of_unit_range search.control_range
  obtain ⟨slope_finite, nonpos⟩ := slope_nonpos nonzero not_nan
  rw [asked]
  generalize (gradient.sumBy fun name g => g * heading gradient name) = slope
    at slope_finite nonpos ⊢
  have product := yields_mul ((isFinite_neg search.control).trans control_finite) slope_finite
  rw [value_neg] at product
  have exact_nonneg : 0 ≤ -value search.control * value slope :=
    mul_nonneg_of_nonpos_of_nonpos (neg_nonpos.mpr control_nonneg) nonpos
  refine ⟨product.finite (isFinite_abs slope_finite) ?_, product.nonneg exact_nonneg⟩
  rw [abs_mul, abs_neg, abs_of_nonneg control_nonneg, value_abs]
  exact mul_le_of_le_one_left (abs_nonneg _) control_le

end

/-! ### Costs -/

section

variable {objective : Objective Float} {config : Config Float} {e e' : Event Float}
  {p gradient : Point Float} {cost : Float} {j : Nat}

/-- A direction along which a candidate without NaN lies has no component that is NaN. -/
theorem heading_not_nan {search : LineSearch Float} (cost_eq : objective.cost p = .ok cost)
    (gradient_eq : objective.gradient p = .ok gradient)
    (numbers : ∀ name x, (candidate search p gradient j).get? name = some x → x.isNaN = false) :
    ∀ name ∈ gradient.keys, (heading gradient name).isNaN = false := by
  intro name mem
  obtain ⟨x, found⟩ := Bindings.mem_keys_iff.mp
    (Objective.mem_keys_of_gradient cost_eq gradient_eq mem)
  have number := numbers name _ (get?_candidate search gradient j found)
  exact (not_nan_of_mul (not_nan_of_add number).2).2

theorem Successor.heading_not_nan (h : Successor objective config e e' gradient j)
    (cost_eq : objective.cost e.point = .ok e.cost) :
    ∀ name ∈ gradient.keys, (heading gradient name).isNaN = false := by
  have numbers : ∀ name x, (candidate config.lineSearch e.point gradient j).get? name = some x →
      x.isNaN = false := by
    intro name x found
    rw [← h.point_eq] at found
    exact Point.not_nan_of_get? h.finite found
  exact Descent.heading_not_nan cost_eq h.searches.gradient_eq numbers

/-- What is asked of a step of any size is a number and not negative.  It may have vanished. -/
theorem threshold_nonneg (search : LineSearch Float) (j : Nat)
    (nonzero : (absSum gradient == 0) = false)
    (not_nan : ∀ name ∈ gradient.keys, (heading gradient name).isNaN = false) :
    (search.stepSize j * asked search gradient).isNaN = false ∧
      0 ≤ value (search.stepSize j * asked search gradient) := by
  obtain ⟨step_finite, step_nonneg⟩ := search.stepSize_nonneg j
  obtain ⟨asked_finite, asked_ge⟩ := asked_nonneg search nonzero not_nan
  have product := yields_mul step_finite asked_finite
  exact ⟨product.not_nan, product.nonneg (mul_nonneg step_nonneg asked_ge)⟩

/-- **The cost of a successor is not higher**, unless it or the one before is NaN. -/
theorem Successor.cost_le (h : Successor objective config e e' gradient j)
    (cost_eq : objective.cost e.point = .ok e.cost) (not_nan : e.cost.isNaN = false)
    (not_nan' : e'.cost.isNaN = false) : e'.cost ≤ e.cost := by
  obtain ⟨number, nonneg⟩ := threshold_nonneg config.lineSearch j h.searches.absSum_ne_zero
    (h.heading_not_nan cost_eq)
  refine le_iff.mpr ⟨not_nan', not_nan, ?_⟩
  by_contra higher
  obtain ⟨not_nan_sub, negative⟩ := sub_neg_of_lt not_nan not_nan' (not_le.mp higher)
  exact h.not_less (lt_iff.mpr ⟨not_nan_sub, number, negative.trans_le nonneg⟩)

end

/-- **Costs that are shown do not rise.** -/
theorem cost_le_of_getElem? {σ : Type} {objective : Objective Float} {start : Point Float}
    {config : Config Float} {observer : Observer (Event Float) σ} {state : σ} {log : Log Float}
    {k : Nat} {e e' : Event Float}
    (here : (shown objective start config observer state log)[k]? = some e)
    (next : (shown objective start config observer state log)[k + 1]? = some e')
    (not_nan : e.cost.isNaN = false) (not_nan' : e'.cost.isNaN = false) : e'.cost ≤ e.cost := by
  obtain ⟨gradient, j, successor⟩ := (follows_of_getElem? here next).successor
  exact successor.cost_le (noted_of_mem_shown (List.mem_of_getElem? here)).1 not_nan not_nan'

theorem isMonotone_feed {σ : Type} {objective : Objective Float} {start : Point Float}
    {config : Config Float} {observer : Observer (Event Float) σ} {state : σ} {log : Log Float}
    (not_nan : ∀ e ∈ shown objective start config observer state log, e.cost.isNaN = false) :
    (historian.feed ∅ (shown objective start config observer state log)).isMonotone = true := by
  have entries : (historian.feed ∅
      (shown objective start config observer state log)).entries.toList =
        (shown objective start config observer state log).map Event.reading :=
    CostHistory.entries_feed Event.reading _ ∅
  rw [CostHistory.isMonotone_eq_true_iff, CostHistory.costs, entries, List.map_map,
    List.isChain_map, List.isChain_iff_getElem]
  intro k inside
  have here := List.getElem?_eq_getElem (Nat.lt_of_succ_lt inside)
  have next := List.getElem?_eq_getElem inside
  exact cost_le_of_getElem? here next (not_nan _ (List.mem_of_getElem? here))
    (not_nan _ (List.mem_of_getElem? next))

/-- **The costs of a solve do not rise**: of two consecutive costs that are not NaN, infinite
ones included, the later one is not higher.  A history of costs that are not NaN is monotone. -/
theorem solve_costs {σ : Type} (objective : Objective Float) (start : Point Float)
    (config : Config Float) (log : Log Float) :
    (∀ (observer : Observer (Event Float) σ) (state : σ) (k : Nat) (e e' : Event Float),
      (shown objective start config observer state log)[k]? = some e →
      (shown objective start config observer state log)[k + 1]? = some e' →
      e.cost.isNaN = false → e'.cost.isNaN = false → e'.cost ≤ e.cost) ∧
    (∀ (observer : Observer (Event Float) σ) (state : σ),
      (∀ e ∈ shown objective start config observer state log, e.cost.isNaN = false) →
      (historian.feed ∅ (shown objective start config observer state log)).isMonotone = true) ∧
    ((∀ e ∈ shown objective start config historian ∅ log, e.cost.isNaN = false) →
      (solve objective start config historian ∅ log).observer.isMonotone = true) := by
  refine ⟨?_, ?_, ?_⟩
  · intro observer state k e e' here next not_nan not_nan'
    exact cost_le_of_getElem? here next not_nan not_nan'
  · intro observer state not_nan
    exact isMonotone_feed not_nan
  · intro not_nan
    rw [observer_solve]
    exact isMonotone_feed not_nan

/-- A point so far up the bowl that its cost is infinite. -/
def farPoint : Point Float := .ofList [("x", 1e200), ("y", 1)]

/-- A step between infinite costs, and the history of a descent to the root. -/
theorem solve_costs_bowl :
    let far := shown bowl farPoint (Config.standard.withMaxIters 1) Observer.silent () .silent
    let near := shown bowl slopePoint .standard historian ∅ .silent
    (∃ e e', far[0]? = some e ∧ far[1]? = some e' ∧ e.cost.isFinite = false ∧
      e'.cost.isNaN = false ∧ e'.cost ≤ e.cost) ∧
    near.length = 4 ∧
      (solve bowl slopePoint .standard historian ∅ .silent).observer.isMonotone = true := by
  intro far near
  have first : far[0]?.any (fun e => !e.cost.isFinite && !e.cost.isNaN) = true := by
    decide +kernel
  have second : far[1]?.any (fun e => !e.cost.isNaN) = true := by decide +kernel
  have numbers : near.all (fun e => !e.cost.isNaN) = true := by decide +kernel
  have four : near.length = 4 := by decide +kernel
  obtain ⟨e, he, infinite⟩ := (Option.any_eq_true _ _).mp first
  obtain ⟨e', he', not_nan'⟩ := (Option.any_eq_true _ _).mp second
  simp only [Bool.and_eq_true, Bool.not_eq_true'] at infinite not_nan'
  obtain ⟨falls, -, -⟩ := solve_costs bowl farPoint (Config.standard.withMaxIters 1) .silent
  obtain ⟨-, -, monotone⟩ := @solve_costs Unit bowl slopePoint .standard .silent
  refine ⟨⟨e, e', he, he', infinite.1, not_nan', ?_⟩, four, monotone ?_⟩
  · exact falls Observer.silent () 0 e e' he he' infinite.2 not_nan'
  · intro e mem
    simpa using List.all_eq_true.mp numbers e mem

end Descent

end Downhill
