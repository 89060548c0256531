/-
Descent in exact arithmetic.

Here the numbers are those of an ordered field, where nothing overflows and nothing is
rounded.  Then the direction has length one, and the slope along it is the sum of the
squares of the partial derivatives over the sum of their absolute values, with the opposite
sign.  A gradient that a search starts from is not zero, so the slope is not either, and
every step lowers the cost: by at least the control's share of what the slope promises for a
step of its size.  This is Armijo's condition, `IsArmijoStep`.

`solve_armijo` says so of every step of a solve, and what follows from it: the costs fall
strictly, and no point is visited twice.
-/
import Downhill.Proofs.Descent.Succession
import Mathlib.Algebra.BigOperators.Ring.List
import Mathlib.Algebra.Order.BigOperators.Group.List
import Mathlib.Algebra.Order.Field.Rat
import Mathlib.Tactic.Positivity
import Mathlib.Tactic.Ring

namespace Downhill

/-- In an ordered field every number is an ordinary one. -/
instance instMagnitudeOrderedField {α : Type} [Field α] [LinearOrder α] : Magnitude α where
  abs x := |x|
  isFinite _ := true

/-! ### Exact sums -/

namespace Bindings

variable {α β γ : Type}

theorem sumBy_map [Zero γ] [Add γ] (b : Bindings α) (f : String → α → β) (g : String → β → γ) :
    (b.map f).sumBy g = b.sumBy fun name x => g name (f name x) :=
  List.foldl_map

theorem sumBy_eq_sum [AddMonoid β] (b : Bindings α) (f : String → α → β) :
    b.sumBy f = (b.toList.map fun e => f e.1 e.2).sum := by
  rw [sumBy, List.sum_eq_foldl, List.foldl_map]

/-- Only the terms for the entries matter. -/
theorem sumBy_congr [AddMonoid β] {b : Bindings α} {f g : String → α → β}
    (h : ∀ name x, b.get? name = some x → f name x = g name x) : b.sumBy f = b.sumBy g := by
  rw [sumBy_eq_sum, sumBy_eq_sum]
  congr 1
  refine List.map_congr_left ?_
  rintro ⟨name, x⟩ mem
  exact h name x (get?_eq_some_iff.mpr mem)

theorem sumBy_mul [NonUnitalNonAssocSemiring β] (b : Bindings α) (f : String → α → β) (c : β) :
    (b.sumBy fun name x => f name x * c) = b.sumBy f * c := by
  rw [sumBy_eq_sum, sumBy_eq_sum, List.sum_map_mul_right]

section

variable [AddCommMonoid β] [PartialOrder β] [IsOrderedAddMonoid β] {b : Bindings α}
  {f : String → α → β}

theorem sumBy_nonneg (h : ∀ name x, 0 ≤ f name x) : 0 ≤ b.sumBy f := by
  rw [sumBy_eq_sum]
  refine List.sum_nonneg ?_
  intro term mem
  obtain ⟨e, -, rfl⟩ := List.mem_map.mp mem
  exact h e.1 e.2

/-- A sum of terms that are not negative is at least each of them. -/
theorem le_sumBy (h : ∀ name x, 0 ≤ f name x) {name : String} {x : α}
    (found : b.get? name = some x) : f name x ≤ b.sumBy f := by
  rw [sumBy_eq_sum]
  refine List.single_le_sum ?_ _ (List.mem_map_of_mem (get?_eq_some_iff.mp found))
  intro term mem
  obtain ⟨e, -, rfl⟩ := List.mem_map.mp mem
  exact h e.1 e.2

end

end Bindings

namespace Descent

variable {α σ : Type} [Field α] [LinearOrder α] [IsStrictOrderedRing α]

/-! ### Directions -/

/-- The sum of the squared components. -/
def sumSq (p : Point α) : α := p.sumBy fun _ x => x ^ 2

theorem absSum_nonneg (p : Point α) : 0 ≤ absSum p :=
  Bindings.sumBy_nonneg fun _ x => abs_nonneg x

omit [IsStrictOrderedRing α] in
theorem exists_direction_iff {gradient : Point α} :
    (∃ direction, direction? gradient = some direction) ↔ absSum gradient ≠ 0 := by
  rw [← Option.ne_none_iff_exists', ne_eq, direction?_eq_none_iff, beq_iff_eq]

/-- **A direction has length one.** -/
theorem absSum_direction {gradient direction : Point α}
    (h : direction? gradient = some direction) : absSum direction = 1 := by
  have nonzero := exists_direction_iff.mp ⟨direction, h⟩
  have each : ∀ g : α, |-g / absSum gradient| = |g| * (absSum gradient)⁻¹ := by
    intro g
    rw [abs_div, abs_neg, abs_of_nonneg (absSum_nonneg gradient), div_eq_mul_inv]
  rw [direction?, if_neg (by simpa using nonzero)] at h
  cases h
  calc absSum (gradient.map fun _ g => -g / absSum gradient)
      = gradient.sumBy fun _ g => |-g / absSum gradient| := Bindings.sumBy_map _ _ _
    _ = gradient.sumBy fun _ g => |g| * (absSum gradient)⁻¹ := by simp only [each]
    _ = absSum gradient * (absSum gradient)⁻¹ := Bindings.sumBy_mul _ _ _
    _ = 1 := mul_inv_cancel₀ nonzero

theorem absSum_pos {gradient : Point α} {name : String} {g : α}
    (found : gradient.get? name = some g) (ne : g ≠ 0) : 0 < absSum gradient :=
  (abs_pos.mpr ne).trans_le (Bindings.le_sumBy (fun _ x => abs_nonneg x) found)

/-- A gradient that has a length has squares that do not sum to zero. -/
theorem sumSq_pos {gradient : Point α} (nonzero : absSum gradient ≠ 0) : 0 < sumSq gradient := by
  obtain ⟨name, g, found, ne⟩ : ∃ name g, gradient.get? name = some g ∧ g ≠ 0 := by
    by_contra none
    push Not at none
    have vanishes : absSum gradient = gradient.sumBy fun _ _ => (0 : α) := by
      refine Bindings.sumBy_congr ?_
      intro name g found
      rw [none name g found]
      exact abs_zero
    rw [vanishes, Bindings.sumBy_eq_sum, List.map_const', List.sum_replicate, nsmul_zero] at nonzero
    exact nonzero rfl
  calc 0 < g ^ 2 := by positivity
    _ ≤ sumSq gradient := Bindings.le_sumBy (fun _ x => sq_nonneg x) found

/-- The slope along the direction, name by name. -/
theorem sumBy_mul_heading (gradient : Point α) :
    (gradient.sumBy fun name g => g * heading gradient name) =
      -(sumSq gradient / absSum gradient) := by
  have terms : (gradient.sumBy fun name g => g * heading gradient name) =
      gradient.sumBy fun _ g => g ^ 2 * -(absSum gradient)⁻¹ := by
    refine Bindings.sumBy_congr ?_
    intro name g found
    rw [heading_of_get? found]
    ring
  rw [terms, Bindings.sumBy_mul, sumSq]
  ring

/-- What is asked of a step of size one is the control's share of what the slope promises. -/
theorem asked_eq (search : LineSearch α) (gradient : Point α) :
    asked search gradient = search.control * (sumSq gradient / absSum gradient) := by
  rw [asked, sumBy_mul_heading, neg_mul_neg]

theorem slope_eq {gradient direction : Point α} (dir : direction? gradient = some direction) :
    slope gradient direction = -(sumSq gradient / absSum gradient) := by
  simp only [slope, component_direction dir, sumBy_mul_heading]

/-- A direction leads downhill. -/
theorem slope_neg {gradient direction : Point α} (dir : direction? gradient = some direction) :
    slope gradient direction < 0 := by
  have nonzero := exists_direction_iff.mp ⟨direction, dir⟩
  have length_pos := lt_of_le_of_ne (absSum_nonneg gradient) nonzero.symm
  rw [slope_eq dir, neg_neg_iff_pos]
  exact div_pos (sumSq_pos nonzero) length_pos

/-! ### Step sizes -/

omit [IsStrictOrderedRing α] in
theorem stepSize_eq (search : LineSearch α) (j : Nat) :
    search.stepSize j = search.initialStep * search.shrink ^ j := by
  induction j with
  | zero => rw [LineSearch.stepSize, pow_zero, mul_one]
  | succ j ih => rw [LineSearch.stepSize, ih, pow_succ, mul_assoc]

theorem stepSize_pos (search : LineSearch α) (j : Nat) : 0 < search.stepSize j := by
  have initial_pos := not_le.mp search.initialStep_pos
  have shrink_pos := search.shrink_range.1
  rw [stepSize_eq]
  positivity

/-! ### Armijo's condition -/

/-- A step from `p` to `q` goes in the direction of steepest descent, for as far as the
initial step, shrunk a number of times, and lowers the cost by at least the control's share of
what the slope promises for this. -/
def IsArmijoStep (objective : Objective α) (search : LineSearch α) (p q : Point α) : Prop :=
  ∃ (cost cost' : α) (gradient direction : Point α) (j : Nat),
    objective.cost p = .ok cost ∧ objective.cost q = .ok cost' ∧
      objective.gradient p = .ok gradient ∧ direction? gradient = some direction ∧
      1 ≤ j ∧ j ≤ search.maxShrinks ∧
      q = advance p direction (search.initialStep * search.shrink ^ j) ∧
      0 < search.control * (search.initialStep * search.shrink ^ j) *
        (sumSq gradient / absSum gradient) ∧
      search.control * (search.initialStep * search.shrink ^ j) *
        (sumSq gradient / absSum gradient) ≤ cost - cost'

section

variable {objective : Objective α} {config : Config α} {e e' : Event α}

/-- **An event and its successor are an Armijo step apart.** -/
theorem Successor.isArmijoStep {gradient : Point α} {j : Nat}
    (h : Successor objective config e e' gradient j)
    (cost_eq : objective.cost e.point = .ok e.cost) :
    IsArmijoStep objective config.lineSearch e.point e'.point := by
  have nonzero : absSum gradient ≠ 0 := by simpa using h.searches.absSum_ne_zero
  obtain ⟨direction, dir⟩ := exists_direction_iff.mpr nonzero
  have promised : config.lineSearch.stepSize j * asked config.lineSearch gradient =
      config.lineSearch.control * (config.lineSearch.initialStep * config.lineSearch.shrink ^ j) *
        (sumSq gradient / absSum gradient) := by
    rw [asked_eq, stepSize_eq]
    ring
  refine ⟨e.cost, e'.cost, gradient, direction, j, cost_eq, h.cost_eq, h.searches.gradient_eq, dir,
    h.first.one_le, h.first.le_maxShrinks, ?_, ?_, ?_⟩
  · rw [h.point_eq, ← stepSize_eq]
    exact candidate_eq_advance config.lineSearch e.point j dir
  · have length_pos := lt_of_le_of_ne (absSum_nonneg gradient) nonzero.symm
    have step_pos := stepSize_pos config.lineSearch j
    have control_pos := config.lineSearch.control_range.1
    have squares_pos := sumSq_pos nonzero
    rw [← stepSize_eq]
    positivity
  · rw [← promised]
    exact not_lt.mp h.not_less

theorem IsArmijoStep.cost_lt {search : LineSearch α} {p q : Point α} {cost cost' : α}
    (h : IsArmijoStep objective search p q) (cost_eq : objective.cost p = .ok cost)
    (cost_eq' : objective.cost q = .ok cost') : cost' < cost := by
  obtain ⟨c, c', gradient, direction, j, hc, hc', -, -, -, -, -, pos, le⟩ := h
  rw [cost_eq] at hc
  rw [cost_eq'] at hc'
  cases hc
  cases hc'
  exact sub_pos.mp (pos.trans_le le)

end

section

variable (objective : Objective α) (start : Point α) (config : Config α)
  (observer : Observer (Event α) σ) (state : σ) (log : Log α)

theorem isChain_armijo :
    (shown objective start config observer state log).IsChain fun e e' =>
      IsArmijoStep objective config.lineSearch e.point e'.point := by
  refine (isChain_shown start observer state log).imp_of_mem_imp ?_
  intro e e' mem mem' follows
  obtain ⟨gradient, j, successor⟩ := follows.successor
  exact successor.isArmijoStep (noted_of_mem_shown mem).1

/-- The costs that are shown fall strictly. -/
theorem pairwise_cost_shown :
    ((shown objective start config observer state log).map Event.cost).Pairwise (· > ·) := by
  rw [← List.isChain_iff_pairwise, List.isChain_map]
  refine (isChain_armijo objective start config observer state log).imp_of_mem_imp ?_
  intro e e' mem mem' step
  exact step.cost_lt (noted_of_mem_shown mem).1 (noted_of_mem_shown mem').1

/-- Points of different costs are different. -/
theorem nodup_point_shown :
    ((shown objective start config observer state log).map Event.point).Nodup := by
  have falls := pairwise_cost_shown objective start config observer state log
  rw [List.pairwise_map] at falls
  rw [List.Nodup, List.pairwise_map]
  refine falls.imp_of_mem ?_
  intro e e' mem mem' less same
  have cost_eq := (noted_of_mem_shown mem).1
  rw [same, (noted_of_mem_shown mem').1] at cost_eq
  exact less.ne (Except.ok.inj cost_eq)

end

/-- **In exact arithmetic every step of a solve is an Armijo step**, so the costs fall strictly
and no point is visited twice. -/
theorem solve_armijo (objective : Objective α) (start : Point α) (config : Config α)
    (observer : Observer (Event α) σ) (state : σ) (log : Log α) (s : Solution α)
    (h : (solve objective start config observer state log).result = .ok s) :
    s.trajectory.toList.IsChain (IsArmijoStep objective config.lineSearch) ∧
      ((shown objective start config observer state log).map Event.cost).Pairwise (· > ·) ∧
      s.trajectory.toList.Nodup ∧
      ∀ gradient direction : Point α, direction? gradient = some direction →
        absSum direction = 1 := by
  rw [← map_point_shown h, List.isChain_map]
  exact ⟨isChain_armijo objective start config observer state log,
    pairwise_cost_shown objective start config observer state log,
    nodup_point_shown objective start config observer state log, fun _ _ => absSum_direction⟩

/-- A bowl over the rationals. -/
def exactBowl : Objective ℚ := .ofEquations [.var "x", .var "y"]

/-- The parameters of a descent over the rationals: a small control, and no tolerance. -/
def exactConfig : Config ℚ where
  maxIters := 5
  epsilon := 0
  lineSearch :=
    { control := 1 / 10, shrink := 2 / 3, initialStep := 3, maxShrinks := 20
      control_range := by decide +kernel
      shrink_range := by decide +kernel
      initialStep_finite := rfl
      initialStep_pos := by decide +kernel
      maxShrinks_ne_zero := by decide +kernel }
  epsilon_finite := rfl
  epsilon_nonneg := by decide +kernel

theorem solve_armijo_exactBowl :
    ∃ s, (solve exactBowl (.ofList [("x", 1), ("y", 2)]) exactConfig Observer.silent ()
        .silent).result = .ok s ∧ s.iters = 5 ∧
      s.trajectory.toList.IsChain (IsArmijoStep exactBowl exactConfig.lineSearch) ∧
      s.trajectory.toList.Nodup := by
  have solved : (solve exactBowl (.ofList [("x", 1), ("y", 2)]) exactConfig Observer.silent ()
      .silent).result.toOption.any (fun s => s.iters == 5) = true := by decide +kernel
  obtain ⟨s, hs, five⟩ := exists_ok_of_any solved
  obtain ⟨steps, -, distinct, -⟩ := solve_armijo exactBowl (.ofList [("x", 1), ("y", 2)])
    exactConfig Observer.silent () .silent s hs
  exact ⟨s, hs, eq_of_beq five, steps, distinct⟩

end Descent

end Downhill
