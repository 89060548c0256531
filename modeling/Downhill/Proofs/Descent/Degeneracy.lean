/-
Points at which a descent has no direction to go.

Where every partial derivative is zero there is no direction of steepest descent, and a
descent that comes to such a point has no result, unless it stops there for another reason.
It does if there is a tolerance: then such a point counts as a local minimum, because zero is
below the tolerance.  Without a tolerance nothing is below it, and what is left to stop at
such a point is a cost of zero, the observer, or the bound on the steps.

The test that notices such a point sees only the rounded sum of the absolute partial
derivatives.  That is enough: a sum of numbers that are not negative is at least each of them,
so it is zero only if they all are (`absSum_eq_zero_iff`).  An objective without variables has
no partial derivatives to compare with the tolerance, and its every point is a local minimum.

`outcome_eq_degenerate_iff` says when a turn gives up, and `solve_degenerate` when a solve
does: exactly where it comes to a point whose turn does.
-/
import Downhill.Proofs.Descent.Limits

namespace Downhill

namespace Descent

open Binary64

variable {σ : Type}

/-! ### Gradients of zeros -/

/-- There are partial derivatives, and every one of them is a zero of either sign. -/
structure Vanishes (gradient : Point Float) : Prop where
  keys_ne_nil : gradient.keys ≠ []
  eq_zero : ∀ name g, gradient.get? name = some g → (g == 0) = true

/-- **The sum of the absolute partial derivatives vanishes only if they all do.** -/
theorem absSum_eq_zero_iff {gradient : Point Float} :
    (absSum gradient == 0) = true ↔
      ∀ name g, gradient.get? name = some g → (g == 0) = true := by
  constructor
  · intro zero name g found
    obtain ⟨not_nan, sum_eq⟩ := beq_zero_iff.mp zero
    obtain ⟨not_nan_g, size_le⟩ := abs_value_le_absSum found not_nan
    exact beq_zero_iff.mpr ⟨not_nan_g, abs_nonpos_iff.mp (size_le.trans_eq sum_eq)⟩
  · intro zeros
    have sum_eq : absSum gradient = total (gradient.toList.map fun e => e.2.abs) :=
      sumBy_eq_total _ _
    rw [sum_eq, beq_zero_iff]
    refine value_total_eq_zero ?_
    intro x mem
    obtain ⟨e, mem', rfl⟩ := List.mem_map.mp mem
    obtain ⟨not_nan, value_eq⟩ :=
      beq_zero_iff.mp (zeros e.1 e.2 (Bindings.get?_eq_some_iff.mpr mem'))
    rw [isNaN_abs, value_abs, value_eq, abs_zero]
    exact ⟨not_nan, rfl⟩

/-! ### Turns -/

section

variable {objective : Objective Float} {config : Config Float} {p : Point Float} {cost c : Float}

/-- Without a tolerance, only a cost of zero is within it. -/
theorem abs_le_epsilon_iff (none : (config.epsilon == 0) = true) (cost : Float) :
    Magnitude.abs cost ≤ config.epsilon ↔ (cost == 0) = true := by
  obtain ⟨not_nan, epsilon_eq⟩ := beq_zero_iff.mp none
  show cost.abs ≤ config.epsilon ↔ (cost == 0) = true
  rw [le_iff, isNaN_abs, value_abs, epsilon_eq, beq_zero_iff, abs_nonpos_iff]
  exact ⟨fun h => ⟨h.1, h.2.2⟩, fun h => ⟨h.1, not_nan, h.2⟩⟩

/-- Without a tolerance, only a gradient without components is below it. -/
theorem stationary_iff_keys_eq_nil (none : (config.epsilon == 0) = true) {gradient : Point Float} :
    Stationary config gradient ↔ gradient.keys = [] := by
  obtain ⟨-, epsilon_eq⟩ := beq_zero_iff.mp none
  constructor
  · intro flat
    refine List.eq_nil_iff_forall_not_mem.mpr fun name mem => ?_
    obtain ⟨g, found⟩ := Bindings.mem_keys_iff.mp mem
    have less : g.abs < config.epsilon := flat name g found
    obtain ⟨-, -, below⟩ := lt_iff.mp less
    rw [value_abs, epsilon_eq] at below
    exact (abs_nonneg _).not_gt below
  · intro empty name g found
    have mem := Bindings.mem_keys_iff.mpr ⟨g, found⟩
    rw [empty] at mem
    cases mem

/-- **A turn gives up where there is no tolerance, the cost is not zero and the gradient
vanishes**, and nowhere else. -/
theorem outcome_eq_degenerate_iff (cost_eq : objective.cost p = .ok c) :
    outcome objective config p cost = .error .degenerateGradient ↔
      (config.epsilon == 0) = true ∧ (cost == 0) = false ∧
        ∃ gradient, objective.gradient p = .ok gradient ∧ Vanishes gradient := by
  constructor
  · intro gives_up
    have ways := turns_outcome objective config p cost
    rw [gives_up] at ways
    cases ways with
    | @degenerate gradient not_root gradient_eq not_stationary zero =>
        have none := epsilon_eq_zero_of_degenerate not_stationary zero
        rw [abs_le_epsilon_iff none, Bool.not_eq_true] at not_root
        rw [stationary_iff_keys_eq_nil none] at not_stationary
        exact ⟨none, not_root, gradient, gradient_eq, not_stationary, absSum_eq_zero_iff.mp zero⟩
  · rintro ⟨none, nonzero, gradient, gradient_eq, vanishes⟩
    have not_root : ¬ Magnitude.abs cost ≤ config.epsilon := by
      rw [abs_le_epsilon_iff none, nonzero]
      exact Bool.false_ne_true
    have not_stationary : ¬ Stationary config gradient :=
      (stationary_iff_keys_eq_nil none).not.mpr vanishes.keys_ne_nil
    exact outcome_of_turns cost_eq
      (.degenerate not_root gradient_eq not_stationary (absSum_eq_zero_iff.mpr vanishes.eq_zero))

/-- An objective without variables has a cost everywhere. -/
theorem exists_cost_of_no_variables (empty : objective.expr.variableNames = []) (p : Point Float) :
    ∃ cost, objective.cost p = .ok cost := by
  rcases cost_eq : objective.cost p with err | cost
  · obtain ⟨name, occurs, -⟩ := Expr.exists_eval_eq_error_iff.mp ⟨err, cost_eq⟩
    rw [← Expr.mem_variableNames, empty] at occurs
    cases occurs
  · exact ⟨cost, rfl⟩

/-- Where there are no variables, every point that is no root is a local minimum. -/
theorem outcome_of_no_variables (cost_eq : objective.cost p = .ok c)
    (empty : objective.expr.variableNames = [])
    (not_root : ¬ Magnitude.abs cost ≤ config.epsilon) :
    outcome objective config p cost = .ok (.halt .localMinimum) := by
  obtain ⟨gradient, gradient_eq⟩ := Objective.exists_gradient cost_eq
  refine outcome_of_turns cost_eq (.stationary not_root gradient_eq ?_)
  intro name g found
  have mem := Bindings.mem_keys_iff.mpr ⟨g, found⟩
  rw [Objective.keys_gradient gradient_eq, empty] at mem
  cases mem

end

/-! ### Solves -/

section

variable {objective : Objective Float} {start : Point Float} {config : Config Float}
  {observer : Observer (Event Float) σ} {state : σ} {log : Log Float}

/-- **A solve gives up where it comes to an event at which the turn does**, with a step left and
no stop before it or at it. -/
theorem solve_eq_degenerate_iff :
    (solve objective start config observer state log).result = .error .degenerateGradient ↔
      ∃ k e, (shown objective start config observer state log)[k]? = some e ∧
        k < config.maxIters ∧
        observer.firstStop? state
          ((shown objective start config observer state log).take (k + 1)) = none ∧
        outcome objective config e.point e.cost = .error .degenerateGradient := by
  rcases cost_eq : objective.cost start with err | cost
  · simp [shown_of_error cost_eq, solve_of_error config cost_eq]
  rw [solve_eq_error_iff, solveUnobserved_of_cost config cost_eq, Course.result_eq_error_iff]
  constructor
  · rintro ⟨goes_on, ends⟩
    obtain ⟨e, mem, before, fails⟩ :=
      exists_mem_events_of_ending config.maxIters start cost ⟨0, start, cost⟩ rfl rfl ends
    have never := firstStop?_shown objective start config observer state log ▸ goes_on
    rw [← events_of_cost cost_eq, ← shown_of_never never log] at mem
    obtain ⟨k, found⟩ := List.mem_iff_getElem?.mp mem
    have last := take_shown_of_not_step found fun c stepped => by simp [fails] at stepped
    refine ⟨k, e, found, ?_, last.symm ▸ goes_on, fails⟩
    rwa [step_of_getElem?_shown found, Nat.zero_add] at before
  · rintro ⟨k, e, found, before, goes_on, fails⟩
    rw [take_shown_of_not_step found fun c stepped => by simp [fails] at stepped] at goes_on
    have never := firstStop?_shown objective start config observer state log ▸ goes_on
    have place := step_of_getElem?_shown found
    rw [shown_of_never never log, events_of_cost cost_eq] at found
    obtain ⟨m, left, ending_eq⟩ := ending_of_mem_events config.maxIters start cost
      ⟨0, start, cost⟩ e rfl rfl (List.mem_of_getElem? found)
    obtain ⟨m, rfl⟩ : ∃ j, m = j + 1 := Nat.exists_eq_add_one.mpr (by omega)
    exact ⟨goes_on, by rw [ending_eq, course_of_error fails]⟩

/-- A solve with a tolerance does not give up. -/
theorem solve_ne_degenerate (positive : 0 < config.epsilon) :
    (solve objective start config observer state log).result ≠ .error .degenerateGradient := by
  intro fails
  obtain ⟨k, e, found, -, -, gives_up⟩ := solve_eq_degenerate_iff.mp fails
  have cost_eq := (noted_of_mem_shown (List.mem_of_getElem? found)).1
  obtain ⟨-, epsilon_eq⟩ := beq_zero_iff.mp ((outcome_eq_degenerate_iff cost_eq).mp gives_up).1
  have above := (lt_iff.mp positive).2.2
  rw [epsilon_eq] at above
  exact value_zero.not_lt above

/-- Where there are no variables, a solve that is let go ends where it starts. -/
theorem solve_of_no_variables {cost : Float} (cost_eq : objective.cost start = .ok cost)
    (empty : objective.expr.variableNames = []) (not_root : ¬ Magnitude.abs cost ≤ config.epsilon)
    (positive : 0 < config.maxIters)
    (goes_on : (observer.next state ⟨0, start, cost⟩).2 = .proceed) :
    ∃ s, (solve objective start config observer state log).result = .ok s ∧
      s.status = .localMinimum := by
  obtain ⟨n, one_more⟩ := Nat.exists_eq_add_one.mpr positive
  have course_eq :
      course objective config config.maxIters start cost = ⟨[], .ok .localMinimum⟩ := by
    rw [one_more]
    exact course_of_halt (outcome_of_no_variables cost_eq empty not_root) n
  refine ⟨Solution.startingAt start cost .localMinimum, ?_, rfl⟩
  rw [(solve_of_cost config cost_eq observer state log).1, course_eq,
    Course.under_nil (Prod.ext rfl goes_on)]
  rfl

end

/-- **Only without a tolerance is a gradient of zeros an error.** -/
theorem solve_degenerate (objective : Objective Float) (start : Point Float)
    (config : Config Float) (observer : Observer (Event Float) σ) (state : σ) (log : Log Float) :
    (0 < config.epsilon →
      (solve objective start config observer state log).result ≠ .error .degenerateGradient) ∧
    ((config.epsilon == 0) = true →
      ((solve objective start config observer state log).result = .error .degenerateGradient ↔
        ∃ k e, (shown objective start config observer state log)[k]? = some e ∧
          k < config.maxIters ∧
          observer.firstStop? state
            ((shown objective start config observer state log).take (k + 1)) = none ∧
          (e.cost == 0) = false ∧ objective.expr.variableNames ≠ [] ∧
          ∃ gradient, objective.gradient e.point = .ok gradient ∧
            ∀ name g, gradient.get? name = some g → (g == 0) = true)) ∧
    (objective.expr.variableNames = [] →
      (solve objective start config observer state log).result ≠ .error .degenerateGradient ∧
      ∃ cost, objective.cost start = .ok cost ∧
        (((config.epsilon == 0) = true ∧ (cost == 0) = false ∨
            ¬ Magnitude.abs cost ≤ config.epsilon) →
          0 < config.maxIters → (observer.next state ⟨0, start, cost⟩).2 = .proceed →
          ∃ s, (solve objective start config observer state log).result = .ok s ∧
            s.status = .localMinimum)) := by
  refine ⟨solve_ne_degenerate, ?_, ?_⟩
  · intro none
    rw [solve_eq_degenerate_iff]
    refine exists₂_congr fun k e => and_congr_right fun found => and_congr_right fun _ =>
      and_congr_right fun _ => ?_
    rw [outcome_eq_degenerate_iff (noted_of_mem_shown (List.mem_of_getElem? found)).1]
    constructor
    · rintro ⟨-, nonzero, gradient, gradient_eq, vanishes⟩
      exact ⟨nonzero, Objective.keys_gradient gradient_eq ▸ vanishes.keys_ne_nil, gradient,
        gradient_eq, vanishes.eq_zero⟩
    · rintro ⟨nonzero, names, gradient, gradient_eq, zeros⟩
      exact ⟨none, nonzero, gradient, gradient_eq,
        (Objective.keys_gradient gradient_eq).symm ▸ names, zeros⟩
  · intro empty
    refine ⟨?_, ?_⟩
    · intro fails
      obtain ⟨k, e, found, -, -, gives_up⟩ := solve_eq_degenerate_iff.mp fails
      have cost_eq := (noted_of_mem_shown (List.mem_of_getElem? found)).1
      obtain ⟨-, -, gradient, gradient_eq, vanishes⟩ :=
        (outcome_eq_degenerate_iff cost_eq).mp gives_up
      exact vanishes.keys_ne_nil ((Objective.keys_gradient gradient_eq).trans empty)
    · obtain ⟨cost, cost_eq⟩ := exists_cost_of_no_variables empty start
      refine ⟨cost, cost_eq, fun not_zero positive verdict => ?_⟩
      refine solve_of_no_variables cost_eq empty ?_ positive verdict
      rcases not_zero with ⟨none, nonzero⟩ | not_root
      · rw [abs_le_epsilon_iff none, nonzero]
        exact Bool.false_ne_true
      · exact not_root

/-- An objective without variables. -/
def level (height : Float) : Objective Float := .ofExpr (.const height)

/-- The bowl is descended into with a tolerance, at the bottom of the basin there is no way to go
without one, and a level is flat but has neither. -/
theorem solve_degenerate_basin :
    (0 < Config.standard.epsilon ∧
      (solve bowl slopePoint .standard Observer.silent () .silent).result ≠
        .error .degenerateGradient) ∧
    ((strict.epsilon == 0) = true ∧
      ∃ k e, (shown basin (.ofList [("x", 0)]) strict Observer.silent () .silent)[k]? = some e ∧
        k < strict.maxIters ∧ (e.cost == 0) = false ∧
        ∃ gradient, basin.gradient e.point = .ok gradient ∧
          ∀ name g, gradient.get? name = some g → (g == 0) = true) ∧
    ((level 1).expr.variableNames = [] ∧
      ∃ s, (solve (level 1) ∅ strict Observer.silent () .silent).result = .ok s ∧
        s.status = .localMinimum) := by
  have positive : 0 < Config.standard.epsilon := by decide
  have none : (strict.epsilon == 0) = true := by decide
  have fails : (solve basin (.ofList [("x", 0)]) strict Observer.silent () .silent).result =
      .error .degenerateGradient := by
    have status_eq : (solve basin (.ofList [("x", 0)]) strict Observer.silent () .silent).result.map
        Solution.status = .error .degenerateGradient := by decide +kernel
    obtain ⟨err, failed⟩ := exists_error_of_not_isOk (x := (solve basin (.ofList [("x", 0)]) strict
      Observer.silent () .silent).result) (by decide +kernel)
    rw [failed] at status_eq ⊢
    exact congrArg _ (Except.error.inj status_eq)
  have empty : (level 1).expr.variableNames = [] := by decide +kernel
  obtain ⟨k, e, found, before, -, nonzero, -, gradient, gradient_eq, zeros⟩ :=
    ((solve_degenerate basin (.ofList [("x", 0)]) strict Observer.silent () .silent).2.1 none).mp
      fails
  obtain ⟨-, cost, cost_eq, ends⟩ :=
    (solve_degenerate (level 1) ∅ strict Observer.silent () .silent).2.2 empty
  have one : cost = 1 := Except.ok.inj (cost_eq.symm.trans rfl)
  refine ⟨⟨positive, (solve_degenerate bowl slopePoint .standard _ () .silent).1 positive⟩,
    ⟨none, k, e, found, before, nonzero, gradient, gradient_eq, zeros⟩, empty,
    ends (.inl ⟨none, ?_⟩) (by decide) rfl⟩
  rw [one]
  decide

/-- **A level that is not zero may end otherwise**: within the tolerance it is a root, and an
observer may stop there. -/
theorem level_ends_otherwise :
    (((1e-13 : Float) == 0) = false ∧ 0 < Config.standard.maxIters ∧
      (level 1e-13).expr.variableNames = [] ∧
      ∃ s, (solve (level 1e-13) ∅ .standard Observer.silent () .silent).result = .ok s ∧
        s.status = .converged) ∧
    (0 < strict.maxIters ∧ (level 1).expr.variableNames = [] ∧
      ∃ s, (solve (level 1) ∅ strict (Observer.stopAt.comap Event.reading) (some 0)
          .silent).result = .ok s ∧
        s.status = .stoppedByObserver) := by
  have converges : (solve (level 1e-13) ∅ .standard Observer.silent () .silent).result.toOption.any
      (·.status == .converged) = true := by decide +kernel
  have stops : (solve (level 1) ∅ strict (Observer.stopAt.comap Event.reading) (some 0)
      .silent).result.toOption.any (·.status == .stoppedByObserver) = true := by decide +kernel
  obtain ⟨s, solved, status_s⟩ := exists_ok_of_any converges
  obtain ⟨t, solved', status_t⟩ := exists_ok_of_any stops
  exact ⟨⟨by decide, by decide, by decide +kernel, s, solved, eq_of_beq status_s⟩, by decide,
    by decide +kernel, t, solved', eq_of_beq status_t⟩

end Descent

end Downhill
