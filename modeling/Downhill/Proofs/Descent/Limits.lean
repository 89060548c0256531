/-
Descents that differ in their limits only.

A bound on the steps, a bound on the candidates of a search and a tolerance say when a
descent has had enough.  They do not say where it goes: a descent with wider limits
(`Config.Outlasts`) passes through every point that the other one passes through, in the same
order, and may then go on.  Which candidate a search settles on does not depend on how many
more it might have tried, and a test that fails with the larger tolerance fails with the
smaller one.

What ends the narrower descent without being a limit ends the wider one at the same place:
divergence, and every error (`course_outlasts`).  The wider descent alone can come upon an
error only where the narrower one was content, and only one: a gradient of zeros, when there
is no tolerance at all (`solveUnobserved_limits`).
-/
import Downhill.Proofs.Descent.Decrease

namespace Downhill

open Binary64

/-- The first descent searches as the second one does, and its limits are at least as wide. -/
structure Config.Outlasts (long short : Config Float) : Prop where
  control_eq : long.lineSearch.control = short.lineSearch.control
  shrink_eq : long.lineSearch.shrink = short.lineSearch.shrink
  initialStep_eq : long.lineSearch.initialStep = short.lineSearch.initialStep
  maxIters_le : short.maxIters ≤ long.maxIters
  maxShrinks_le : short.lineSearch.maxShrinks ≤ long.lineSearch.maxShrinks
  epsilon_le : long.epsilon ≤ short.epsilon

namespace Descent

/-! ### Turns -/

section

variable {objective : Objective Float} {long short : Config Float} (h : long.Outlasts short)
  {p gradient : Point Float} {cost : Float}
include h

theorem stepSize_outlasts (j : Nat) :
    long.lineSearch.stepSize j = short.lineSearch.stepSize j := by
  induction j with
  | zero => exact h.initialStep_eq
  | succ j ih => rw [LineSearch.stepSize, LineSearch.stepSize, ih, h.shrink_eq]

theorem candidate_outlasts (p gradient : Point Float) (j : Nat) :
    candidate long.lineSearch p gradient j = candidate short.lineSearch p gradient j := by
  rw [candidate, candidate, stepSize_outlasts h]

theorem asked_outlasts (gradient : Point Float) :
    asked long.lineSearch gradient = asked short.lineSearch gradient := by
  rw [asked, asked, h.control_eq]

theorem not_root_outlasts (not_root : ¬ Magnitude.abs cost ≤ short.epsilon) :
    ¬ Magnitude.abs cost ≤ long.epsilon := by
  intro small
  obtain ⟨-, not_nan, le⟩ := le_iff.mp h.epsilon_le
  exact not_root (le_of_le_of_value_le small not_nan le)

theorem not_stationary_outlasts (not_stationary : ¬ Stationary short gradient) :
    ¬ Stationary long gradient := by
  intro flat
  refine not_stationary fun name g found => ?_
  obtain ⟨-, not_nan, le⟩ := le_iff.mp h.epsilon_le
  obtain ⟨not_nan_g, -, less⟩ := lt_iff.mp (flat name g found)
  exact lt_iff.mpr ⟨not_nan_g, not_nan, less.trans_le le⟩

theorem Searches.outlasts (searches : Searches objective short p cost gradient) :
    Searches objective long p cost gradient :=
  ⟨not_root_outlasts h searches.not_root, searches.gradient_eq,
    not_stationary_outlasts h searches.not_stationary, searches.absSum_ne_zero⟩

theorem FirstSufficient.outlasts {j : Nat}
    (first : FirstSufficient objective short.lineSearch p cost gradient j) :
    FirstSufficient objective long.lineSearch p cost gradient j := by
  refine ⟨first.one_le, first.le_maxShrinks.trans h.maxShrinks_le, ?_, ?_⟩
  · simpa only [Sufficient, candidate_outlasts h, stepSize_outlasts h, asked_outlasts h]
      using first.sufficient
  · intro i one_le before
    simpa only [Insufficient, candidate_outlasts h, stepSize_outlasts h, asked_outlasts h]
      using first.earlier i one_le before

/-- **A turn that is not ended by a limit goes the same way with wider limits.** -/
theorem Turns.outlasts {r : Except SolveError (Turn Float)} (turns : Turns objective short p cost r)
    (unlimited : ∀ status, r = .ok (.halt status) → status = .diverged) :
    Turns objective long p cost r := by
  cases turns with
  | root | stationary | stalled => cases unlimited _ rfl
  | noGradient not_root gradient_eq =>
      exact .noGradient (not_root_outlasts h not_root) gradient_eq
  | degenerate not_root gradient_eq not_stationary zero =>
      exact .degenerate (not_root_outlasts h not_root) gradient_eq
        (not_stationary_outlasts h not_stationary) zero
  | noCost j searches failed =>
      exact .noCost j (searches.outlasts h) (by rwa [candidate_outlasts h])
  | diverged j searches first not_finite =>
      exact .diverged j (searches.outlasts h) (first.outlasts h) (by rwa [candidate_outlasts h])
  | step searches first point_eq cost_eq stepSize_eq finite =>
      exact .step (searches.outlasts h) (first.outlasts h) (by rwa [candidate_outlasts h]) cost_eq
        (by rwa [stepSize_outlasts h]) finite

theorem outcome_outlasts {c : Float} (cost_eq : objective.cost p = .ok c)
    {r : Except SolveError (Turn Float)} (comes_to : outcome objective short p cost = r)
    (unlimited : ∀ status, r = .ok (.halt status) → status = .diverged) :
    outcome objective long p cost = r := by
  refine outcome_of_turns cost_eq (Turns.outlasts h ?_ unlimited)
  rw [← comes_to]
  exact turns_outcome objective short p cost

/-! ### Courses -/

/-- **A course goes on as it did when its limits are widened**, and is the same course if it was
not ended by a limit. -/
theorem course_outlasts (k n : Nat) (p : Point Float) (cost : Float)
    (cost_eq : objective.cost p = .ok cost) :
    (course objective short n p cost).steps <+: (course objective long (n + k) p cost).steps ∧
      ((∀ status, (course objective short n p cost).ending = .ok status → status = .diverged) →
        course objective long (n + k) p cost = course objective short n p cost) := by
  fun_induction course objective short n p cost with
  | case1 p cost =>
      refine ⟨List.nil_prefix, fun unlimited => ?_⟩
      have diverged := unlimited _ rfl
      split at diverged <;> cases diverged
  | case2 n p cost e failed =>
      rw [Nat.succ_add, course_of_error (outcome_outlasts h cost_eq failed (by rintro status ⟨⟩))]
      exact ⟨List.prefix_refl _, fun _ => rfl⟩
  | case3 n p cost status halted =>
      refine ⟨List.nil_prefix, fun unlimited => ?_⟩
      obtain rfl := unlimited status rfl
      rw [Nat.succ_add]
      exact course_of_halt (outcome_outlasts h cost_eq halted (by rintro status ⟨⟩; rfl)) (n + k)
  | case4 n p cost c stepped ih =>
      obtain ⟨begins, same⟩ := ih (noted_of_outcome stepped).cost_eq
      rw [Nat.succ_add, course_of_step (outcome_outlasts h cost_eq stepped (by rintro status ⟨⟩))]
      refine ⟨List.cons_prefix_cons.mpr ⟨rfl, begins⟩, fun unlimited => ?_⟩
      rw [same unlimited]

end

/-! ### Gradients of zeros -/

section

variable {objective : Objective Float} {config : Config Float}

/-- If a gradient of zeros is not below the tolerance, then the tolerance is zero. -/
theorem epsilon_eq_zero_of_degenerate {gradient : Point Float}
    (not_stationary : ¬ Stationary config gradient) (zero : (absSum gradient == 0) = true) :
    (config.epsilon == 0) = true := by
  obtain ⟨not_nan_sum, -, sum_eq⟩ := beq_iff.mp zero
  rw [Stationary] at not_stationary
  push Not at not_stationary
  obtain ⟨name, g, found, not_less⟩ := not_stationary
  obtain ⟨not_nan_g, size_le⟩ := abs_value_le_absSum found not_nan_sum
  obtain ⟨not_nan, -⟩ := isFinite_iff.mp config.epsilon_finite
  refine beq_iff.mpr ⟨not_nan, rfl, le_antisymm ?_ ?_⟩
  · by_contra positive
    refine not_less (lt_iff.mpr ⟨(isNaN_abs g).trans not_nan_g, not_nan, ?_⟩)
    calc value g.abs = |value g| := value_abs g
      _ ≤ value (0 : Float) := size_le.trans_eq sum_eq
      _ < value config.epsilon := not_le.mp positive
  · by_contra negative
    exact config.epsilon_nonneg (lt_iff.mpr ⟨not_nan, rfl, not_le.mp negative⟩)

/-- **A course gives up at a gradient of zeros only if there is no tolerance.** -/
theorem epsilon_eq_zero_of_ending (n : Nat) (p : Point Float) (cost : Float)
    (ends : (course objective config n p cost).ending = .error .degenerateGradient) :
    (config.epsilon == 0) = true := by
  obtain ⟨e, -, -, failed⟩ := exists_mem_events_of_ending n p cost ⟨0, p, cost⟩ rfl rfl ends
  have ways := turns_outcome objective config e.point e.cost
  rw [failed] at ways
  cases ways with
  | degenerate _ _ not_stationary zero =>
      exact epsilon_eq_zero_of_degenerate not_stationary zero

end

/-! ### Solves -/

/-- **Limits cut a solve short and do nothing else.** -/
theorem solveUnobserved_limits (objective : Objective Float) (start : Point Float)
    (long short : Config Float) (h : long.Outlasts short) :
    (∀ s t, solveUnobserved objective start short = .ok s →
      solveUnobserved objective start long = .ok t →
        s.trajectory.toList <+: t.trajectory.toList) ∧
    (∀ s, solveUnobserved objective start short = .ok s → s.status = .diverged →
      solveUnobserved objective start long = .ok s) ∧
    (∀ e, solveUnobserved objective start short = .error e →
      solveUnobserved objective start long = .error e) ∧
    (∀ s e, solveUnobserved objective start short = .ok s →
      solveUnobserved objective start long = .error e →
        e = .degenerateGradient ∧ (long.epsilon == 0) = true) := by
  rcases cost_eq : objective.cost start with err | cost
  · simp [solveUnobserved, solve_of_error _ cost_eq]
  obtain ⟨k, bound⟩ := Nat.exists_eq_add_of_le h.maxIters_le
  obtain ⟨begins, same⟩ := course_outlasts h k short.maxIters start cost cost_eq
  rw [solveUnobserved_of_cost short cost_eq, solveUnobserved_of_cost long cost_eq, bound]
  refine ⟨?_, ?_, ?_, ?_⟩
  · intro s t hs ht
    obtain ⟨-, -, rfl⟩ := Course.result_eq_ok_iff.mp hs
    obtain ⟨-, -, rfl⟩ := Course.result_eq_ok_iff.mp ht
    rw [Solution.toList_walk, Solution.toList_walk]
    exact List.cons_prefix_cons.mpr ⟨rfl, begins.map _⟩
  · intro s hs diverged
    rw [same, hs]
    intro status ending
    obtain ⟨status', ending', rfl⟩ := Course.result_eq_ok_iff.mp hs
    cases ending.symm.trans ending'
    rwa [Solution.status_walk] at diverged
  · intro e he
    rw [same, he]
    intro status ending
    rw [Course.result_eq_error_iff, ending] at he
    cases he
  · intro s e hs he
    rw [Course.result_eq_error_iff] at he
    cases e with
    | eval err => exact absurd he (ending_ne_eval long _ cost_eq err)
    | degenerateGradient => exact ⟨rfl, epsilon_eq_zero_of_ending _ _ _ he⟩

/-- A single step, few candidates and a large tolerance. -/
def hasty : Config Float :=
  { Config.standard with
    maxIters := 1
    epsilon := 1e-3
    lineSearch := { LineSearch.standard with maxShrinks := 8, maxShrinks_ne_zero := by decide }
    epsilon_finite := by decide
    epsilon_nonneg := by decide }

/-- No tolerance. -/
def strict : Config Float :=
  { Config.standard with epsilon := 0, epsilon_finite := by decide, epsilon_nonneg := by decide }

/-- A fourth power, whose gradient overflows far out. -/
def gorge : Objective Float :=
  .ofExpr (.product (.product (.var "x") (.var "x")) (.product (.var "x") (.var "x")))

/-- A square that does not come down to zero. -/
def basin : Objective Float := .ofExpr (.sum (.product (.var "x") (.var "x")) (.const 1))

/-- Steps into the bowl, a descent that diverges, one that lacks a variable, and a minimum that
is no root. -/
theorem solveUnobserved_limits_strict :
    strict.Outlasts hasty ∧
    (∃ s t, solveUnobserved bowl slopePoint hasty = .ok s ∧
      solveUnobserved bowl slopePoint strict = .ok t ∧ s.iters = 1 ∧ t.iters = 3 ∧
      s.trajectory.toList <+: t.trajectory.toList) ∧
    (∃ s, solveUnobserved gorge (.ofList [("x", 1e150)]) hasty = .ok s ∧ s.status = .diverged ∧
      solveUnobserved gorge (.ofList [("x", 1e150)]) strict = .ok s) ∧
    (∃ e, solveUnobserved bowl ∅ hasty = .error e ∧ solveUnobserved bowl ∅ strict = .error e) ∧
    ∃ s e, solveUnobserved basin (.ofList [("x", 0)]) hasty = .ok s ∧ s.status = .localMinimum ∧
      solveUnobserved basin (.ofList [("x", 0)]) strict = .error e ∧
      e = .degenerateGradient ∧ (strict.epsilon == 0) = true := by
  have outlasts : strict.Outlasts hasty :=
    ⟨rfl, rfl, rfl, by decide, by decide, by decide⟩
  have one : (solveUnobserved bowl slopePoint hasty).toOption.any (·.iters == 1) = true := by
    decide +kernel
  have three : (solveUnobserved bowl slopePoint strict).toOption.any (·.iters == 3) = true := by
    decide +kernel
  have diverges : (solveUnobserved gorge (.ofList [("x", 1e150)]) hasty).toOption.any
      (·.status == .diverged) = true := by decide +kernel
  have rests : (solveUnobserved basin (.ofList [("x", 0)]) hasty).toOption.any
      (·.status == .localMinimum) = true := by decide +kernel
  have lacking : (solveUnobserved bowl ∅ hasty).isOk = false := by decide +kernel
  have fails : (solveUnobserved basin (.ofList [("x", 0)]) strict).isOk = false := by
    decide +kernel
  obtain ⟨s, hs, iters_s⟩ := exists_ok_of_any one
  obtain ⟨t, ht, iters_t⟩ := exists_ok_of_any three
  obtain ⟨d, hd, status_d⟩ := exists_ok_of_any diverges
  obtain ⟨r, hr, status_r⟩ := exists_ok_of_any rests
  obtain ⟨e, he⟩ := exists_error_of_not_isOk lacking
  obtain ⟨e', he'⟩ := exists_error_of_not_isOk fails
  refine ⟨outlasts, ⟨s, t, hs, ht, eq_of_beq iters_s, eq_of_beq iters_t, ?_⟩,
    ⟨d, hd, eq_of_beq status_d, ?_⟩, ⟨e, he, ?_⟩, r, e', hr, eq_of_beq status_r, he', ?_⟩
  · exact (solveUnobserved_limits bowl slopePoint strict hasty outlasts).1 s t hs ht
  · exact (solveUnobserved_limits gorge _ strict hasty outlasts).2.1 d hd (eq_of_beq status_d)
  · exact (solveUnobserved_limits bowl ∅ strict hasty outlasts).2.2.1 e he
  · exact (solveUnobserved_limits basin _ strict hasty outlasts).2.2.2 r e' hr he'

end Descent

end Downhill
