/-
Partial derivatives that are not finite.

At a point with a perfectly good cost a partial derivative may have overflowed, or be NaN.
Such a partial is not below the tolerance, and it makes its own component of the direction NaN:
it is NaN itself, or infinite as the sum of all sizes is, and an infinity over an infinity is NaN
(`isNaN_heading`).  From there NaN spreads to two places.

The slope is NaN, and with it what is asked of a step, whatever its size.  No decrease is less
than NaN, so the search takes its first candidate and never stalls (`not_less_of_blown`).  And that
candidate has a coordinate that is NaN, because the variable of the partial is bound wherever there
is a cost.  So the turn refuses it: the run ends there and then, as one that diverges
(`outcome_of_blown`, `solve_of_blown`).
-/
import Downhill.Proofs.Descent.Degeneracy
import Downhill.Proofs.Descent.NotANumber
import Downhill.Proofs.Descent.Transcript

namespace Downhill

namespace Descent

open Binary64

variable {σ : Type}

/-! ### The direction -/

section

variable {gradient : Point Float} {name : String} {g : Float}
  (found : gradient.get? name = some g) (blown : ¬ g.isFinite = true)
include found blown

theorem not_stationary_of_blown (config : Config Float) : ¬ Stationary config gradient := by
  intro flat
  have less : g.abs < config.epsilon := flat name g found
  obtain ⟨not_nan, -, below⟩ := lt_iff.mp less
  rw [isNaN_abs] at not_nan
  rw [value_abs] at below
  exact blown (finite_of_abs_le not_nan config.epsilon_finite below.le)

theorem absSum_ne_zero_of_blown : (absSum gradient == 0) = false := by
  by_contra zero
  rw [Bool.not_eq_false] at zero
  obtain ⟨not_nan, g_eq⟩ := beq_zero_iff.mp (absSum_eq_zero_iff.mp zero name g found)
  refine blown (finite_of_abs_le not_nan isFinite_zero ?_)
  rw [g_eq, abs_zero, value_zero]

/-- **A partial derivative that is not finite makes its component of the direction NaN.** -/
theorem isNaN_heading : (heading gradient name).isNaN = true := by
  by_contra number
  rw [Bool.not_eq_true, heading_of_get? found] at number
  obtain ⟨-, not_nan⟩ := not_nan_of_div number
  obtain ⟨not_nan_g, size_le⟩ := abs_value_le_absSum found not_nan
  by_cases finite : (absSum gradient).isFinite = true
  · exact blown (finite_of_abs_le not_nan_g finite size_le)
  · obtain ⟨finite_neg, -⟩ := div_infinity finite number
    exact blown ((isFinite_neg g).symm.trans finite_neg)

theorem isNaN_asked (search : LineSearch Float) : (asked search gradient).isNaN = true := by
  by_contra number
  rw [Bool.not_eq_true, asked] at number
  obtain ⟨-, not_nan_slope⟩ := not_nan_of_mul number
  rw [sumBy_eq_total] at not_nan_slope
  have term := not_nan_of_mem_total not_nan_slope (g * heading gradient name)
    (List.mem_map.mpr ⟨(name, g), Bindings.get?_eq_some_iff.mp found, rfl⟩)
  exact Bool.false_ne_true ((not_nan_of_mul term).2.symm.trans (isNaN_heading found blown))

/-- No decrease is less than what is asked of a step. -/
theorem not_less_of_blown (search : LineSearch Float) (j : Nat) (decrease : Float) :
    ¬ decrease < search.stepSize j * asked search gradient := by
  intro less
  obtain ⟨-, number, -⟩ := lt_iff.mp less
  exact Bool.false_ne_true ((not_nan_of_mul number).2.symm.trans (isNaN_asked found blown search))

end

/-! ### The turn -/

section

variable {objective : Objective Float} {config : Config Float} {p gradient : Point Float}
  {cost c : Float} {name : String} {g : Float}
  (gradient_eq : objective.gradient p = .ok gradient) (found : gradient.get? name = some g)
  (blown : ¬ g.isFinite = true)
include gradient_eq found blown

/-- Every candidate has a coordinate that is NaN. -/
theorem not_finite_candidate (cost_eq : objective.cost p = .ok c) (j : Nat) :
    ¬ (candidate config.lineSearch p gradient j).isFinite = true := by
  intro finite
  have bound := Objective.mem_keys_of_gradient cost_eq gradient_eq
    (Bindings.mem_keys_iff.mpr ⟨g, found⟩)
  obtain ⟨x, found_x⟩ := Bindings.mem_keys_iff.mp bound
  have number := Point.not_nan_of_get? finite (get?_candidate config.lineSearch gradient j found_x)
  have component := (not_nan_of_mul (not_nan_of_add number).2).2
  exact Bool.false_ne_true (component.symm.trans (isNaN_heading found blown))

/-- **A turn with a partial derivative that is not finite ends the run.** -/
theorem outcome_of_blown (cost_eq : objective.cost p = .ok c)
    (not_root : ¬ Magnitude.abs cost ≤ config.epsilon) :
    outcome objective config p cost = .ok (.halt .diverged) := by
  have searches : Searches objective config p cost gradient :=
    ⟨not_root, gradient_eq, not_stationary_of_blown found blown config,
      absSum_ne_zero_of_blown found blown⟩
  obtain ⟨c', cost_eq'⟩ := exists_cost_candidate cost_eq config.lineSearch gradient 1
  have first : FirstSufficient objective config.lineSearch p cost gradient 1 := by
    refine ⟨le_rfl, Nat.one_le_iff_ne_zero.mpr config.lineSearch.maxShrinks_ne_zero,
      ⟨c', cost_eq', not_less_of_blown found blown config.lineSearch 1 _⟩, ?_⟩
    intro i one_le before
    omega
  rw [outcome_of_first searches first cost_eq',
    if_neg (not_finite_candidate gradient_eq found blown cost_eq 1)]

/-- The turn looks at one candidate, and writes down that it leads out of the domain. -/
theorem records_of_blown {iter : Nat} {records : List (Record Float)}
    (writes : Writes objective config p cost iter (.ok (.halt .diverged)) records) :
    ∃ c, objective.cost (candidate config.lineSearch p gradient 1) = .ok c ∧
      records = [.candidate 1 (config.lineSearch.stepSize 1) c false,
        .domainLeft (iter + 1) (config.lineSearch.stepSize 1)] := by
  cases writes with
  | @diverged _ chosen _ searches written not_finite =>
      obtain rfl := Except.ok.inj (gradient_eq.symm.trans searches.gradient_eq)
      cases written with
      | @found costs _ vain shrinks_eq le_maxShrinks point_eq cost_eq stepSize_eq not_less =>
          cases costs with
          | nil =>
              rw [point_eq, shrinks_eq] at cost_eq
              rw [stepSize_eq, shrinks_eq]
              exact ⟨chosen.cost, cost_eq, rfl⟩
          | cons c₁ rest =>
              exact absurd (vain 0 c₁ rfl).2 (not_less_of_blown found blown _ _ _)

end

/-! ### The solve -/

/-- **Where a partial derivative is not finite, a solve ends as one that diverges**: with the point
that it stands at and its cost, after a look at one candidate. -/
theorem solve_of_blown (objective : Objective Float) (start : Point Float) (config : Config Float)
    (observer : Observer (Event Float) σ) (state : σ) (log : Log Float) (k : Nat) (e : Event Float)
    (gradient : Point Float) (name : String) (g : Float)
    (reached : (shown objective start config observer state log)[k]? = some e)
    (not_root : ¬ Magnitude.abs e.cost ≤ config.epsilon) (left : k < config.maxIters)
    (goes_on : observer.firstStop? state
      ((shown objective start config observer state log).take (k + 1)) = none)
    (gradient_eq : objective.gradient e.point = .ok gradient)
    (found : gradient.get? name = some g) (blown : ¬ g.isFinite = true) :
    let report := solve objective start config observer state log
    let seen := shown objective start config observer state log
    (∃ s, report.result = .ok s ∧ s.status = .diverged ∧ s.point = e.point ∧ s.cost = e.cost ∧
      objective.cost e.point = .ok e.cost ∧ s.iters = k ∧ seen.length = k + 1 ∧
      s.trajectory.toList = seen.map Event.point) ∧
    ∃ cost blocks c, objective.cost start = .ok cost ∧ Narrates objective config seen blocks ∧
      objective.cost (candidate config.lineSearch e.point gradient 1) = .ok c ∧
      report.log = log.emitAll (.descentStarted cost :: (blocks.flatten ++
        [.candidate 1 (config.lineSearch.stepSize 1) c false,
          .domainLeft (k + 1) (config.lineSearch.stepSize 1),
          .descentEnded .diverged e.cost k])) := by
  intro report seen
  have cost_eq := (noted_of_mem_shown (List.mem_of_getElem? reached)).1
  obtain ⟨s, solved, status_eq, event_eq, count⟩ := solve_of_halt reached left goes_on
    (outcome_of_blown gradient_eq found blown cost_eq not_root)
  have step_eq := step_of_getElem?_shown reached
  refine ⟨⟨s, solved, status_eq, congrArg Event.point event_eq, congrArg Event.cost event_eq,
    cost_eq, (congrArg Event.step event_eq).trans step_eq, count,
    (map_point_shown solved).symm⟩, ?_⟩
  obtain ⟨cost, start_cost⟩ := cost_of_solve solved
  obtain ⟨blocks, closing, last, log_eq, narrates, last_eq, closes⟩ :=
    solve_log_of_cost config start_cost observer state log
  obtain rfl : last = e := by
    rw [getLast?_shown solved, event_eq] at last_eq
    exact (Option.some.inj last_eq).symm
  rw [solved, Except.map, status_eq] at closes
  cases closes with
  | plain not_stalled not_diverged => exact absurd rfl not_diverged
  | diverged writes =>
      obtain ⟨c, candidate_cost, rfl⟩ := records_of_blown gradient_eq found blown writes
      rw [step_eq] at log_eq
      exact ⟨cost, blocks, c, start_cost, narrates, candidate_cost, log_eq⟩

/-! ### A descent without a bottom -/

/-- The cube with the opposite sign, which falls without end. -/
def plunge : Objective Float := .ofExpr (-(.var "x" * .var "x" * .var "x"))

/-- The first step down leads so far that the cost overflows and its derivative with it; the point
itself is recorded, and the next one is not. -/
theorem solve_of_blown_plunge :
    ∃ e gradient g,
      (shown plunge (.ofList [("x", 1)]) (leap.withMaxIters 5) Observer.silent ()
        (.upTo .trace))[1]? = some e ∧
      ¬ Magnitude.abs e.cost ≤ leap.epsilon ∧ plunge.gradient e.point = .ok gradient ∧
      gradient.get? "x" = some g ∧ ¬ g.isFinite = true ∧
      ∃ s, (solve plunge (.ofList [("x", 1)]) (leap.withMaxIters 5) Observer.silent ()
          (.upTo .trace)).result = .ok s ∧
        s.status = .diverged ∧ s.point = e.point ∧ s.iters = 1 ∧ s.point.isFinite = true := by
  have checked : (shown plunge (.ofList [("x", 1)]) (leap.withMaxIters 5) Observer.silent ()
      (.upTo .trace))[1]?.any (fun e => !decide (Magnitude.abs e.cost ≤ leap.epsilon) &&
        e.point.isFinite && (plunge.gradient e.point).toOption.any fun gradient =>
          (gradient.get? "x").any fun g => !g.isFinite) = true := by decide +kernel
  obtain ⟨e, reached, seen⟩ := (Option.any_eq_true _ _).mp checked
  simp only [Bool.and_eq_true, Bool.not_eq_true', decide_eq_false_iff_not] at seen
  obtain ⟨⟨not_root, finite⟩, steep⟩ := seen
  obtain ⟨gradient, gradient_eq, component⟩ := exists_ok_of_any steep
  obtain ⟨g, found, infinite⟩ := (Option.any_eq_true _ _).mp component
  have blown : ¬ g.isFinite = true := by simpa using infinite
  obtain ⟨⟨s, solved, status_eq, point_eq, -, -, iters_eq, -⟩, -⟩ :=
    solve_of_blown plunge (.ofList [("x", 1)]) (leap.withMaxIters 5) Observer.silent ()
      (.upTo .trace) 1 e gradient "x" g reached not_root (by decide)
      (Observer.silent.firstStop?_eq_none (fun _ _ => rfl) _ _) gradient_eq found blown
  exact ⟨e, gradient, g, reached, not_root, gradient_eq, found, blown, s, solved, status_eq,
    point_eq, iters_eq, point_eq ▸ finite⟩

end Descent

end Downhill
