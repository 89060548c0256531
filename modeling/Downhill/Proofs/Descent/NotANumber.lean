/-
Costs that are NaN.

A line search takes a candidate unless the decrease of the cost is less than asked.  NaN is
less than nothing, so a candidate whose cost is NaN is taken, and the turn refuses it only if
a coordinate is not finite (`outcome_of_nan`).  But a finite point may have a cost that is
NaN, where terms overflow to infinities of both signs.  Such a point is recorded and shown
like any other: `hyperbola_shows_nan`.

There is no other way for NaN to come in.  The first NaN among the costs of a solve is that
of a finite point (`exists_nan_after`), so a solve whose objective is never NaN at a finite
point shows none (`solve_nan`).  For a system of equations it is enough that no residual is.
-/
import Downhill.Proofs.Descent.Evaluation
import Downhill.Proofs.Descent.Succession
import Downhill.Proofs.Expr.SumOfSquares
import Downhill.Proofs.Float.Subtraction

namespace Downhill

namespace Descent

open Binary64

variable {σ : Type}

section

variable {objective : Objective Float} {config : Config Float} {p gradient : Point Float}
  {cost : Float} {j : Nat} {c : Float}

/-- A candidate will do where the decrease is NaN. -/
theorem sufficient_of_nan {search : LineSearch Float}
    (cost_eq : objective.cost (candidate search p gradient j) = .ok c)
    (nan : (cost - c).isNaN = true) : Sufficient objective search p cost gradient j :=
  ⟨c, cost_eq, not_lt_of_isNaN nan⟩

/-- **A search takes the first candidate whose cost is NaN**, and only the coordinates decide
whether it is recorded. -/
theorem outcome_of_nan (searches : Searches objective config p cost gradient) (one_le : 1 ≤ j)
    (le : j ≤ config.lineSearch.maxShrinks)
    (earlier : ∀ i, 1 ≤ i → i < j → Insufficient objective config.lineSearch p cost gradient i)
    (cost_eq : objective.cost (candidate config.lineSearch p gradient j) = .ok c)
    (nan : c.isNaN = true) :
    outcome objective config p cost =
      .ok (if (candidate config.lineSearch p gradient j).isFinite then
        .step ⟨candidate config.lineSearch p gradient j, c, config.lineSearch.stepSize j, j⟩
      else .halt .diverged) := by
  have nan_decrease : (cost - c).isNaN = true := by
    by_contra not_nan
    rw [Bool.not_eq_true] at not_nan
    rw [(not_nan_of_sub not_nan).2] at nan
    cases nan
  exact outcome_of_first searches ⟨one_le, le, sufficient_of_nan cost_eq nan_decrease, earlier⟩
    cost_eq

end

section

variable {objective : Objective Float} {start : Point Float} {config : Config Float}
  {observer : Observer (Event Float) σ} {state : σ} {log : Log Float}

/-- **The first cost that is NaN is that of a finite point**, to which a step led from a point
whose cost is a number.  The induction is on the place of a cost that is NaN. -/
theorem exists_nan_after {cost : Float} (h : objective.cost start = .ok cost)
    (not_nan : cost.isNaN = false) :
    ∀ (k : Nat) (e : Event Float),
      (shown objective start config observer state log)[k]? = some e → e.cost.isNaN = true →
      ∃ before after gradient j, before.cost.isNaN = false ∧ after.cost.isNaN = true ∧
        before ∈ shown objective start config observer state log ∧
        after ∈ shown objective start config observer state log ∧
        Successor objective config before after gradient j := by
  intro k
  induction k with
  | zero =>
      intro e here nan
      rw [getElem?_zero_shown h] at here
      cases here
      rw [not_nan] at nan
      cases nan
  | succ k ih =>
      intro e here nan
      obtain ⟨inside, -⟩ := List.getElem?_eq_some_iff.mp here
      have there := List.getElem?_eq_getElem (Nat.lt_of_succ_lt inside)
      generalize (shown objective start config observer state log)[k] = before at there
      by_cases earlier : before.cost.isNaN = true
      · exact ih before there earlier
      · obtain ⟨gradient, j, successor⟩ := (follows_of_getElem? there here).successor
        exact ⟨before, e, gradient, j, by simpa using earlier, nan, List.mem_of_getElem? there,
          List.mem_of_getElem? here, successor⟩

/-- Where finite points have costs that are numbers, no cost that is shown is NaN. -/
theorem not_nan_of_mem_shown {cost : Float} (h : objective.cost start = .ok cost)
    (not_nan : cost.isNaN = false)
    (safe : ∀ q c, q.keys = start.keys → q.isFinite = true → objective.cost q = .ok c →
      c.isNaN = false)
    {e : Event Float} (mem : e ∈ shown objective start config observer state log) :
    e.cost.isNaN = false := by
  by_contra nan
  obtain ⟨k, here⟩ := List.getElem?_of_mem mem
  obtain ⟨before, after, gradient, j, -, nan_after, -, mem_after, successor⟩ :=
    exists_nan_after h not_nan k e here (by simpa using nan)
  obtain ⟨cost_eq, keys_eq⟩ := noted_of_mem_shown mem_after
  rw [safe after.point after.cost keys_eq successor.finite cost_eq] at nan_after
  cases nan_after

end

/-- **NaN and the costs of a solve.**  A candidate whose cost is NaN is taken as soon as it is
tried, and recorded if it is finite.  Where no finite point has such a cost, none is shown and
none is returned. -/
theorem solve_nan (objective : Objective Float) (start : Point Float) (config : Config Float)
    (observer : Observer (Event Float) σ) (state : σ) (log : Log Float) :
    (∀ (p : Point Float) (cost : Float) (gradient : Point Float) (j : Nat) (c : Float),
      Searches objective config p cost gradient → 1 ≤ j → j ≤ config.lineSearch.maxShrinks →
      (∀ i, 1 ≤ i → i < j → Insufficient objective config.lineSearch p cost gradient i) →
      objective.cost (candidate config.lineSearch p gradient j) = .ok c → c.isNaN = true →
      outcome objective config p cost =
        .ok (if (candidate config.lineSearch p gradient j).isFinite then
          .step ⟨candidate config.lineSearch p gradient j, c, config.lineSearch.stepSize j, j⟩
        else .halt .diverged)) ∧
    ∀ cost, objective.cost start = .ok cost → cost.isNaN = false →
      (∀ q c, q.keys = start.keys → q.isFinite = true → objective.cost q = .ok c →
        c.isNaN = false) →
      (∀ e ∈ shown objective start config observer state log, e.cost.isNaN = false) ∧
        ∀ s, (solve objective start config observer state log).result = .ok s →
          s.cost.isNaN = false := by
  refine ⟨?_, ?_⟩
  · intro p cost gradient j c searches one_le le earlier cost_eq nan
    exact outcome_of_nan searches one_le le earlier cost_eq nan
  · intro cost h not_nan safe
    refine ⟨fun e mem => not_nan_of_mem_shown h not_nan safe mem, ?_⟩
    intro s hs
    have last := not_nan_of_mem_shown h not_nan safe (List.mem_of_getLast? (getLast?_shown hs))
    exact last

/-! ### A system that overflows to both sides -/

/-- The equation of two squares. -/
def hyperbola : Objective Float :=
  .ofEquations [.equation (.var "x" * .var "x") (.var "y" * .var "y")]

/-- One step of the size `1e200`, or less. -/
def leap : Config Float :=
  { Config.standard with
    maxIters := 1
    lineSearch :=
      { LineSearch.standard with
        initialStep := 2e200
        initialStep_finite := by decide +kernel
        initialStep_pos := by decide +kernel } }

theorem exists_cost_hyperbola :
    ∃ cost, hyperbola.cost slopePoint = .ok cost ∧ cost.isNaN = false := by
  have start_cost : (hyperbola.cost slopePoint).toOption.any (fun c => !c.isNaN) = true := by
    decide +kernel
  obtain ⟨cost, cost_eq, number⟩ := exists_ok_of_any start_cost
  exact ⟨cost, cost_eq, by simpa using number⟩

/-- Both squares overflow at the first candidate, which is finite and is recorded. -/
theorem hyperbola_shows_nan :
    (∃ cost, hyperbola.cost slopePoint = .ok cost ∧ cost.isNaN = false) ∧
      ∃ e ∈ shown hyperbola slopePoint leap Observer.silent () .silent,
        e.point.isFinite = true ∧ e.cost.isNaN = true := by
  have recorded : (shown hyperbola slopePoint leap Observer.silent () .silent).any
      (fun e => e.point.isFinite && e.cost.isNaN) = true := by decide +kernel
  obtain ⟨e, mem, seen⟩ := List.any_eq_true.mp recorded
  exact ⟨exists_cost_hyperbola, e, mem, Bool.and_eq_true_iff.mp seen⟩

/-- The residuals of the bowl are coordinates, so its costs at finite points are numbers. -/
theorem bowl_not_nan {q : Point Float} {c : Float} (finite : q.isFinite = true)
    (h : bowl.cost q = .ok c) : c.isNaN = false := by
  refine not_nan_of_residuals h ?_
  intro r mem v hv
  obtain ⟨name, rfl⟩ : ∃ name, r = .var name := by
    rcases List.mem_pair.mp mem with rfl | rfl
    · exact ⟨"x", rfl⟩
    · exact ⟨"y", rfl⟩
  exact Point.not_nan_of_get? finite (Expr.eval_var_eq_ok_iff.mp hv)

/-- A candidate on the hyperbola whose cost is NaN, and a descent into the bowl. -/
theorem solve_nan_bowl :
    (∃ cost gradient j c, Searches hyperbola leap slopePoint cost gradient ∧
      hyperbola.cost (candidate leap.lineSearch slopePoint gradient j) = .ok c ∧
      c.isNaN = true ∧
      outcome hyperbola leap slopePoint cost =
        .ok (if (candidate leap.lineSearch slopePoint gradient j).isFinite then
          .step ⟨candidate leap.lineSearch slopePoint gradient j, c, leap.lineSearch.stepSize j, j⟩
        else .halt .diverged)) ∧
    (shown bowl slopePoint .standard Observer.silent () .silent).length = 4 ∧
      ∀ e ∈ shown bowl slopePoint .standard Observer.silent () .silent, e.cost.isNaN = false := by
  have start_cost : (bowl.cost slopePoint).toOption.any (fun c => !c.isNaN) = true := by
    decide +kernel
  have four : (shown bowl slopePoint .standard Observer.silent () .silent).length = 4 := by
    decide +kernel
  have second : (shown hyperbola slopePoint leap Observer.silent () .silent)[1]?.any
      (fun e => e.cost.isNaN) = true := by decide +kernel
  refine ⟨?_, four, ?_⟩
  · obtain ⟨e', next, nan⟩ := (Option.any_eq_true _ _).mp second
    obtain ⟨cost, cost_eq, -⟩ := exists_cost_hyperbola
    have here := getElem?_zero_shown cost_eq leap Observer.silent () .silent
    obtain ⟨gradient, j, successor⟩ := (follows_of_getElem? here next).successor
    have candidate_cost := successor.cost_eq
    rw [successor.point_eq] at candidate_cost
    obtain ⟨takes, -⟩ := solve_nan hyperbola slopePoint leap Observer.silent () .silent
    exact ⟨cost, gradient, j, e'.cost, successor.searches, candidate_cost, nan,
      takes slopePoint cost gradient j e'.cost successor.searches successor.first.one_le
        successor.first.le_maxShrinks successor.first.earlier candidate_cost nan⟩
  · obtain ⟨cost, cost_eq, number⟩ := exists_ok_of_any start_cost
    obtain ⟨-, shows⟩ := solve_nan bowl slopePoint .standard Observer.silent () .silent
    exact (shows cost cost_eq (by simpa using number)
      (fun q c _ finite h => bowl_not_nan finite h)).1

end Descent

end Downhill
