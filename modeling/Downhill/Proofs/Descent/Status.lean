/-
What the status of a solution says.

A run can end in six places: in the tests before a step, in the line search, in
the test that comes after the last step, or because the observer wants it to.
`Grounds` says for each status what holds at the last point when it is reported,
without a word about how the run came there.

The grounds exclude each other (`Grounds.unique`), and a run that ends has the
grounds for its status (`Run.grounds`).  Together this makes the status readable
from the last point alone: `solveUnobserved_status`.

Costs may be NaN.  Such a cost is not within the tolerance and not outside of it
either, which is why the grounds say that a test failed and never that its opposite
holds.
-/
import Downhill.Proofs.Descent.Run
import Downhill.Proofs.Expr.Variables

namespace Downhill

namespace Descent

variable {α σ : Type}

theorem exists_not_finite [Magnitude α] {p : Point α} (h : p.isFinite = false) :
    ∃ name x, p.get? name = some x ∧ Magnitude.isFinite x = false := by
  rw [← Bool.not_eq_true, Point.isFinite, Bindings.all_eq_true_iff] at h
  push Not at h
  obtain ⟨name, x, found, not_finite⟩ := h
  exact ⟨name, x, found, Bool.not_eq_true _ ▸ not_finite⟩

variable [Zero α] [One α] [Add α] [Sub α] [Mul α] [Neg α] [Div α] [BEq α] [LT α] [LE α]
  [Magnitude α]

/-- What has to hold at the last point, after so many steps, for a status to be
reported by a run that its observer did not stop. -/
def Grounds (objective : Objective α) (config : Config α) (p : Point α) (cost : α) (iters : Nat)
    (gradient : Point α) : Status → Prop
  | .converged => Magnitude.abs cost ≤ config.epsilon
  | .maxIters => ¬ Magnitude.abs cost ≤ config.epsilon ∧ iters = config.maxIters
  | .localMinimum =>
    ¬ Magnitude.abs cost ≤ config.epsilon ∧ iters < config.maxIters ∧ Stationary config gradient
  | .lineSearchStalled =>
    ¬ Magnitude.abs cost ≤ config.epsilon ∧ iters < config.maxIters ∧
      ¬ Stationary config gradient ∧
      NoneSufficient objective config.lineSearch p cost gradient
  | .diverged =>
    ¬ Magnitude.abs cost ≤ config.epsilon ∧ iters < config.maxIters ∧
      ¬ Stationary config gradient ∧
      ∃ j, FirstSufficient objective config.lineSearch p cost gradient j ∧
        ∃ name x, (candidate config.lineSearch p gradient j).get? name = some x ∧
          Magnitude.isFinite x = false
  | .stoppedByObserver => False

section

variable {objective : Objective α} {config : Config α} {p gradient : Point α} {cost : α}
  {iters : Nat}

/-- Only one status has its grounds. -/
theorem Grounds.unique {a b : Status} (ha : Grounds objective config p cost iters gradient a)
    (hb : Grounds objective config p cost iters gradient b) : a = b := by
  -- Two of the tests that a status passed or failed contradict each other, or the number
  -- of steps does, or a sufficient candidate is insufficient.
  cases a <;> cases b <;> simp only [Grounds] at ha hb <;> grind [not_noneSufficient_of_first]

end

variable [DecidableLT α] [DecidableLE α]

/-- A turn that ends the run, with steps remaining, has the grounds for its status. -/
theorem grounds_of_halt {objective : Objective α} {config : Config α} {iter iters : Nat}
    {p : Point α} {cost : α} {log log' : Log α} {status : Status}
    (cost_eq : objective.cost p = .ok cost) (left : iters < config.maxIters)
    (h : turn objective config iter p cost log = (.ok (.halt status), log')) :
    ∃ gradient, objective.gradient p = .ok gradient ∧
      Grounds objective config p cost iters gradient status := by
  have ways := turns_turn objective config iter p cost log
  rw [h] at ways
  cases ways with
  | root small =>
      obtain ⟨gradient, gradient_eq⟩ := Objective.exists_gradient cost_eq
      exact ⟨gradient, gradient_eq, small⟩
  | stationary not_root gradient_eq flat => exact ⟨_, gradient_eq, not_root, left, flat⟩
  | stalled searches fails =>
      exact ⟨_, searches.gradient_eq, searches.not_root, left, searches.not_stationary, fails⟩
  | diverged j searches first not_finite =>
      exact ⟨_, searches.gradient_eq, searches.not_root, left, searches.not_stationary, j, first,
        exists_not_finite not_finite⟩

/-- **A run ends with the grounds for its status, unless its observer stops it.**
The induction is on the run; what it carries is that the steps taken and the steps
remaining add up to all. -/
theorem Run.grounds {objective : Objective α} {config : Config α}
    {observer : Observer (Event α) σ} {n : Nat} {s : Progress α σ} {r : Report α σ}
    (run : Run objective config observer n s r) (sync : Synced objective s)
    (total : s.iters + n = config.maxIters) {sol : Solution α} (h : r.result = .ok sol) :
    (sol.status = .stoppedByObserver ∧ ∃ state event, (observer.next state event).2 = .stop) ∨
      ∃ gradient, objective.gradient sol.point = .ok gradient ∧
        Grounds objective config sol.point sol.cost sol.iters gradient sol.status := by
  induction run with
  | @stopped n s state verdict =>
      cases h
      exact .inl ⟨rfl, s.observer, s.event, by rw [verdict]⟩
  | @spent s state verdict =>
      cases h
      obtain ⟨gradient, gradient_eq⟩ := Objective.exists_gradient sync.cost_eq
      refine .inr ⟨gradient, gradient_eq, ?_⟩
      by_cases small : Magnitude.abs s.cost ≤ config.epsilon
      · have converges : isRoot config s.cost = true := decide_eq_true small
        simp only [converges, if_true]
        exact small
      · have fails : isRoot config s.cost = false := decide_eq_false small
        simp only [fails]
        exact ⟨small, total⟩
  | failed verdict turn_eq => cases h
  | @halted n s state status log verdict turn_eq =>
      cases h
      have left : s.iters < config.maxIters := by omega
      exact .inr (grounds_of_halt sync.cost_eq left turn_eq)
  | @stepped n s state c log r verdict turn_eq rest ih =>
      obtain ⟨-, cost_eq⟩ := isStep_of_turn sync.cost_eq turn_eq
      refine ih (Synced.accept ⟨sync.cost_eq, sync.length_eq⟩ cost_eq) ?_ h
      show s.iters + 1 + n = config.maxIters
      omega

/-- What a solution says about its last point. -/
theorem grounds_of_solve {objective : Objective α} {start : Point α} {config : Config α}
    {observer : Observer (Event α) σ} {state : σ} {log : Log α} {s : Solution α}
    (h : (solve objective start config observer state log).result = .ok s) :
    objective.cost s.point = .ok s.cost ∧
      ((s.status = .stoppedByObserver ∧ ∃ state event, (observer.next state event).2 = .stop) ∨
        ∃ gradient, objective.gradient s.point = .ok gradient ∧
          Grounds objective config s.point s.cost s.iters gradient s.status) := by
  obtain ⟨cost, hcost⟩ := cost_of_solve h
  have run := run_solve config observer state log hcost
  have sync := synced_opening hcost state log
  obtain ⟨-, -, -, -, cost_eq⟩ := run.extends sync h
  exact ⟨cost_eq, run.grounds sync (Nat.zero_add _) h⟩

/-- **The last point of an unobserved solve decides its status.** -/
theorem solveUnobserved_status (objective : Objective α) (start : Point α) (config : Config α)
    (s : Solution α) (h : solveUnobserved objective start config = .ok s) :
    objective.cost s.point = .ok s.cost ∧
      ∃ gradient, objective.gradient s.point = .ok gradient ∧
        ∀ status, s.status = status ↔
          Grounds objective config s.point s.cost s.iters gradient status := by
  obtain ⟨cost_eq, ends⟩ := grounds_of_solve h
  refine ⟨cost_eq, ?_⟩
  rcases ends with ⟨-, state, event, stops⟩ | ⟨gradient, gradient_eq, grounds⟩
  · cases stops
  · refine ⟨gradient, gradient_eq, ?_⟩
    intro status
    refine ⟨?_, grounds.unique⟩
    rintro rfl
    exact grounds

/-- The third step lands on the root and is also the last one that is allowed. -/
theorem solveUnobserved_status_bowl :
    ∃ s, solveUnobserved bowl slopePoint (Config.standard.withMaxIters 3) = .ok s ∧
      s.iters = 3 ∧ s.status = .converged ∧ bowl.cost s.point = .ok s.cost ∧
      ∃ gradient, bowl.gradient s.point = .ok gradient ∧
        ∀ status, s.status = status ↔
          Grounds bowl (Config.standard.withMaxIters 3) s.point s.cost s.iters gradient status := by
  have solved : (solveUnobserved bowl slopePoint (Config.standard.withMaxIters 3)).toOption.any
      (fun s => s.iters == 3 && s.status == .converged) = true := by decide +kernel
  obtain ⟨s, hs, seen⟩ := exists_ok_of_any solved
  obtain ⟨three, converged⟩ := Bool.and_eq_true_iff.mp seen
  exact ⟨s, hs, eq_of_beq three, eq_of_beq converged,
    solveUnobserved_status bowl slopePoint (Config.standard.withMaxIters 3) s hs⟩

end Descent

end Downhill
