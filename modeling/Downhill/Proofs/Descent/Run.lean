/-
Runs of the descent, said without the function that carries them out.

`Run n s r` says that a run which stands at `s`, has not yet shown this to the
observer and has `n` steps remaining ends with the report `r`.  There is one
constructor for each way to go on, and `run_observed` says that `descend` takes
one of them; so a statement about all runs is an induction on `Run`.

Two facts carry such inductions.  The cost that a run remembers is the cost of
the last point, although it is never computed again, and the trajectory holds one
point more than steps were taken.  `Synced` keeps both.

The main statement, `solve_trajectory`, says what the points of a solution are: a
chain of steps, each of them the first sufficient candidate of a search from the
point before.
-/
import Downhill.Proofs.Descent.Turn
import Mathlib.Data.List.Chain

namespace Downhill

namespace Descent

variable {α σ : Type}

/-! ### What a run remembers -/

/-- Where a run begins. -/
def opening (start : Point α) (cost : α) (state : σ) (log : Log α) : Progress α σ :=
  ⟨.startingAt start, cost, 0, state, log.emit (.descentStarted cost)⟩

section

variable [Zero α] [One α] [Add α] [Mul α] [BEq α]

/-- What a run remembers fits the points that it has recorded. -/
structure Synced (objective : Objective α) (s : Progress α σ) : Prop where
  cost_eq : objective.cost s.trajectory.last = .ok s.cost
  length_eq : s.trajectory.length = s.iters + 1

theorem synced_opening {objective : Objective α} {start : Point α} {cost : α}
    (h : objective.cost start = .ok cost) (state : σ) (log : Log α) :
    Synced objective (opening start cost state log) :=
  ⟨h, rfl⟩

theorem Synced.accept {objective : Objective α} {s : Progress α σ} {c : Candidate α}
    (sync : Synced objective s) (cost_eq : objective.cost c.point = .ok c.cost) :
    Synced objective (s.accept c) := by
  refine ⟨?_, ?_⟩
  · show objective.cost (s.trajectory.push c.point).last = .ok c.cost
    rw [Trajectory.last_push]
    exact cost_eq
  · show (s.trajectory.push c.point).length = s.iters + 1 + 1
    rw [← Trajectory.length_toList, Trajectory.toList_push, List.length_append,
      Trajectory.length_toList, sync.length_eq]
    rfl

end

variable [Zero α] [One α] [Add α] [Sub α] [Mul α] [Neg α] [Div α] [BEq α] [LT α] [LE α]
  [Magnitude α]

/-! ### Steps -/

/-- One step of a run leads from `p` to `q`. -/
def IsStep (objective : Objective α) (config : Config α) (p q : Point α) : Prop :=
  ∃ cost gradient j, objective.cost p = .ok cost ∧ Searches objective config p cost gradient ∧
    FirstSufficient objective config.lineSearch p cost gradient j ∧
    q = candidate config.lineSearch p gradient j ∧ q.isFinite = true

variable [DecidableLT α] [DecidableLE α]

theorem isStep_of_turn {objective : Objective α} {config : Config α} {iter : Nat} {p : Point α}
    {cost : α} {log log' : Log α} {c : Candidate α} (cost_eq : objective.cost p = .ok cost)
    (h : turn objective config iter p cost log = (.ok (.step c), log')) :
    IsStep objective config p c.point ∧ objective.cost c.point = .ok c.cost := by
  have ways := turns_turn objective config iter p cost log
  rw [h] at ways
  cases ways with
  | step searches first point_eq candidate_cost _ finite =>
      exact ⟨⟨cost, _, _, cost_eq, searches, first, point_eq, finite⟩, candidate_cost⟩

/-! ### Runs -/

/-- A run that stands at a place not yet shown to the observer, with so many steps
remaining, ends with a report. -/
inductive Run (objective : Objective α) (config : Config α) (observer : Observer (Event α) σ) :
    Nat → Progress α σ → Report α σ → Prop where
  | stopped {n : Nat} {s : Progress α σ} {state : σ}
      (verdict : observer.next s.observer s.event = (state, .stop)) :
      Run objective config observer n s
        (Progress.finish { s with observer := state } .stoppedByObserver)
  | spent {s : Progress α σ} {state : σ}
      (verdict : observer.next s.observer s.event = (state, .proceed)) :
      Run objective config observer 0 s
        (Progress.finish { s with observer := state }
          (if isRoot config s.cost then .converged else .maxIters))
  | failed {n : Nat} {s : Progress α σ} {state : σ} {e : SolveError} {log : Log α}
      (verdict : observer.next s.observer s.event = (state, .proceed))
      (turn_eq : turn objective config s.iters s.trajectory.last s.cost s.log = (.error e, log)) :
      Run objective config observer (n + 1) s (Progress.fail { s with observer := state, log } e)
  | halted {n : Nat} {s : Progress α σ} {state : σ} {status : Status} {log : Log α}
      (verdict : observer.next s.observer s.event = (state, .proceed))
      (turn_eq : turn objective config s.iters s.trajectory.last s.cost s.log =
        (.ok (.halt status), log)) :
      Run objective config observer (n + 1) s
        (Progress.finish { s with observer := state, log } status)
  | stepped {n : Nat} {s : Progress α σ} {state : σ} {c : Candidate α} {log : Log α}
      {r : Report α σ} (verdict : observer.next s.observer s.event = (state, .proceed))
      (turn_eq : turn objective config s.iters s.trajectory.last s.cost s.log =
        (.ok (.step c), log))
      (rest : Run objective config observer n
        (Progress.accept { s with observer := state, log } c) r) :
      Run objective config observer (n + 1) s r

/-- **The descent takes one of the ways of `Run`.**  The induction is on the steps
that remain. -/
theorem run_observed (objective : Objective α) (config : Config α)
    (observer : Observer (Event α) σ) :
    ∀ (n : Nat) (s : Progress α σ), Run objective config observer n s
      (s.observed observer (descend objective config observer n)) := by
  intro n
  induction n with
  | zero =>
      intro s
      unfold Progress.observed
      split
      · rename_i state verdict
        exact .spent verdict
      · rename_i state verdict
        exact .stopped verdict
  | succ n ih =>
      intro s
      unfold Progress.observed
      split
      · rename_i state verdict
        rw [descend]
        split
        · rename_i e log turn_eq
          exact .failed verdict turn_eq
        · rename_i status log turn_eq
          exact .halted verdict turn_eq
        · rename_i c log turn_eq
          exact .stepped verdict turn_eq (ih _)
      · rename_i state verdict
        exact .stopped verdict

/-- A solve whose start has a cost is a run. -/
theorem run_solve {objective : Objective α} {start : Point α} {cost : α} (config : Config α)
    (observer : Observer (Event α) σ) (state : σ) (log : Log α)
    (h : objective.cost start = .ok cost) :
    Run objective config observer config.maxIters (opening start cost state log)
      (solve objective start config observer state log) := by
  rw [solve, h]
  exact run_observed objective config observer config.maxIters (opening start cost state log)

/-- A solve that has a solution began at a start that has a cost. -/
theorem cost_of_solve {objective : Objective α} {start : Point α} {config : Config α}
    {observer : Observer (Event α) σ} {state : σ} {log : Log α} {s : Solution α}
    (h : (solve objective start config observer state log).result = .ok s) :
    ∃ cost, objective.cost start = .ok cost := by
  rw [solve] at h
  split at h
  · cases h
  · rename_i cost hcost
    exact ⟨cost, hcost⟩

/-! ### What a run records -/

/-- A run extends what it has recorded by a chain of steps. -/
theorem Run.extends {objective : Objective α} {config : Config α}
    {observer : Observer (Event α) σ} {n : Nat} {s : Progress α σ} {r : Report α σ}
    (run : Run objective config observer n s r) (sync : Synced objective s) {sol : Solution α}
    (h : r.result = .ok sol) :
    ∃ later, sol.trajectory.toList = s.trajectory.toList ++ later ∧
      (s.trajectory.last :: later).IsChain (IsStep objective config) ∧
      sol.trajectory.length = sol.iters + 1 ∧ objective.cost sol.point = .ok sol.cost := by
  induction run with
  | stopped verdict | spent verdict | halted verdict turn_eq =>
      cases h
      exact ⟨[], by simp, by simp, sync.length_eq, sync.cost_eq⟩
  | failed verdict turn_eq => cases h
  | @stepped n s state c log r verdict turn_eq rest ih =>
      obtain ⟨step, cost_eq⟩ := isStep_of_turn sync.cost_eq turn_eq
      obtain ⟨later, points, chain, length_eq, last_cost⟩ :=
        ih (Synced.accept ⟨sync.cost_eq, sync.length_eq⟩ cost_eq) h
      refine ⟨c.point :: later, ?_, ?_, length_eq, last_cost⟩
      · rw [points]
        show (s.trajectory.push c.point).toList ++ later = _
        rw [Trajectory.toList_push, List.append_assoc]
        rfl
      · have from_c : (c.point :: later).IsChain (IsStep objective config) := by
          simpa [Progress.accept] using chain
        exact .cons_cons step from_c

/-- **The points of a solution are a chain of steps.** -/
theorem solve_trajectory (objective : Objective α) (start : Point α) (config : Config α)
    (observer : Observer (Event α) σ) (state : σ) (log : Log α) (s : Solution α)
    (h : (solve objective start config observer state log).result = .ok s) :
    s.trajectory.toList.head? = some start ∧
      s.trajectory.toList.length = s.iters + 1 ∧
      s.trajectory.toList.IsChain (IsStep objective config) := by
  obtain ⟨cost, hcost⟩ := cost_of_solve h
  obtain ⟨later, points, chain, length_eq, -⟩ :=
    (run_solve config observer state log hcost).extends (synced_opening hcost state log) h
  have from_start : s.trajectory.toList = start :: later := points
  refine ⟨?_, ?_, ?_⟩
  · rw [from_start]
    rfl
  · rw [Trajectory.length_toList]
    exact length_eq
  · rw [from_start]
    exact chain

/-! ### A run to look at

The bowl has its only root at the origin, which the descent from this start reaches
in three equal steps. -/

/-- A sum of two squares. -/
def bowl : Objective Float := .ofEquations [.var "x", .var "y"]

/-- A point on the slope of the bowl. -/
def slopePoint : Point Float := .ofList [("x", 1), ("y", 2)]

/-- A result that passes a test is a solution. -/
theorem exists_ok_of_any {ε β : Type} {x : Except ε β} {test : β → Bool}
    (h : x.toOption.any test = true) : ∃ s, x = .ok s ∧ test s = true := by
  cases x with
  | error e => simp [Except.toOption] at h
  | ok s => exact ⟨s, rfl, by simpa [Except.toOption] using h⟩

theorem exists_error_of_not_isOk {ε β : Type} {x : Except ε β} (h : x.isOk = false) :
    ∃ e, x = .error e := by
  cases x with
  | error e => exact ⟨e, rfl⟩
  | ok s => cases h

theorem solve_trajectory_bowl :
    ∃ s, (solve bowl slopePoint .standard Observer.silent () .silent).result = .ok s ∧
      s.iters = 3 ∧ s.trajectory.toList.head? = some slopePoint ∧
      s.trajectory.toList.length = 4 ∧
      s.trajectory.toList.IsChain (IsStep bowl .standard) := by
  have solved : (solve bowl slopePoint .standard Observer.silent () .silent).result.toOption.any
      (fun s => s.iters == 3) = true := by decide +kernel
  obtain ⟨s, hs, three⟩ := exists_ok_of_any solved
  obtain ⟨first, length_eq, chain⟩ :=
    solve_trajectory bowl slopePoint .standard Observer.silent () .silent s hs
  have iters_eq : s.iters = 3 := eq_of_beq three
  exact ⟨s, hs, iters_eq, first, by rw [length_eq, iters_eq], chain⟩

end Descent

end Downhill
