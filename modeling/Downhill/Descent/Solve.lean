/-
Gradient descent.

A run starts at a point and takes steps against the gradient, each as long as a
line search allows.  Before each step it tests, in this order, whether the cost
is within the tolerance and whether every partial derivative is.  Every point
that is reached is recorded and shown to the observer, the start as step zero,
and the observer may stop the run there.

One turn of the run is `turn`, a function of the current point and its cost; the
run is `descend`, which repeats it.
-/
import Downhill.Descent.Backtracking
import Downhill.Observer.Reading
import Downhill.Trajectory

namespace Downhill

/-- Why a descent has no result. -/
inductive SolveError where
  /-- The cost or a partial derivative has no value. -/
  | eval (e : EvalError)
  /-- The gradient is zero, so there is no direction to go.  With a positive
  tolerance such a point counts as a local minimum before this is noticed. -/
  | degenerateGradient
  deriving DecidableEq, Repr

/-- The error in words. -/
def SolveError.message : SolveError → String
  | eval e => "evaluation failed: " ++ e.message
  | degenerateGradient => "descent direction is undefined: every gradient component is zero"

/-- Shown to the observer at the start and after every step. -/
structure Event (α : Type) where
  /-- The place of the point in the trajectory. -/
  step : Nat
  /-- The point just reached. -/
  point : Point α
  /-- The cost there. -/
  cost : α

/-- The step and the cost of an event. -/
def Event.reading {α : Type} (e : Event α) : Reading α := ⟨e.step, e.cost⟩

/-- The result of a descent. -/
structure Solution (α : Type) where
  /-- Why it stopped. -/
  status : Status
  /-- Where it went. -/
  trajectory : Trajectory α
  /-- The cost at the last point. -/
  cost : α
  /-- How many steps it took. -/
  iters : Nat

namespace Solution

variable {α : Type}

/-- The last point. -/
def point (s : Solution α) : Point α := s.trajectory.last

/-- Whether the descent reached a root. -/
def isConverged (s : Solution α) : Bool := s.status == .converged

end Solution

/-- All that a run leaves behind. -/
structure Report (α σ : Type) where
  /-- The solution, or why there is none. -/
  result : Except SolveError (Solution α)
  /-- The final state of the observer. -/
  observer : σ
  /-- The log. -/
  log : Log α

namespace Descent

variable {α σ : Type} [Zero α] [One α] [Add α] [Sub α] [Mul α] [Neg α] [Div α] [BEq α]
  [LT α] [LE α] [DecidableLT α] [DecidableLE α] [Magnitude α]

/-! ### One turn -/

/-- What a turn comes to. -/
inductive Turn (α : Type) where
  /-- The run is over. -/
  | halt (status : Status)
  /-- The run goes on from another point. -/
  | step (candidate : Candidate α)

/-- Whether a cost is within the tolerance. -/
def isRoot (config : Config α) (cost : α) : Bool := decide (Magnitude.abs cost ≤ config.epsilon)

/-- One turn at a point whose cost is known; `iter` steps were taken before.  A
candidate that is not finite is refused here, whatever its cost. -/
def turn (objective : Objective α) (config : Config α) (iter : Nat) (point : Point α) (cost : α)
    (log : Log α) : Except SolveError (Turn α) × Log α :=
  if isRoot config cost then (.ok (.halt .converged), log)
  else
    match objective.gradient point with
    | .error e => (.error (.eval e), log)
    | .ok gradient =>
      if isStationary config.epsilon gradient then (.ok (.halt .localMinimum), log)
      else
        match direction? gradient with
        | none => (.error .degenerateGradient, log)
        | some direction =>
          match lineSearch config.lineSearch objective point cost gradient direction log with
          | (.error e, log) => (.error (.eval e), log)
          | (.ok none, log) => (.ok (.halt .lineSearchStalled), log)
          | (.ok (some candidate), log) =>
            if candidate.point.isFinite then (.ok (.step candidate), log)
            else
              (.ok (.halt .diverged), log.emit (.domainLeft (iter + 1) candidate.stepSize))

/-! ### The run -/

/-- Where a run stands: what was recorded, and the cost at the last point. -/
structure Progress (α σ : Type) where
  trajectory : Trajectory α
  cost : α
  /-- How many steps were taken. -/
  iters : Nat
  observer : σ
  log : Log α

namespace Progress

/-- Ends the run. -/
def finish (s : Progress α σ) (status : Status) : Report α σ where
  result := .ok ⟨status, s.trajectory, s.cost, s.iters⟩
  observer := s.observer
  log := s.log.emit (.descentEnded status s.cost s.iters)

/-- Gives the run up. -/
def fail (s : Progress α σ) (e : SolveError) : Report α σ := ⟨.error e, s.observer, s.log⟩

/-- Takes a step. -/
def accept (s : Progress α σ) (c : Candidate α) : Progress α σ where
  trajectory := s.trajectory.push c.point
  cost := c.cost
  iters := s.iters + 1
  observer := s.observer
  log := s.log.emit (.stepAccepted (s.iters + 1) c.cost c.stepSize c.shrinks)

/-- What the observer is shown. -/
def event (s : Progress α σ) : Event α := ⟨s.iters, s.trajectory.last, s.cost⟩

/-- Shows the observer where the run stands, and goes on if it agrees. -/
def observed (observer : Observer (Event α) σ) (s : Progress α σ)
    (next : Progress α σ → Report α σ) : Report α σ :=
  match observer.next s.observer s.event with
  | (state, .proceed) => next { s with observer := state }
  | (state, .stop) => finish { s with observer := state } .stoppedByObserver

end Progress

/-- Goes on from where a run stands, with so many steps remaining.  The last
point is tested once more, so a run whose last step lands on a root converges. -/
def descend (objective : Objective α) (config : Config α) (observer : Observer (Event α) σ) :
    (remaining : Nat) → Progress α σ → Report α σ
  | 0, s => s.finish (if isRoot config s.cost then .converged else .maxIters)
  | remaining + 1, s =>
    match turn objective config s.iters s.trajectory.last s.cost s.log with
    | (.error e, log) => Progress.fail { s with log } e
    | (.ok (.halt status), log) => Progress.finish { s with log } status
    | (.ok (.step candidate), log) =>
      (Progress.accept { s with log } candidate).observed observer
        (descend objective config observer remaining)

end Descent

variable {α σ : Type} [Zero α] [One α] [Add α] [Sub α] [Mul α] [Neg α] [Div α] [BEq α]
  [LT α] [LE α] [DecidableLT α] [DecidableLE α] [Magnitude α]

/-- Descends from a start under an observer.  The log goes on from the one that
is given.  If the start has no cost, nothing is logged and the observer is shown
nothing. -/
def solve (objective : Objective α) (start : Point α) (config : Config α)
    (observer : Observer (Event α) σ) (state : σ) (log : Log α) : Report α σ :=
  match objective.cost start with
  | .error e => ⟨.error (.eval e), state, log⟩
  | .ok cost =>
    Descent.Progress.observed observer
      ⟨.startingAt start, cost, 0, state, log.emit (.descentStarted cost)⟩
      (Descent.descend objective config observer config.maxIters)

/-- Descends from a start unobserved and without a log. -/
def solveUnobserved (objective : Objective α) (start : Point α) (config : Config α) :
    Except SolveError (Solution α) :=
  (solve objective start config Observer.silent () .silent).result

end Downhill
