/-
Solving from many starts.

A descent finds the root in whose basin it starts, so a batch of descents from
scattered starts shows which roots there are.  The descents of a batch do not
touch one another: each has an observer of its own, and one that fails does not
disturb the rest.
-/
import Downhill.Descent.Solve

namespace Downhill

variable {α σ : Type} [Zero α] [One α] [Add α] [Sub α] [Mul α] [Neg α] [Div α] [BEq α]
  [LT α] [LE α] [DecidableLT α] [DecidableLE α] [Magnitude α]

/-- Whether a descent reached a root. -/
def hasConverged (result : Except SolveError (Solution α)) : Bool :=
  match result with
  | .ok solution => solution.isConverged
  | .error _ => false

/-- Solves from every start, the start with number `i` under an observer that
begins in state `states i`.  The results come in the order of the starts.  A
batch of one start is run in place, and what its descent logs goes to the log of
the batch; the descents of a larger batch run apart from it and from each other,
with logs of their own that are not kept. -/
def solveEach (objective : Objective α) (starts : List (Point α)) (config : Config α)
    (observer : Observer (Event α) σ) (states : Nat → σ) (log : Log α) :
    List (Except SolveError (Solution α)) × Log α :=
  match starts with
  | [start] =>
    let report := solve objective start config observer (states 0) log
    ([report.result], report.log)
  | _ =>
    (starts.mapIdx fun i start =>
      (solve objective start config observer (states i) .silent).result, log)

/-- Solves from every start and says in the log how many reached a root. -/
def solveBatch (objective : Objective α) (starts : List (Point α)) (config : Config α)
    (observer : Observer (Event α) σ) (states : Nat → σ) (log : Log α) :
    List (Except SolveError (Solution α)) × Log α :=
  let (results, log) :=
    solveEach objective starts config observer states (log.emit (.batchStarted starts.length))
  (results, log.emit (.batchEnded results.length (results.countP hasConverged)))

end Downhill
