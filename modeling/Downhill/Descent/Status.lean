/-
How a descent ends.
-/
namespace Downhill

/-- Why a descent stopped. -/
inductive Status where
  /-- The magnitude of the cost is within the tolerance. -/
  | converged
  /-- The cost is not within the tolerance, but every partial derivative is below
  it. -/
  | localMinimum
  /-- The next step would have left the ordinary numbers; it was not taken. -/
  | diverged
  /-- No step size lowered the cost enough. -/
  | lineSearchStalled
  /-- The iterations ran out. -/
  | maxIters
  /-- The observer asked for it. -/
  | stoppedByObserver
  deriving DecidableEq, Repr

namespace Status

/-- The name of a status. -/
def name : Status → String
  | converged => "Converged"
  | localMinimum => "LocalMinimum"
  | diverged => "Diverged"
  | lineSearchStalled => "LineSearchStalled"
  | maxIters => "MaxIters"
  | stoppedByObserver => "StoppedByObserver"

/-- Whether the descent ended without an answer and without having been asked to
stop. -/
def isWarning : Status → Bool
  | diverged | lineSearchStalled | maxIters => true
  | converged | localMinimum | stoppedByObserver => false

end Status

end Downhill
