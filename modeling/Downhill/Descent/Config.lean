/-
The parameters of a descent.

A `LineSearch` and a `Config` can only be built from parameters that make sense,
so no solve has to check them.  `LineSearch.make` and `Config.make` do the
checking and say which parameter is wrong; of several, the first in the order of
the fields.
-/
import Downhill.Scalar

namespace Downhill

/-- Which parameter of a descent is out of range. -/
inductive ConfigError where
  | epsilon
  | controlParameter
  | shrinkFactor
  | initialStep
  | maxShrinks
  deriving DecidableEq, Repr

/-- The error in words. -/
def ConfigError.message : ConfigError → String
  | epsilon => "epsilon must be finite and non-negative"
  | controlParameter => "line search control parameter must be in (0, 1]"
  | shrinkFactor => "line search shrink factor must be in (0, 1]"
  | initialStep => "line search initial step must be finite and positive"
  | maxShrinks => "line search must allow at least one shrink"

section

variable (α : Type) [Zero α] [One α] [LT α] [LE α] [Magnitude α]

/-- The parameters of a backtracking line search. -/
structure LineSearch where
  /-- The share of the decrease promised by the slope that a step must achieve. -/
  control : α
  /-- What the step size is multiplied by before each candidate. -/
  shrink : α
  /-- The step size before it is first multiplied. -/
  initialStep : α
  /-- How many candidates are tried. -/
  maxShrinks : Nat
  control_range : 0 < control ∧ control ≤ 1
  shrink_range : 0 < shrink ∧ shrink ≤ 1
  initialStep_finite : Magnitude.isFinite initialStep = true
  initialStep_pos : ¬ initialStep ≤ 0
  maxShrinks_ne_zero : maxShrinks ≠ 0

/-- The parameters of a descent. -/
structure Config where
  /-- How many steps may be taken. -/
  maxIters : Nat
  /-- The tolerance: of the cost, to have converged, and of each partial
  derivative, to be at a local minimum. -/
  epsilon : α
  /-- How step sizes are found. -/
  lineSearch : LineSearch α
  epsilon_finite : Magnitude.isFinite epsilon = true
  epsilon_nonneg : ¬ epsilon < 0

end

variable {α : Type} [Zero α] [One α] [LT α] [LE α] [Magnitude α]

/-- Line search parameters, if they are in range. -/
def LineSearch.make [DecidableLT α] [DecidableLE α] (control shrink initialStep : α)
    (maxShrinks : Nat) : Except ConfigError (LineSearch α) :=
  if hc : 0 < control ∧ control ≤ 1 then
    if hs : 0 < shrink ∧ shrink ≤ 1 then
      if hi : Magnitude.isFinite initialStep = true ∧ ¬ initialStep ≤ 0 then
        if hm : maxShrinks ≠ 0 then
          .ok ⟨control, shrink, initialStep, maxShrinks, hc, hs, hi.1, hi.2, hm⟩
        else .error .maxShrinks
      else .error .initialStep
    else .error .shrinkFactor
  else .error .controlParameter

namespace Config

/-- Parameters of a descent, if the tolerance is in range. -/
def make [DecidableLT α] (maxIters : Nat) (epsilon : α) (lineSearch : LineSearch α) :
    Except ConfigError (Config α) :=
  if h : Magnitude.isFinite epsilon = true ∧ ¬ epsilon < 0 then
    .ok ⟨maxIters, epsilon, lineSearch, h.1, h.2⟩
  else .error .epsilon

/-- The same parameters with another bound on the steps.  A bound of one gives a
single exploratory step. -/
def withMaxIters (c : Config α) (maxIters : Nat) : Config α := { c with maxIters }

end Config

/-! ### Defaults -/

/-- Halves the step from two down, and asks for half of the promised decrease. -/
def LineSearch.standard : LineSearch Float where
  control := 0.5
  shrink := 0.5
  initialStep := 2
  maxShrinks := 128
  control_range := by decide
  shrink_range := by decide
  initialStep_finite := by decide
  initialStep_pos := by decide
  maxShrinks_ne_zero := by decide

/-- A thousand steps and a tolerance of `1e-12`. -/
def Config.standard : Config Float where
  maxIters := 1000
  epsilon := 1e-12
  lineSearch := .standard
  epsilon_finite := by decide
  epsilon_nonneg := by decide

instance [BEq α] : BEq (LineSearch α) where
  beq a b :=
    a.control == b.control && a.shrink == b.shrink && a.initialStep == b.initialStep &&
      a.maxShrinks == b.maxShrinks

instance [BEq α] : BEq (Config α) where
  beq a b := a.maxIters == b.maxIters && a.epsilon == b.epsilon && a.lineSearch == b.lineSearch

end Downhill
