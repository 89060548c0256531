/-
The direction of a step.

A step goes against the gradient, scaled so that the absolute components of the
direction sum to one: step sizes then mean the same wherever the run stands.
-/
import Downhill.Point

namespace Downhill.Descent

variable {α : Type}

/-- Whether every component of a gradient is below the tolerance. -/
def isStationary [LT α] [DecidableLT α] [Magnitude α] (epsilon : α) (gradient : Point α) : Bool :=
  gradient.all fun _ g => decide (Magnitude.abs g < epsilon)

/-- The sum of the absolute components. -/
def absSum [Zero α] [Add α] [Magnitude α] (p : Point α) : α := p.sumBy fun _ x => Magnitude.abs x

/-- The direction of steepest descent; a gradient of zeros has none. -/
def direction? [Zero α] [Add α] [Neg α] [Div α] [BEq α] [Magnitude α] (gradient : Point α) :
    Option (Point α) :=
  if absSum gradient == 0 then none else some (gradient.map fun _ g => -g / absSum gradient)

/-- The slope of the cost along a direction. -/
def slope [Zero α] [Add α] [Mul α] (gradient direction : Point α) : α :=
  gradient.sumBy fun name g => g * direction.component name

/-- Where a step of some size along a direction leads.  Coordinates that the
direction does not mention move by a multiple of zero. -/
def advance [Zero α] [Add α] [Mul α] (p direction : Point α) (stepSize : α) : Point α :=
  p.map fun name x => x + stepSize * direction.component name

end Downhill.Descent
