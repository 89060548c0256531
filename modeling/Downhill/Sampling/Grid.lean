/-
Regular grids over a region.

The ticks of an axis start at its lower bound and are a fixed spacing apart, up
to and including the upper bound when that is a tick.  A grid is the product of
its axes; the last variable varies fastest.  It is described by its axes, so its
size and any one of its points can be had without listing them all.
-/
import Downhill.Log
import Downhill.Sampling.Region

namespace Downhill

/-- The ticks along one variable. -/
structure Axis where
  /-- The first tick. -/
  lower : Float
  /-- How far apart the ticks are. -/
  spacing : Float
  /-- How many there are. -/
  count : Nat

namespace Axis

/-- A tick by its number, counted from zero.  It is computed from its number so
that rounding does not build up along the axis. -/
def tick (a : Axis) (i : Nat) : Float := a.lower + Float.ofNat i * a.spacing

/-- All ticks in order. -/
def ticks (a : Axis) : List Float := (List.range a.count).map a.tick

end Axis

/-- The product of some axes. -/
abbrev Grid := Bindings Axis

namespace Grid

/-- Why a region has no grid. -/
inductive Error where
  | spacing
  | tooManyPoints
  deriving DecidableEq, Repr

/-- The greatest number of points that a grid may have. -/
def maxPoints : Nat := 10000000

/-- The error in words. -/
def Error.message : Error → String
  | spacing => "grid spacing must be finite and positive"
  | tooManyPoints =>
    "grid would have more than " ++ String.ofList (Nat.toDigits 10 maxPoints) ++ " points"

/-- The product of two counts, if a machine word can hold it. -/
def checkedMul? (a b : Nat) : Option Nat := if a * b < UInt64.size then some (a * b) else none

/-- The product of some counts, multiplied up from the first of them.  It is given up as soon as
it is more than a grid may have. -/
def total? (counts : List Nat) : Option Nat :=
  counts.foldlM
    (fun total count => (checkedMul? total count).filter fun total => decide (total ≤ maxPoints)) 1

/-- How many ticks each axis has. -/
def counts (g : Grid) : List Nat := g.toList.map fun e => e.2.count

/-- How many points a product of axes has. -/
def volume : List (String × Axis) → Nat
  | [] => 1
  | (_, axis) :: rest => axis.count * volume rest

/-- How many points the grid has. -/
def pointCount (g : Grid) : Nat := volume g.toList

/-- The entries of one point of a product of axes, from the number of the point:
its digits to the base of the counts are the numbers of its ticks. -/
def coordinates : List (String × Axis) → Nat → List (String × Float)
  | [], _ => []
  | (name, axis) :: rest, k =>
    (name, axis.tick (k / volume rest)) :: coordinates rest (k % volume rest)

/-- A point of the grid by its number, counted from zero. -/
def point (g : Grid) (k : Nat) : Point Float := Bindings.ofList (coordinates g.toList k)

/-- All points of the grid, extended axis by axis from the one empty point. -/
def points (g : Grid) : List (Point Float) :=
  g.toList.foldl
    (fun points (name, axis) => points.flatMap fun p => axis.ticks.map (p.insert name)) [∅]

end Grid

namespace Interval

/-- How many ticks fit between the ends of an interval.  A tick that lies beyond
the upper end by less than a billionth of the spacing, as rounding may have it,
still counts.  There is no answer where the count would exceed what any grid may
have. -/
def tickCount? (i : Interval) (spacing : Float) : Option Nat :=
  let steps := (i.upper - i.lower) / spacing + 1e-9
  if steps < Float.ofNat Grid.maxPoints then some (steps.toUInt64.toNat + 1) else none

/-- The axis along an interval. -/
def axis (i : Interval) (spacing : Float) : Except Grid.Error Axis :=
  match i.tickCount? spacing with
  | some count => .ok ⟨i.lower, spacing, count⟩
  | none => .error .tooManyPoints

end Interval

namespace Region

/-- The grid over a region, and its record in the log. -/
def grid (r : Region) (spacing : Float) (log : Log Float) :
    Except Grid.Error Grid × Log Float :=
  if spacing.isFinite && !(decide (spacing ≤ 0)) then
    match r.traverse fun _ interval => interval.axis spacing with
    | .error e => (.error e, log)
    | .ok (axes : Grid) =>
      match Grid.total? axes.counts with
      | none => (.error .tooManyPoints, log)
      | some _ => (.ok axes, log.emit (.gridBuilt r.size spacing axes.pointCount))
  else (.error .spacing, log)

end Region

end Downhill
