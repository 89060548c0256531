/-
Regions of the search space.

A region bounds each of its variables by a closed interval.  An interval that
could not be sampled, because an end is infinite or its width overflows, is not
an `Interval`; `Interval.make` says what is wrong with it.
-/
import Downhill.Point

namespace Downhill

/-- Why two numbers do not bound an interval. -/
inductive Interval.Error where
  | nonFinite
  | inverted
  | unboundedWidth
  deriving DecidableEq, Repr

/-- The headroom that sampling needs: it works with a width that is greater by a
few units in the last place. -/
def Interval.headroom : Float := 1 + 2 * Float.ofBits 0x3cb0000000000000

/-- A closed interval that can be sampled. -/
structure Interval where
  lower : Float
  upper : Float
  finite : lower.isFinite = true ∧ upper.isFinite = true
  ordered : ¬ upper < lower
  /-- The width, and a little more, is finite. -/
  bounded : ((upper - lower) * Interval.headroom).isFinite = true

namespace Interval

/-- The interval between two numbers, if there is one. -/
def make (lower upper : Float) : Except Error Interval :=
  if hf : lower.isFinite = true ∧ upper.isFinite = true then
    if ho : ¬ upper < lower then
      if hb : ((upper - lower) * headroom).isFinite = true then .ok ⟨lower, upper, hf, ho, hb⟩
      else .error .unboundedWidth
    else .error .inverted
  else .error .nonFinite

/-- Whether a number lies in the interval, ends included. -/
def contains (i : Interval) (x : Float) : Bool := decide (i.lower ≤ x) && decide (x ≤ i.upper)

instance : BEq Interval := ⟨fun a b => a.lower == b.lower && a.upper == b.upper⟩

end Interval

/-- A closed interval for each of finitely many variables. -/
abbrev Region := Bindings Interval

namespace Region

/-- The variable whose bounds are no interval, and why. -/
structure Error where
  name : String
  cause : Interval.Error
  deriving DecidableEq, Repr

/-- The error in words. -/
def Error.message (e : Error) : String :=
  match e.cause with
  | .nonFinite => "bounds for `" ++ e.name ++ "` must be finite"
  | .inverted => "lower bound for `" ++ e.name ++ "` exceeds its upper bound"
  | .unboundedWidth => "width of the bounds for `" ++ e.name ++ "` overflows"

/-- Bounds one more variable, or bounds it anew. -/
def bound (r : Region) (name : String) (lower upper : Float) : Except Error Region :=
  match Interval.make lower upper with
  | .ok interval => .ok (r.insert name interval)
  | .error cause => .error ⟨name, cause⟩

/-- The region with these bounds.  A repeated name keeps its last bounds, but all
of them have to be in order; the first that are not count. -/
def ofBounds (bounds : List (String × Float × Float)) : Except Error Region :=
  bounds.foldlM (fun r (name, lower, upper) => r.bound name lower upper) ∅

/-- Whether a point binds every variable of the region within its interval. -/
def contains (r : Region) (p : Point Float) : Bool :=
  r.all fun name interval =>
    match p.get? name with
    | some x => interval.contains x
    | none => false

end Region

end Downhill
