/-
The points that a solve visits.

A trajectory starts at some point and grows at the other end, so it is never
empty and always has a last point.
-/
import Downhill.Point

namespace Downhill

/-- A starting point and the points that were reached from it, in order. -/
structure Trajectory (α : Type) where
  /-- The first point. -/
  start : Point α
  /-- The later points, the most recent one last. -/
  later : Array (Point α) := #[]

namespace Trajectory

variable {α : Type}

/-- The trajectory that has not left its start. -/
def startingAt (p : Point α) : Trajectory α := ⟨p, #[]⟩

/-- Goes on to a further point. -/
def push (t : Trajectory α) (p : Point α) : Trajectory α := { t with later := t.later.push p }

/-- All points, in the order in which they were visited. -/
def toList (t : Trajectory α) : List (Point α) := t.start :: t.later.toList

/-- The most recent point. -/
def last (t : Trajectory α) : Point α := t.later.back?.getD t.start

/-- How many points there are, the first one included. -/
def length (t : Trajectory α) : Nat := t.later.size + 1

/-- Each step as the pair of points that it joins. -/
def segments (t : Trajectory α) : List (Point α × Point α) := t.toList.zip t.toList.tail

/-- Trajectories are equal when they visit equal points. -/
instance [BEq α] : BEq (Trajectory α) := ⟨fun s t => s.toList == t.toList⟩

@[simp] theorem toList_startingAt (p : Point α) : (startingAt p).toList = [p] := rfl

@[simp] theorem toList_push (t : Trajectory α) (p : Point α) :
    (t.push p).toList = t.toList ++ [p] := by
  simp [push, toList]

@[simp] theorem length_toList (t : Trajectory α) : t.toList.length = t.length := by
  simp [toList, length]

/-- The last point is the last one that the view shows. -/
theorem getLast?_toList (t : Trajectory α) : t.toList.getLast? = some t.last := by
  simp [toList, last, List.getLast?_cons, Array.getLast?_toList]

@[simp] theorem last_push (t : Trajectory α) (p : Point α) : (t.push p).last = p := by
  simp [push, last]

end Trajectory

end Downhill
