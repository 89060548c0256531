/-
The numbers the library computes with.

Expressions, line searches and solves are written once, over any type that has
the operations they use: a symbolic expression only needs a ring's operations
and an equality test, a solve also needs subtraction, division and an order.
Running them on `Float` gives the program; reading them over a field gives the
exact arithmetic that the program approximates.

Core names every operation needed but two, which `Magnitude` adds: the absolute
value, and the test that separates the finite numbers from infinities and NaN.
-/
namespace Downhill

instance instZeroFloat : Zero Float := ⟨0.0⟩

instance instOneFloat : One Float := ⟨1.0⟩

/-- What a solver asks of its numbers besides arithmetic and order. -/
class Magnitude (α : Type) where
  /-- The distance from zero. -/
  abs : α → α
  /-- Whether the number is an ordinary one, neither an infinity nor a NaN. -/
  isFinite : α → Bool

instance instMagnitudeFloat : Magnitude Float where
  abs := Float.abs
  isFinite := Float.isFinite

end Downhill
