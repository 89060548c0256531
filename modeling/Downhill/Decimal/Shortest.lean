/-
The fewest decimal digits that read back as a given number.

A binary number stands for all the reals that round to it.  These fill an
interval around it, its `Cell`, which reaches halfway to the neighbours.  A
decimal reads back as the number when it lies in the cell, so the shortest one is
found by trying coarse decimal grids before fine ones: if any point of a grid
lies in the cell, one of the two grid points next to the number does.

Everything is exact arithmetic on natural numbers.
-/
namespace Downhill.Decimal

/-- The reals that round to one positive number, as fractions over a common
denominator. -/
structure Cell where
  /-- Numerator of the lower end. -/
  lower : Nat
  /-- Numerator of the number itself. -/
  centre : Nat
  /-- Numerator of the upper end. -/
  upper : Nat
  /-- The common denominator. -/
  scale : Nat
  /-- Whether the ends belong to the cell. -/
  closed : Bool

/-- A decimal: a coefficient and the power of ten that it counts. -/
structure Scaled where
  coefficient : Nat
  exponent : Int
  deriving DecidableEq, Repr

namespace Cell

/-- The cell of `mantissa * 2 ^ exponent`.  Its ends lie half a unit away, and
belong to it when the mantissa is even, because a tie rounds to even.  Below a
power of two the numbers lie twice as close, so there the lower end is only a
quarter of a unit away. -/
def ofBinary (mantissa : Nat) (exponent : Int) (powerOfTwo : Bool) : Cell :=
  let up := Nat.pow 2 (exponent - 2).toNat
  { lower := (4 * mantissa - if powerOfTwo then 1 else 2) * up
    centre := 4 * mantissa * up
    upper := (4 * mantissa + 2) * up
    scale := Nat.pow 2 (2 - exponent).toNat
    closed := mantissa % 2 = 0 }

/-- The cell of the magnitude of a finite number. -/
def ofFloat (x : Float) : Cell :=
  let bits := x.toBits.toNat
  let fraction : Nat := bits % Nat.pow 2 52
  let biased : Nat := bits / Nat.pow 2 52 % Nat.pow 2 11
  if biased = 0 then ofBinary fraction (-1074) false
  else ofBinary (Nat.pow 2 52 + fraction) ((biased : Int) - 1075) (fraction == 0 && biased != 1)

/-- Whether a decimal lies in the cell. -/
def contains (c : Cell) (x : Scaled) : Bool :=
  let down := Nat.pow 10 (-x.exponent).toNat
  let point := x.coefficient * Nat.pow 10 x.exponent.toNat * c.scale
  if c.closed then c.lower * down ≤ point && point ≤ c.upper * down
  else c.lower * down < point && point < c.upper * down

/-- How many whole steps of `10 ^ exponent` the number holds. -/
def steps (c : Cell) (exponent : Int) : Nat :=
  c.centre * Nat.pow 10 (-exponent).toNat / (c.scale * Nat.pow 10 exponent.toNat)

/-- Whether the number lies closer to `coefficient` steps of a grid than to one
step more.  Halfway between, it does not. -/
def closerBelow (c : Cell) (coefficient : Nat) (exponent : Int) : Bool :=
  2 * c.centre * Nat.pow 10 (-exponent).toNat <
    (2 * coefficient + 1) * (c.scale * Nat.pow 10 exponent.toNat)

/-- The point of a grid that reads back, if there is one.  Of two the nearer one
counts, and halfway between them the greater. -/
def onGrid? (c : Cell) (exponent : Int) : Option Scaled :=
  let below : Scaled := ⟨c.steps exponent, exponent⟩
  let above : Scaled := ⟨c.steps exponent + 1, exponent⟩
  match c.contains below, c.contains above with
  | true, true => some (if c.closerBelow below.coefficient exponent then below else above)
  | true, false => some below
  | false, true => some above
  | false, false => none

/-- The exponent of the leading decimal digit. -/
def leading (c : Cell) : Int :=
  let guess : Int := (Nat.toDigits 10 c.centre).length - (Nat.toDigits 10 c.scale).length
  if c.steps guess = 0 then guess - 1 else guess

/-- The first hit on the grids from `10 ^ exponent` down, each ten times as fine
as the one before; after the last one, what it holds below the number. -/
def firstHit (c : Cell) (exponent : Int) : Nat → Scaled
  | 0 => ⟨c.steps exponent, exponent⟩
  | finer + 1 =>
    match c.onGrid? exponent with
    | some x => x
    | none => c.firstHit (exponent - 1) finer

/-- The decimal with the fewest digits that lies in the cell, and of those the
one nearest the number.  Seventeen digits are enough for any binary number of
fifty-three bits. -/
def shortest (c : Cell) : Scaled := c.firstHit c.leading 17

end Cell

end Downhill.Decimal
