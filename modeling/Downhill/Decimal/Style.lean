/-
Writing decimals.

A `Style` holds the decisions of one way of writing numbers: which magnitudes
are written out positionally and which with an exponent, and what stands for the
values that have no digits.  `Style.plain` is the one that expressions use.
-/
import Downhill.Decimal.Shortest

namespace Downhill.Decimal

/-- The decisions of one way of writing numbers. -/
structure Style where
  /-- The least exponent of a leading digit that is written positionally. -/
  lowest : Int
  /-- The first exponent beyond those that are written positionally. -/
  beyond : Int
  /-- What follows a whole number in positional form. -/
  wholeSuffix : String
  /-- What stands between the digits and the exponent. -/
  exponentMark : String
  /-- The word for a NaN, which has no sign. -/
  notANumber : String
  /-- The word for infinity. -/
  infinity : String

/-- From `0.0001` up to sixteen digits a number is written out, with at least one
digit after the point; beyond that it gets an exponent, without a needless point
or plus sign. -/
def Style.plain : Style where
  lowest := -4
  beyond := 16
  wholeSuffix := ".0"
  exponentMark := "e"
  notANumber := "NaN"
  infinity := "inf"

namespace Scaled

/-- The exponent of the leading digit. -/
def leading (x : Scaled) : Int := x.exponent + (Nat.toDigits 10 x.coefficient).length - 1

/-- The digits, without the zeros at the end. -/
def significand (x : Scaled) : List Char :=
  ((Nat.toDigits 10 x.coefficient).reverse.dropWhile (· == '0')).reverse

end Scaled

namespace Style

/-- An exponent: its digits, after a minus sign if it is negative. -/
def exponent (n : Int) : String :=
  (if n < 0 then "-" else "") ++ String.ofList (Nat.toDigits 10 n.natAbs)

/-- Digits written out around a point, the first of them at `10 ^ leading`. -/
def positional (style : Style) (digits : List Char) (leading : Int) : String :=
  if leading < 0 then
    "0." ++ String.ofList (List.replicate (-leading - 1).toNat '0' ++ digits)
  else
    let whole := leading.toNat + 1
    if digits.length ≤ whole then
      String.ofList (digits ++ List.replicate (whole - digits.length) '0') ++ style.wholeSuffix
    else
      String.ofList (digits.take whole) ++ "." ++ String.ofList (digits.drop whole)

/-- Digits with a point after the first of them, if others follow, and an
exponent. -/
def scientific (style : Style) (digits : List Char) (leading : Int) : String :=
  String.ofList (digits.take 1) ++
    (if digits.length ≤ 1 then "" else "." ++ String.ofList (digits.drop 1)) ++
    style.exponentMark ++ exponent leading

/-- A positive decimal. -/
def decimal (style : Style) (x : Scaled) : String :=
  if style.lowest ≤ x.leading ∧ x.leading < style.beyond then
    style.positional x.significand x.leading
  else style.scientific x.significand x.leading

/-- A number with the fewest digits that read back, keeping the sign of zero. -/
def float (style : Style) (x : Float) : String :=
  if x.isNaN then style.notANumber
  else
    let sign := if x.toBits.toNat / Nat.pow 2 63 = 1 then "-" else ""
    if x.isInf then sign ++ style.infinity
    else if x == 0.0 then sign ++ style.positional ['0'] 0
    else sign ++ style.decimal (Cell.ofFloat x).shortest

end Style

end Downhill.Decimal
