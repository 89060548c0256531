/-
Points scattered over a region.

A scatter draws each coordinate uniformly from its interval.  The randomness is a
sequence of words, which the caller supplies: equal words give equal points.
One word is used for each coordinate, in name order within a point.
-/
import Downhill.Sampling.Region

namespace Downhill

namespace Interval

/-- The greatest number below one that a word can be turned into, `1 - 2 ^ -52`. -/
def maxUnit : Float := Float.ofBits 0x3feffffffffffffe

/-- The number from zero up to `maxUnit` that the upper fifty-two bits of a word
stand for: they become the fraction of a number between one and two. -/
def unit (word : UInt64) : Float :=
  Float.ofBits ((1023 : UInt64) <<< 52 ||| word >>> 12) - 1.0

/-- The first scale, going down through the bit patterns, that does not carry
`maxUnit` beyond the upper end. -/
def settle (i : Interval) : Nat → Float
  | 0 => Float.ofBits 0
  | bits + 1 =>
    let scale := Float.ofBits (bits + 1).toUInt64
    if scale * maxUnit + i.lower > i.upper then i.settle bits else scale

/-- What the unit interval is stretched by so that `maxUnit` lands on the upper
end, or as close below it as rounding allows. -/
def scale? (i : Interval) : Option Float :=
  let scale := (i.upper - i.lower) / maxUnit
  if scale.isFinite then some (i.settle scale.toBits.toNat) else none

/-- The number in the interval that a word stands for.  The headroom of an
interval is there so that it has one. -/
def sample? (i : Interval) (word : UInt64) : Option Float :=
  i.scale?.map fun scale => unit word * scale + i.lower

end Interval

namespace Region

/-- A variable from which no number could be drawn. -/
structure Unsampled where
  name : String
  deriving DecidableEq, Repr

/-- The point that some words stand for, the first of them for the first
variable. -/
def sample (r : Region) (words : Nat → UInt64) : Except Unsampled (Point Float) :=
  (r.mapIdx fun i _ interval => interval.sample? (words i)).traverse fun name x =>
    match x with
    | some x => .ok x
    | none => .error ⟨name⟩

/-- How many words a scatter of some points uses. -/
def wordsUsed (r : Region) (count : Nat) : Nat := count * r.size

/-- Some points of the region, each made from the words that follow those of the
one before. -/
def scatter (r : Region) (words : Nat → UInt64) (count : Nat) :
    Except Unsampled (List (Point Float)) :=
  (List.range count).mapM fun k => r.sample fun i => words (r.wordsUsed k + i)

end Region

end Downhill
