import Mediant.Binary64.Narrowing
import Mediant.Decimal.PowerOfTen

/-!
# The shortest decimal of a number

A positive number of a binary format stands for all numbers that round to it, an interval around
its value that reaches halfway to both neighbours in the format.  The shortest decimal is the one
with the fewest digits in that interval, and the nearest to the number if there are several of
that length.

For each length there is a grid of decimals with that many digits, and only its two points next
to the number can be in the interval and nearest.  `gridPoint?` tests these two in exact natural
arithmetic, and `shortest` takes the first length from one to seventeen that has a hit; seventeen
digits always do.

Magnitudes in this file are counted in quarters of a unit, so that the ends of every interval are
whole numbers.
-/

namespace Mediant
namespace Decimal

open Binary64 (Finite Format unitsPerOne)

/-- The decimal `digits * 10 ^ exponent`. -/
structure Scaled where
  digits : Nat
  exponent : Int
deriving DecidableEq

/-- The numbers that round to one number of a format, in quarter units; `closed` tells whether the
two ends belong to it. -/
structure RoundingInterval where
  lower : Nat
  upper : Nat
  closed : Bool

/-- The interval of a positive number of a format.  Below the first number of a binade the gap to
the neighbour is half of the gap above it. -/
def RoundingInterval.of (f : Format) (x : Finite) : RoundingInterval :=
  let scale := f.scaleAt x.magnitude
  let step := 1 <<< scale
  let significand := x.magnitude / step
  let below := if significand = 1 <<< (f.bits - 1) ∧ scale ≠ f.leastScale then step else 2 * step
  { lower := 4 * x.magnitude - below
    upper := 4 * x.magnitude + 2 * step
    closed := significand % 2 = 0 }

/-- The decimal's numerator over the given power of ten, in quarter units. -/
def Scaled.numerator (c : Scaled) : Nat :=
  4 * unitsPerOne * (c.digits * powerOfTen c.exponent.toNat)

/-- The power of ten that divides the decimal's numerator. -/
def Scaled.denominator (c : Scaled) : Nat := powerOfTen (-c.exponent).toNat

/-- Whether a decimal rounds to the number of the interval. -/
def RoundingInterval.contains (i : RoundingInterval) (c : Scaled) : Bool :=
  let n := c.numerator
  let low := i.lower * c.denominator
  let high := i.upper * c.denominator
  if i.closed then low ≤ n && n ≤ high else low < n && n < high

/-- The decimal exponent of a positive number: `10 ^ e ≤ x < 10 ^ (e + 1)`. -/
def leadingExponent (x : Finite) : Int :=
  ((Nat.toDigits 10 (x.magnitude * powerOfTen 400 / unitsPerOne)).length : Int) - 401

/-- The decimal with the given number of digits that rounds to the number of a format, the nearer
one if both neighbours on the grid do, and the even one if they are equally near. -/
def gridPoint? (f : Format) (x : Finite) (length : Nat) : Option Scaled :=
  let exponent := leadingExponent x - (length - 1 : Nat)
  let n := x.magnitude * powerOfTen (-exponent).toNat
  let d := unitsPerOne * powerOfTen exponent.toNat
  let below : Scaled := ⟨n / d, exponent⟩
  let above : Scaled := ⟨n / d + 1, exponent⟩
  let interval := RoundingInterval.of f x
  match interval.contains below, interval.contains above with
  | true, true =>
    if 2 * (n % d) < d ∨ (2 * (n % d) = d ∧ n / d % 2 = 0) then some below else some above
  | true, false => some below
  | false, true => some above
  | false, false => none

/-- The shortest decimal that rounds to a positive number of a format. -/
def shortest (f : Format) (x : Finite) : Scaled :=
  ((List.range 17).findSome? fun i => gridPoint? f x (i + 1)).getD ⟨0, 0⟩

end Decimal
end Mediant
