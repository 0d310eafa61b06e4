import Mediant.Binary64.Rounding

/-!
# Arithmetic on doubles

Sum, difference, product and quotient of finite doubles are the exact rational results, rounded
once.  The signs of exact zeros follow the usual rules: a sum of zeros is negative only if both
are, products and quotients multiply the signs.  Infinities and not-a-number propagate as they do
on any machine with such doubles.

Integers come in by `ofInt` and `quotient`, both correctly rounded for integers of any size.  Out
of a finite double they come by `floor`, `truncate` and `nearest`, which are exact.
-/

namespace Mediant
namespace Binary64

namespace Finite

/-- The greatest integer not above the value. -/
def floor (x : Finite) : Int := x.toRat.floor

/-- The integer part, rounded toward zero. -/
def truncate (x : Finite) : Int :=
  if x.toRat < 0 then -(-x.toRat).floor else x.toRat.floor

/-- The nearest integer, a tie going to the even one. -/
def nearest (x : Finite) : Int :=
  let magnitude : Int := roundHalfEven x.magnitude unitsPerOne
  if x.negative then -magnitude else magnitude

end Finite

/-- The sum, rounded once. -/
def add : Binary64 → Binary64 → Binary64
  | .nan, _ => .nan
  | _, .nan => .nan
  | .infinity s, .infinity t => if s = t then .infinity s else .nan
  | .infinity s, .finite _ => .infinity s
  | .finite _, .infinity t => .infinity t
  | .finite x, .finite y => rounded (x.toRat + y.toRat) (x.negative && y.negative)

/-- The difference, rounded once. -/
def sub (x y : Binary64) : Binary64 := add x y.neg

/-- The product, rounded once. -/
def mul : Binary64 → Binary64 → Binary64
  | .nan, _ => .nan
  | _, .nan => .nan
  | .infinity s, .infinity t => .infinity (s ^^ t)
  | .infinity s, .finite y => if y.isZero then .nan else .infinity (s ^^ y.negative)
  | .finite x, .infinity t => if x.isZero then .nan else .infinity (x.negative ^^ t)
  | .finite x, .finite y => rounded (x.toRat * y.toRat) (x.negative ^^ y.negative)

/-- The quotient, rounded once; a zero divisor gives an infinity, or not-a-number for `0 / 0`. -/
def div : Binary64 → Binary64 → Binary64
  | .nan, _ => .nan
  | _, .nan => .nan
  | .infinity _, .infinity _ => .nan
  | .infinity s, .finite y => .infinity (s ^^ y.negative)
  | .finite x, .infinity t => zero (x.negative ^^ t)
  | .finite x, .finite y =>
    if y.isZero then (if x.isZero then .nan else .infinity (x.negative ^^ y.negative))
    else rounded (x.toRat / y.toRat) (x.negative ^^ y.negative)

/-- The remainder of the division whose quotient is cut off toward zero.  It is exact: it is a
multiple of the smallest positive double that either number is counted in, and below both. -/
def remainder : Binary64 → Binary64 → Binary64
  | .finite x, .finite y =>
    if y.isZero then .nan else ofMagnitude x.negative (x.magnitude % y.magnitude) 1
  | .finite x, .infinity _ => .finite x
  | _, _ => .nan

/-- The double nearest to an integer; an infinity if the integer is beyond all doubles. -/
def ofInt (n : Int) : Binary64 := rounded n false

/-- The double nearest to the exact quotient of two integers, the second of which is not zero.
An infinity stands for a quotient beyond all doubles.  A zero numerator counts as positive, so the
quotient of zero by a negative integer is the negative zero. -/
def quotient (num denom : Int) : Binary64 :=
  rounded ((num : Rat) / (denom : Rat)) (decide (num < 0) ^^ decide (denom < 0))

/-- One. -/
def one : Binary64 := ofInt 1

end Binary64
end Mediant
