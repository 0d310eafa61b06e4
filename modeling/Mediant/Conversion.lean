import Mediant.Binary64.Arithmetic
import Mediant.Fault

/-!
# Conversions that can fail

An integer becomes the text of its digits unless it has too many of them, and a numeral with too
many digits is not read.

An integer becomes the nearest double unless it lies beyond all doubles.  A double becomes an
integer by dropping its fractional part, by going down to the next integer, or by going to the
nearest one; an infinity and a not-a-number become none, and going to the nearest integer has a
fault of its own for them.  Division of doubles refuses a zero divisor.
-/

namespace Mediant
namespace Binary64

/-- The double itself if it is finite; any other one gives the fault. -/
def orFault (fault : Fault) : Binary64 → Except Fault Binary64
  | .finite x => .ok (.finite x)
  | _ => .error fault

@[simp] theorem orFault_finite (fault : Fault) (x : Finite) :
    orFault fault (.finite x) = .ok (.finite x) := rfl

@[simp] theorem orFault_infinity (fault : Fault) (negative : Bool) :
    orFault fault (.infinity negative) = .error fault := rfl

/-- Applies a way of rounding to an integer to a finite double. -/
def toInteger (round : Finite → Int) : Binary64 → Except Fault Int
  | .nan => .error .integerOfNan
  | .infinity _ => .error .integerOfInfinity
  | .finite x => .ok (round x)

/-- The integer nearest to a double, a tie going to the even one. -/
def toNearest : Binary64 → Except Fault Int
  | .finite x => .ok x.nearest
  | x => .error (.nonFiniteInteger x)

/-- The quotient of two doubles; a divisor of zero is refused. -/
def divide (x y : Binary64) : Except Fault Binary64 :=
  if y.isZero then .error .divisionByZero else .ok (x.div y)

end Binary64

/-- The text of an integer. -/
def integerText (n : Int) : Except Fault String :=
  if Decimal.isShort n then .ok (toString n) else .error .integerTooLong

/-- The double nearest to an integer; integers beyond the range of doubles are refused. -/
def toDouble (n : Int) : Except Fault Binary64 := (Binary64.ofInt n).orFault .integerTooLarge

end Mediant
