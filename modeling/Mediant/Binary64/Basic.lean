import Mediant.Extended

/-!
# Doubles as exact data

A double is not-a-number, an infinity, or a finite value.  A finite value is stored by the three
numbers that its bit pattern encodes: a sign, a significand below `2 ^ 53`, and a scale, which
counts powers of two above the smallest positive double.  All finite doubles are thus whole
multiples of one *unit*, `2 ^ (-1074)`:

`value = ± significand * 2 ^ scale * 2 ^ (-1074)`.

Products with powers of two are written as shifts to the left, and the two powers of two that
bound significands as numerals: `0x10000000000000` is `2 ^ 52` and `0x20000000000000` is `2 ^ 53`.

The invariants in `Finite` make the representation unique: a scale above zero comes with a
significand that has all 53 bits.  Scale zero holds the subnormal values, the two zeros and the
lowest normal binade.

`Finite.toRat` is the exact rational that a finite double denotes, and `toExtended` extends it to
all doubles.  Comparisons are comparisons of these exact values.
-/

namespace Mediant
namespace Binary64

/-- How many units, that is smallest positive doubles, make one. -/
def unitsPerOne : Nat := 1 <<< 1074

/-- A finite double: sign, significand, and the power of two that scales it, in units. -/
structure Finite where
  negative : Bool
  significand : Nat
  scale : Nat
  significand_lt : significand < 0x20000000000000 := by decide
  scale_le : scale ≤ 2045 := by decide
  normal : scale = 0 ∨ 0x10000000000000 ≤ significand := by decide
deriving DecidableEq

namespace Finite

/-- The absolute value, counted in units. -/
def magnitude (x : Finite) : Nat := x.significand <<< x.scale

/-- The signed value, counted in units. -/
def units (x : Finite) : Int := if x.negative then -(x.magnitude : Int) else x.magnitude

/-- The rational number that a finite double denotes. -/
def toRat (x : Finite) : Rat := mkRat x.units unitsPerOne

/-- The value with its sign bit turned over. -/
def neg (x : Finite) : Finite := { x with negative := !x.negative }

/-- The value with its sign bit cleared. -/
def abs (x : Finite) : Finite := { x with negative := false }

/-- The zero of either sign. -/
def zero (negative : Bool) : Finite := { negative, significand := 0, scale := 0 }

/-- Zero of either sign. -/
def isZero (x : Finite) : Bool := x.significand = 0

@[simp] theorem units_neg (x : Finite) : x.neg.units = -x.units := by
  cases h : x.negative <;> simp [neg, units, magnitude, h]

@[simp] theorem units_abs (x : Finite) : x.abs.units = x.magnitude := by
  simp [abs, units, magnitude]

@[simp] theorem units_zero (negative : Bool) : (zero negative).units = 0 := by
  cases negative <;> simp [zero, units, magnitude]

end Finite
end Binary64

/-- A double of 64 bits; all bit patterns of not-a-number are one value. -/
inductive Binary64 where
  | nan
  | infinity (negative : Bool)
  | finite (x : Binary64.Finite)
deriving DecidableEq

namespace Binary64

instance : Inhabited Binary64 := ⟨.nan⟩

/-- Zero with the given sign. -/
def zero (negative : Bool) : Binary64 := .finite (Finite.zero negative)

/-- The exact value of a double. -/
def toExtended : Binary64 → Extended
  | .nan => .undefined
  | .infinity true => .bottom
  | .infinity false => .top
  | .finite x => .rational x.toRat

/-- Whether the double is a number other than an infinity. -/
def isFinite : Binary64 → Bool
  | .finite _ => true
  | _ => false

/-- Whether the double is a zero of either sign. -/
def isZero : Binary64 → Bool
  | .finite x => x.isZero
  | _ => false

/-- The double with its sign bit turned over. -/
def neg : Binary64 → Binary64
  | .nan => .nan
  | .infinity s => .infinity !s
  | .finite x => .finite x.neg

/-- The double with its sign bit cleared. -/
def abs : Binary64 → Binary64
  | .nan => .nan
  | .infinity _ => .infinity false
  | .finite x => .finite x.abs

/-- Numeric `<`; false when a side is not a number. -/
def lt (x y : Binary64) : Bool := x.toExtended.lt y.toExtended

/-- Numeric `≤`; false when a side is not a number. -/
def le (x y : Binary64) : Bool := x.toExtended.le y.toExtended

@[simp] theorem lt_finite (x y : Finite) :
    lt (.finite x) (.finite y) = decide (x.toRat < y.toRat) := rfl

@[simp] theorem le_finite (x y : Finite) :
    le (.finite x) (.finite y) = decide (x.toRat ≤ y.toRat) := by simp [le, toExtended]

@[simp] theorem neg_neg (x : Binary64) : x.neg.neg = x := by
  cases x with
  | nan => rfl
  | infinity s => simp [neg]
  | finite x => simp [neg, Finite.neg]

end Binary64
end Mediant
