import Mediant.Binary64.Rounding

/-!
# Rounding a double to a binary format

Numbers of narrower binary formats are doubles with fewer bits in the significand and a smaller
range.  A format is given by the number of significand bits and by the least and the greatest
scale, in units, that its significands come with.  `narrow` rounds a double to the nearest number
of a format, ties to even; below the least scale the result is subnormal in that format, and
beyond its greatest number the result is an infinity.  The format of doubles is one of the formats,
and rounding to it changes nothing.
-/

namespace Mediant
namespace Binary64

/-- A binary format whose numbers are doubles. -/
structure Format where
  bits : Nat
  leastScale : Nat
  greatestScale : Nat
deriving DecidableEq

namespace Format

/-- Numbers of 64 bits: whole multiples of `2 ^ (-1074)`, below `2 ^ 1024`. -/
def double : Format := ⟨53, 0, 2045⟩

/-- Numbers of 32 bits: whole multiples of `2 ^ (-149)`, below `2 ^ 128`. -/
def single : Format := ⟨24, 925, 1178⟩

/-- Numbers of 16 bits: whole multiples of `2 ^ (-24)`, below `2 ^ 16`. -/
def half : Format := ⟨11, 1050, 1079⟩

/-- The scale of the numbers of a format next to a magnitude: the gap between two of them is two
to this power, in units. -/
def scaleAt (f : Format) (magnitude : Nat) : Nat :=
  max (Nat.log2 magnitude - (f.bits - 1)) f.leastScale

/-- How many decimal digits a format can always tell apart behind the first one. -/
def decimals (f : Format) : Nat := (Nat.toDigits 10 (1 <<< (f.bits - 1))).length - 1

end Format

/-- The nearest number of a format. -/
def narrow (f : Format) : Binary64 → Binary64
  | .finite x =>
    let scale := f.scaleAt x.magnitude
    let magnitude := roundHalfEven x.magnitude (1 <<< scale) <<< scale
    if magnitude < 1 <<< (f.bits + f.greatestScale) then ofMagnitude x.negative magnitude 1
    else .infinity x.negative
  | x => x

end Binary64
end Mediant
