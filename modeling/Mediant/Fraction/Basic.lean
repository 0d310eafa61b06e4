import Mediant.Conversion
import Mediant.Reduction

/-!
# Fractions

A fraction is a pair of integers whose second is not zero.  The pair is kept as given: it need
not be in lowest terms, and the sign may be in either place.  `reduced` gives the lowest terms.

The value of a fraction is the double nearest to the exact quotient, for integers of any size; a
quotient beyond the range of doubles has no value.
-/

namespace Mediant

/-- A numerator over a nonzero denominator. -/
structure Fraction where
  num : Int
  denom : Int
  denom_ne_zero : denom ≠ 0
deriving DecidableEq

namespace Fraction

/-- The fraction with the given fields; a denominator of zero is refused. -/
def ofPair (num denom : Int) : Except Fault Fraction :=
  if h : denom = 0 then do throw (.zeroDenominator (← integerText num) (← integerText denom))
  else .ok ⟨num, denom, h⟩

/-- An integer as a fraction over one. -/
def ofInt (n : Int) : Fraction := ⟨n, 1, Int.one_ne_zero⟩

/-- Numerator and denominator in lowest terms. -/
def lowestTerms (f : Fraction) : Int × Int := Mediant.lowestTerms f.num f.denom

/-- The fraction in lowest terms, with a positive denominator. -/
def reduced (f : Fraction) : Fraction :=
  ⟨f.lowestTerms.1, f.lowestTerms.2,
    Int.ne_of_gt (lowestTerms_denom_pos f.num f.denom_ne_zero)⟩

/-- The negated fraction; the denominator stays as it is. -/
def neg (f : Fraction) : Fraction := { f with num := -f.num }

/-- The fraction of the absolute values. -/
def abs (f : Fraction) : Fraction :=
  ⟨f.num.natAbs, f.denom.natAbs, by have := f.denom_ne_zero; omega⟩

/-- The nearest double; a quotient beyond the range of doubles is refused. -/
def value (f : Fraction) : Except Fault Binary64 :=
  (Binary64.quotient f.num f.denom).orFault .quotientTooLarge

/-- The exact rational that a fraction denotes. -/
def toRat (f : Fraction) : Rat := (f.num : Rat) / (f.denom : Rat)

/-- Whether the numerals of both fields keep to the limit.  The texts of other fractions are never
asked for. -/
def isShort (f : Fraction) : Bool := Decimal.isShort f.num && Decimal.isShort f.denom

/-- How a fraction is written: numerator and denominator as stored, and the numerator alone over a
denominator of one. -/
def text (f : Fraction) : String :=
  if f.denom = 1 then toString f.num else toString f.num ++ "/" ++ toString f.denom

/-- How a fraction is displayed among other values. -/
def display (f : Fraction) : String :=
  "Fraction(" ++ toString f.num ++ ", " ++ toString f.denom ++ ")"

/-- The text of a fraction in one of its forms. -/
def write (f : Fraction) (form : Fraction → String) : Except Fault String :=
  if f.isShort then .ok (form f) else .error .integerTooLong

end Fraction
end Mediant
