import Mediant.Decimal.Shortest

/-!
# The text of a double

A double is written with the shortest digits that read back to it.  Decimal exponents from `-4`
to `15` are written positionally, always with a fractional part, as in `0.0001` or `100000.0`;
all others in exponent form with one digit before the point and an exponent of at least two
digits, as in `1e-15` or `9.223372036854776e+18`.
-/

namespace Mediant
namespace Decimal

/-- The exponents that are written positionally, and the least width of the others. -/
structure Style where
  firstPositional : Int
  lastPositional : Int
  exponentWidth : Nat

/-- The style of all doubles in this library's output. -/
def style : Style := ⟨-4, 15, 2⟩

/-- The digits of a number without the zeros at its end. -/
def significantDigits (n : Nat) : List Char :=
  ((Nat.toDigits 10 n).reverse.dropWhile (· = '0')).reverse

/-- Digits with a decimal point after the given number of them. -/
def positional (digits : List Char) (exponent : Int) : List Char :=
  if exponent < 0 then
    '0' :: '.' :: (List.replicate (-exponent - 1).toNat '0' ++ digits)
  else
    let whole := exponent.toNat + 1
    let fraction := digits.drop whole
    digits.take whole ++ List.replicate (whole - digits.length) '0' ++
      '.' :: (if fraction.isEmpty then ['0'] else fraction)

/-- An exponent behind its letter: a sign, and digits that are filled up with zeros to the given
width. -/
def exponentText (width : Nat) (exponent : Int) : List Char :=
  let digits := Nat.toDigits 10 exponent.natAbs
  'e' :: (if exponent < 0 then '-' else '+') ::
    (List.replicate (width - digits.length) '0' ++ digits)

/-- Digits with the point after the first of them, and the exponent behind. -/
def scientific (style : Style) (digits : List Char) (exponent : Int) : List Char :=
  let fraction := digits.drop 1
  digits.take 1 ++ (if fraction.isEmpty then [] else '.' :: fraction) ++
    exponentText style.exponentWidth exponent

/-- A decimal in the given style. -/
def Scaled.write (style : Style) (c : Scaled) : List Char :=
  let digits := significantDigits c.digits
  let exponent := c.exponent + (Nat.toDigits 10 c.digits).length - 1
  if style.firstPositional ≤ exponent ∧ exponent ≤ style.lastPositional then
    positional digits exponent
  else scientific style digits exponent

end Decimal

/-- The text of a double. -/
def Binary64.text : Binary64 → String
  | .nan => "nan"
  | .infinity negative => if negative then "-inf" else "inf"
  | .finite x =>
    let magnitude := if x.isZero then ['0', '.', '0']
      else (Decimal.shortest .double x).write Decimal.style
    String.ofList (if x.negative then '-' :: magnitude else magnitude)

end Mediant
