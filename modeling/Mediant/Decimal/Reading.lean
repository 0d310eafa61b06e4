import Mediant.Binary64.Rounding
import Mediant.Decimal.Numeral
import Mediant.Text.CharacterClass

/-!
# Reading a number from a text

A number may be surrounded by blanks and may start with a sign.  It is one of the words `nan`,
`inf` and `infinity` in any case, or digits with at most one point among them and an optional
exponent.  A single underscore may stand between two digits.  Digits of every script count.

The value is the double nearest to the exact decimal, so a text with any number of digits is
rounded once.  A text without point, exponent and words can also be read as an exact integer, if
it has no more digits than a numeral may have; those it begins with are counted before anything
behind them is looked at.
-/

namespace Mediant
namespace Decimal

open Binary64 (ofMagnitude unitsPerOne)

/-- The digit or blank that a character counts as; all other characters stand for themselves. -/
def plainForm (c : Char) : Char :=
  if Text.isBlank c then ' '
  else match Text.digitValue? c with
    | some value => Nat.digitChar value
    | none => c

/-- The characters between the blanks at both ends. -/
def trimBlanks (cs : List Char) : List Char :=
  ((cs.dropWhile (· = ' ')).reverse.dropWhile (· = ' ')).reverse

/-- Removes the underscores between digits; `none` if one stands anywhere else.  The first
argument is the character before the list. -/
def joinDigits (before : Char) : List Char → Option (List Char)
  | [] => if before = '_' then none else some []
  | c :: rest =>
    if c = '_' then
      if before.isDigit then joinDigits '_' rest else none
    else if before = '_' && !c.isDigit then none
    else (joinDigits c rest).map (c :: ·)

/-- The number that a row of decimal digits denotes. -/
def digitsToNat (cs : List Char) : Nat :=
  cs.foldl (fun n c => 10 * n + (c.toNat - '0'.toNat)) 0

/-- Splits off a leading sign; true for a minus. -/
def splitSign : List Char → Bool × List Char
  | '-' :: rest => (true, rest)
  | '+' :: rest => (false, rest)
  | cs => (false, cs)

/-- The exponent behind the digits: nothing, or the letter `e`, a sign and at least one digit. -/
def readExponent : List Char → Option Int
  | [] => some 0
  | e :: rest =>
    let (negative, digits) := splitSign rest
    if (e = 'e' || e = 'E') && !digits.isEmpty && digits.all Char.isDigit then
      some (if negative then -(digitsToNat digits : Int) else digitsToNat digits)
    else none

/-- The double nearest to `m * 10 ^ exponent`.  Decimals far outside the range of doubles are
decided by their leading exponent alone. -/
def nearest (negative : Bool) (m : Nat) (exponent : Int) : Binary64 :=
  let leading := exponent + (Nat.toDigits 10 m).length
  if m = 0 ∨ leading < -400 then Binary64.zero negative
  else if leading > 400 then .infinity negative
  else ofMagnitude negative (m * powerOfTen exponent.toNat * unitsPerOne)
    (powerOfTen (-exponent).toNat)

/-- Digits with at most one point, and an exponent. -/
def readDigits (negative : Bool) (cs : List Char) : Option Binary64 := do
  let whole := cs.takeWhile Char.isDigit
  let afterWhole := cs.dropWhile Char.isDigit
  let tail := match afterWhole with
    | '.' :: rest => rest
    | _ => []
  let fraction := tail.takeWhile Char.isDigit
  let rest := match afterWhole with
    | '.' :: _ => tail.dropWhile Char.isDigit
    | _ => afterWhole
  let exponent ← readExponent rest
  if whole.isEmpty && fraction.isEmpty then none
  else some (nearest negative (digitsToNat (whole ++ fraction)) (exponent - fraction.length))

/-- A number without blanks and underscores. -/
def readNumber (cs : List Char) : Option Binary64 :=
  let (negative, body) := splitSign cs
  match String.ofList (body.map Char.toLower) with
  | "nan" => some .nan
  | "inf" => some (.infinity negative)
  | "infinity" => some (.infinity negative)
  | _ => readDigits negative body

/-- The characters of a number without blanks at the ends and underscores between digits. -/
def plainCharacters (s : String) : Option (List Char) :=
  joinDigits ' ' (trimBlanks (s.toList.map plainForm))

/-- The double that a text denotes, if it denotes one. -/
def read? (s : String) : Option Binary64 := (plainCharacters s).bind readNumber

/-- How many digits a text begins with, behind blanks and a sign.  None count if there is an
underscore among them that does not stand between two digits. -/
def leadingDigits (s : String) : Nat :=
  let (_, body) := splitSign (trimBlanks (s.toList.map plainForm))
  ((joinDigits ' ' (body.takeWhile fun c => c.isDigit || c = '_')).getD []).length

/-- The integer that a text denotes, if it is a sign and digits. -/
def readInteger? (s : String) : Option Int :=
  (plainCharacters s).bind fun cs =>
    let (negative, digits) := splitSign cs
    if digits.isEmpty || !digits.all Char.isDigit then none
    else some (if negative then -(digitsToNat digits : Int) else digitsToNat digits)

end Decimal
end Mediant
