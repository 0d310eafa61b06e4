import Mediant.Decimal.Printing
import Mediant.Tensor

/-!
# Entries in columns

Inside the text of an array all entries are written with the same width.  Integers and truth values
are padded on the left.  Numbers of a binary format are written in one form, either all positional
or all with exponents, and are aligned at the point; they show at most eight digits behind it, and
none if there are none to show.  Positional numbers are filled up with blanks on the right, numbers
with exponents with zeros.  Infinities and not-a-numbers go to the right end of their column.

Exponents are used if a number is too large for its format to be exact about its last digits, if
one is small, or if the largest is more than a thousand times the least one; zeros do not count.
-/

namespace Mediant

open Binary64 (Finite Format unitsPerOne)
open Decimal (exponentText powerOfTen significantDigits)

/-- How an entry is written on its own. -/
def Entry.text : Entry → String
  | truth b => if b then "True" else "False"
  | integer n => toString n
  | real _ x => x.text

namespace Columns

/-! ## Columns -/

/-- A row of blanks. -/
def blanks (n : Nat) : List Char := List.replicate n ' '

/-- The characters moved to the right end of a column. -/
def padLeft (width : Nat) (cs : List Char) : List Char := blanks (width - cs.length) ++ cs

/-- The characters with others of one kind behind them, up to the given width. -/
def padRight (filler : Char) (width : Nat) (cs : List Char) : List Char :=
  cs ++ List.replicate (width - cs.length) filler

/-- The characters without those of one kind at the end. -/
def trimRight (filler : Char) (cs : List Char) : List Char :=
  (cs.reverse.dropWhile (· = filler)).reverse

/-- The width of the widest of some texts. -/
def widest (texts : List (List Char)) : Nat := texts.foldl (fun n cs => max n cs.length) 0

/-! ## Numbers in parts -/

/-- A number in parts: its sign and the digits before the point, the digits behind it, and the
exponent, which is missing in positional form. -/
structure Parts where
  whole : List Char
  fraction : List Char
  exponent : Option Int

/-- How many digits behind the point are shown at most. -/
def places : Nat := 8

/-- A number times `10 ^ places`: its shortest decimal if that has no more places, and the nearest
decimal otherwise. -/
def fixedPoint (f : Format) (x : Finite) : Nat :=
  if x.isZero then 0
  else
    let c := Decimal.shortest f x
    let shift := c.exponent + places
    if 0 ≤ shift then c.digits * powerOfTen shift.toNat
    else roundHalfEven (x.magnitude * powerOfTen places) unitsPerOne

/-- The first digits of a number without zeros at the end, at most one more than there are places,
and the exponent of the first digit. -/
def leadingDigits (f : Format) (x : Finite) : List Char × Int :=
  if x.isZero then (['0'], 0)
  else
    let c := Decimal.shortest f x
    let digits := significantDigits c.digits
    let exponent := c.exponent + (Nat.toDigits 10 c.digits).length - 1
    if digits.length ≤ places + 1 then (digits, exponent)
    else
      let shift := (places : Int) - exponent
      let n := roundHalfEven (x.magnitude * powerOfTen shift.toNat)
        (unitsPerOne * powerOfTen (-shift).toNat)
      (significantDigits n, exponent + (Nat.toDigits 10 n).length - (places + 1 : Nat))

/-- Puts the sign before the digits of a number. -/
def withSign (x : Finite) (digits : List Char) : List Char :=
  if x.negative then '-' :: digits else digits

/-- A number in positional form. -/
def positional (f : Format) (x : Finite) : Parts :=
  let n := fixedPoint f x
  let rest := Nat.toDigits 10 (n % powerOfTen places)
  { whole := withSign x (Nat.toDigits 10 (n / powerOfTen places))
    fraction := trimRight '0' (List.replicate (places - rest.length) '0' ++ rest)
    exponent := none }

/-- A number with an exponent. -/
def scientific (f : Format) (x : Finite) : Parts :=
  let (digits, exponent) := leadingDigits f x
  { whole := withSign x (digits.take 1)
    fraction := digits.drop 1
    exponent := some exponent }

/-- Whether the finite numbers of an array are written with exponents. -/
def needsExponents (f : Format) (xs : List Finite) : Bool :=
  match (xs.filter (!·.isZero)).map fun x => Binary64.finite x.abs with
  | [] => false
  | x :: rest =>
    let greatest := rest.foldl (fun a b => if a.lt b then b else a) x
    let least := rest.foldl (fun a b => if b.lt a then b else a) x
    (Binary64.ofInt (powerOfTen (min places f.decimals))).le greatest ||
      least.lt ((Binary64.quotient 1 10000).narrow f) ||
      (Binary64.ofInt 1000).lt ((greatest.div least).narrow f)

/-! ## Words -/

/-- The widths of the parts of the numbers in a column; that of the exponents counts their letter
and sign. -/
structure Widths where
  whole : Nat
  fraction : Nat
  exponent : Nat

/-- The widths that some numbers need. -/
def Widths.of (parts : List Parts) : Widths where
  whole := widest (parts.map (·.whole))
  fraction := widest (parts.map (·.fraction))
  exponent := widest (parts.filterMap fun p =>
    p.exponent.map (exponentText Decimal.style.exponentWidth))

/-- The width from the point on. -/
def Widths.tail (w : Widths) : Nat := 1 + w.fraction + w.exponent

/-- A number in a column. -/
def Parts.word (w : Widths) (p : Parts) : List Char :=
  padLeft w.whole p.whole ++ '.' ::
    match p.exponent with
    | none => padRight ' ' w.fraction p.fraction
    | some exponent =>
      padRight '0' w.fraction p.fraction ++ exponentText (w.exponent - 2) exponent

/-- The finite number that a double is, if it is one. -/
def finite? : Binary64 → Option Finite
  | .finite x => some x
  | _ => none

/-- Numbers of a binary format in a column. -/
def realWords (f : Format) (xs : List Binary64) : List (List Char) :=
  let finite := xs.filterMap finite?
  let inParts := if needsExponents f finite then scientific f else positional f
  let w := Widths.of (finite.map inParts)
  let least := if xs.contains (.infinity true) then 4 else 3
  let w := if finite.length = xs.length then w
    else { w with whole := max w.whole (least - w.tail) }
  xs.map fun
    | .finite x => (inParts x).word w
    | x => padLeft (w.whole + w.tail) x.text.toList

/-- Entries of one type in a column. -/
def words (entries : List Entry) : List (List Char) :=
  match entries with
  | .real f _ :: _ => realWords f (entries.map Entry.nearest)
  | .truth _ :: _ => entries.map fun e => padLeft 5 e.text.toList
  | _ =>
    let texts := entries.map fun e => e.text.toList
    texts.map (padLeft (widest texts))

end Columns
end Mediant
