import Mediant.Text.CharacterClass

/-!
# Quoted text

A text inside a message or inside a displayed sequence stands in quotes.  Single quotes are
preferred; a text that has a single quote and no double quote takes double quotes.  The quote in
use and the backslash are escaped, line feed, carriage return and tab have letters, and every
other character without a visible form is written by its code in hexadecimal, with two, four or
eight digits.
-/

namespace Mediant.Text

/-- The hexadecimal digits of a number, padded with zeros on the left. -/
def hexadecimal (width n : Nat) : List Char :=
  let digits := Nat.toDigits 16 n
  List.replicate (width - digits.length) '0' ++ digits

/-- The characters that stand for one character between the given quotes. -/
def escape (quote c : Char) : List Char :=
  if c = quote || c = '\\' then ['\\', c]
  else if c = '\n' then ['\\', 'n']
  else if c = '\r' then ['\\', 'r']
  else if c = '\t' then ['\\', 't']
  else if isVisible c then [c]
  else if c.toNat < 0x100 then '\\' :: 'x' :: hexadecimal 2 c.toNat
  else if c.toNat < 0x10000 then '\\' :: 'u' :: hexadecimal 4 c.toNat
  else '\\' :: 'U' :: hexadecimal 8 c.toNat

/-- The quote that a text is put in. -/
def quoteFor (cs : List Char) : Char :=
  if '\'' ∈ cs ∧ '"' ∉ cs then '"' else '\''

/-- The text in quotes. -/
def quoted (s : String) : String :=
  let quote := quoteFor s.toList
  String.ofList (quote :: s.toList.flatMap (escape quote) ++ [quote])

end Mediant.Text
