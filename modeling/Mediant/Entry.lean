import Mediant.Binary64.Arithmetic
import Mediant.Binary64.Narrowing

/-!
# Entries of arrays

An array holds entries of one type: truth values, integers of some width with or without a sign,
or numbers of a binary format.  `EntryType` names the type.  `Entry` is a single entry, which
remembers what it needs of its type: a number of a narrow format is a double that has been rounded
to that format, and it keeps the format.

Computations can also be compiled, and arrays in compiled form have no types of 64 bits.
`EntryType.compiled` is the type that takes the place of another one there.
-/

namespace Mediant

/-- The type of the entries of an array. -/
inductive EntryType where
  | truth
  | integer (width : Nat) (signed : Bool)
  | real (format : Binary64.Format)
deriving DecidableEq

namespace EntryType

/-- The integer of a width that differs from the given one by a multiple of `2 ^ width`. -/
def wrap (width : Nat) (signed : Bool) (n : Int) : Int :=
  if signed then n.bmod (1 <<< width) else n % (1 <<< width : Nat)

/-- The type that holds such entries in compiled form. -/
def compiled : EntryType → EntryType
  | truth => truth
  | integer width signed => integer (min width 32) signed
  | real format => real (if format = .double then .single else format)

end EntryType

/-- An entry of an array. -/
inductive Entry where
  | truth (b : Bool)
  | integer (n : Int)
  | real (format : Binary64.Format) (x : Binary64)
deriving DecidableEq

namespace Entry

instance : Inhabited Entry := ⟨.truth false⟩

/-- The integer that an entry is, if it is an integer or a truth value. -/
def integer? : Entry → Option Int
  | truth b => some b.toInt
  | integer n => some n
  | real .. => none

/-- The double that an entry is, if it is a number of a binary format. -/
def double? : Entry → Option Binary64
  | real _ x => some x
  | _ => none

/-- The double nearest to an entry. -/
def nearest : Entry → Binary64
  | truth b => .ofInt b.toInt
  | integer n => .ofInt n
  | real _ x => x

/-- The exact number that an entry is. -/
def number : Entry → Extended
  | truth b => .ofInt b.toInt
  | integer n => .ofInt n
  | real _ x => x.toExtended

/-- The absolute value of an entry. -/
def abs : Entry → Entry
  | truth b => truth b
  | integer n => integer n.natAbs
  | real format x => real format x.abs

end Entry
end Mediant
