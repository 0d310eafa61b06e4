import Mediant.Value.Number

/-!
# Values as entries of arrays

Putting a value into an array turns it into an entry of the array's type: into its truth value,
into its integer part, wrapped around if the type is too narrow for it, or into the nearest number
of the type's format.  Taken out again, an entry is a number that still has its type; `plain` is
the number without it.
-/

namespace Mediant

/-- The value as an entry of the type. -/
def EntryType.store (type : EntryType) (v : Value) : Except Fault Entry :=
  match type with
  | .truth => v.truth.map .truth
  | .integer width signed => v.toInteger.map fun n => .integer (wrap width signed n)
  | .real format => v.toDouble.map fun x => .real format (x.narrow format)

/-- The number that an entry is, without its type. -/
def Entry.plain : Entry → Value
  | .truth b => .boolean b
  | .integer n => .integer n
  | .real _ x => .double x

end Mediant
