import Mediant.Fraction.Basic
import Mediant.Splitting
import Mediant.Tensor.Printing

/-!
# Values of any sort

The operations of this library can be handed a value of any sort, and say so if they have no use
for it.  `Value` is the type of all of them: nothing, truth values, integers, doubles, texts,
sequences that may be nested, fractions, split policies, arrays, and single entries of arrays.  A
truth value is a number too, namely zero or one.

A single entry of an array is a number that still has its type, and an array without axes acts as
its entry in arithmetic.  In comparisons, and where a truth value is needed, every array with
exactly one entry acts as that entry (`settled`), and other arrays are refused.

A not-a-number is equal to nothing, yet one and the same not-a-number can be met in two places,
and inside sequences that counts as equality.  One that may be met again therefore carries a mark
of its own (`undefined`); in all arithmetic it is the double `nan`.

A value has two written forms.  `shown` is how it stands inside a message; `display` is how it
stands inside a sequence, where texts are quoted and fractions name their fields.  A value that
holds an integer with too many digits has neither.
-/

namespace Mediant

/-- A value of any sort. -/
inductive Value where
  | nothing
  | boolean (b : Bool)
  | integer (n : Int)
  | double (x : Binary64)
  /-- A not-a-number of a format that can be told apart from others by its mark. -/
  | undefined (format : Binary64.Format) (mark : Nat)
  | text (s : String)
  | tuple (items : List Value)
  | list (items : List Value)
  | fraction (f : Fraction)
  | policy (p : Splitting)
  /-- A single entry of an array. -/
  | entry (e : Entry)
  | array (t : Tensor)

namespace Value

instance : Inhabited Value := ⟨.nothing⟩

mutual

/-- The form of a value inside a sequence. -/
def display : Value → Except Fault String
  | .nothing => return "None"
  | .boolean b => return if b then "True" else "False"
  | .integer n => integerText n
  | .double x => return x.text
  | .undefined .. => return Binary64.nan.text
  | .text s => return Text.quoted s
  | .tuple [x] => return "(" ++ (← display x) ++ ",)"
  | .tuple items => return "(" ++ (← displayItems items) ++ ")"
  | .list items => return "[" ++ (← displayItems items) ++ "]"
  | .fraction f => f.write Fraction.display
  | .policy p => return "<SplitPolicy." ++ p.name ++ ": " ++ Text.quoted p.label ++ ">"
  | .entry e => return e.text
  | .array t => return t.text

/-- The items of a sequence with commas between them. -/
def displayItems : List Value → Except Fault String
  | [] => return ""
  | [x] => display x
  | x :: rest => return (← display x) ++ ", " ++ (← displayItems rest)

end

/-- The form of a value inside a message. -/
def shown : Value → Except Fault String
  | .text s => return s
  | .fraction f => f.write Fraction.text
  | .policy p => return "SplitPolicy." ++ p.name
  | v => v.display

@[simp] theorem shown_integer (n : Int) : (integer n).shown = integerText n := by
  simp only [shown, display]

@[simp] theorem shown_double (x : Binary64) : (double x).shown = .ok x.text := by
  simp only [shown, display]
  rfl

/-- The integer that a value is, if it is an integer or a truth value. -/
def integer? : Value → Option Int
  | .integer n => some n
  | .boolean b => some b.toInt
  | .entry e => e.integer?
  | .array t => t.scalar?.bind Entry.integer?
  | _ => none

/-- The double that a value is, if it is one. -/
def double? : Value → Option Binary64
  | .double x => some x
  | .undefined .. => some .nan
  | .entry e => e.double?
  | .array t => t.scalar?.bind Entry.double?
  | _ => none

/-- The exact number that a value is, if it is an integer, a truth value or a double. -/
def number? (v : Value) : Option Extended :=
  match v.double? with
  | some x => some x.toExtended
  | none => v.integer?.map Extended.ofInt

/-- Whether two values are one and the same not-a-number. -/
def sameMark : Value → Value → Bool
  | .undefined _ m, .undefined _ n => m = n
  | _, _ => false

/-- A value as comparisons see it: an array is its only entry. -/
def settled : Value → Except Fault Value
  | .array t => t.only.map .entry
  | v => .ok v

/-- Whether a value counts as true: every value except nothing, zeros and empty sequences. -/
def truth : Value → Except Fault Bool
  | .nothing => .ok false
  | .boolean b => .ok b
  | .integer n => .ok (n ≠ 0)
  | .double x => .ok !x.isZero
  | .undefined .. => .ok true
  | .text s => .ok !s.isEmpty
  | .tuple items => .ok !items.isEmpty
  | .list items => .ok !items.isEmpty
  | .fraction _ => .ok true
  | .policy _ => .ok true
  | .entry e => .ok !e.nearest.isZero
  | .array t => t.only.map fun e => !e.nearest.isZero

end Value
end Mediant
