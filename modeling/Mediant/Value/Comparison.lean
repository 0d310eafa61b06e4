import Mediant.Fraction.Order
import Mediant.Value.Basic

/-!
# Comparing values

Any two values can be tested for equality, and values of different sorts are unequal.  Numbers are
equal if they are exactly the same number.  Fractions are equal to fractions and integers of the
same value and to doubles within a tolerance, and to nothing else.  Sequences of the same sort are
equal if their items are; there, one and the same not-a-number counts as equal to itself, although
it is not when the two are compared on their own.

Entries of arrays are compared in the type that both numbers are brought to (`facing`): a plain
number next to an entry is rounded to the format of the entry, and an integer entry next to a
double is rounded to a double.

The order is not defined everywhere.  Numbers are ordered exactly, fractions as the rational
numbers that they are, texts by their characters, and sequences of the same sort by the first
items in which they differ, a proper beginning being less.  A fraction next to a tuple is taken as
the tuple of its two fields.  All other pairs are refused.

A comparison can fail in an item: a fraction beyond the range of doubles cannot be compared with
a double, not even for equality.  `firstDifference` therefore works on the verdicts about the
items, and stops at the first one that fails or decides.
-/

namespace Mediant
namespace Value

/-- The verdicts on two items: whether they are equal, and whether they stand in the relation. -/
structure Verdict where
  equal : Except Fault Bool
  ordered : Except Fault Bool

/-- The order of two sequences from the verdicts on their items at the same places, and from
their lengths, which decide if all these items are equal. -/
def firstDifference (byLength : Bool) : List Verdict → Except Fault Bool
  | [] => .ok byLength
  | v :: rest => do
    if ← v.equal then firstDifference byLength rest else v.ordered

/-- The double nearest to a number. -/
def nearest? (v : Value) : Option Binary64 :=
  match v.double? with
  | some x => some x
  | none => v.integer?.map Binary64.ofInt

/-- The exact number that a value stands for next to another one. -/
def facing (v other : Value) : Option Extended :=
  match v, other with
  | .entry (.integer n), other =>
    some (if other.double?.isSome then (Binary64.ofInt n).toExtended else .ofInt n)
  | .entry e, _ => some e.number
  | v, .entry (.real f _) => v.nearest?.map fun x => (x.narrow f).toExtended
  | v, _ => v.number?

/-- Equality of a fraction with a value. -/
def equalsFraction (f : Fraction) : Value → Except Fault Bool
  | .fraction g => .ok (f.equals g)
  | v =>
    match v.double?, v.integer? with
    | some x, _ => f.equalsDouble x
    | none, some n => .ok (f.equals (.ofInt n))
    | none, none => .ok false

/-- Equality of two values that are no sequences and no arrays. -/
def equalsSettled : Value → Value → Except Fault Bool
  | .fraction f, v => equalsFraction f v
  | v, .fraction f => equalsFraction f v
  | .nothing, .nothing => .ok true
  | .text s, .text t => .ok (s = t)
  | .policy p, .policy q => .ok (p = q)
  | v, w =>
    match v.facing w, w.facing v with
    | some x, some y => .ok (x.eq y)
    | _, _ => .ok false

/-- Equality of two values that are no sequences. -/
def equalsSimple (v w : Value) : Except Fault Bool := do
  equalsSettled (← v.settled) (← w.settled)

mutual

/-- Equality of two values. -/
def equals : Value → Value → Except Fault Bool
  | .tuple xs, .tuple ys => equalsItems xs ys
  | .list xs, .list ys => if xs.length = ys.length then equalsItems xs ys else .ok false
  | v, w => equalsSimple v w

/-- Equality of two sequences, item by item; lengths count once the shorter one is used up. -/
def equalsItems : List Value → List Value → Except Fault Bool
  | [], [] => .ok true
  | x :: xs, y :: ys => do
    if x.sameMark y then equalsItems xs ys
    else if ← equals x y then equalsItems xs ys
    else return false
  | _, _ => .ok false

end

/-- Whether a fraction stands in a relation to a value. -/
def holdsFraction (r : Relation) (f : Fraction) : Value → Except Fault Bool
  | .fraction g => .ok (f.holds r g)
  | v =>
    match v.double?, v.integer? with
    | some x, _ => f.holdsDouble r x
    | none, some n => .ok (f.holds r (.ofInt n))
    | none, none => .error .wrongType

/-- Whether two values that are no sequences and no arrays stand in a relation. -/
def holdsSettled (r : Relation) : Value → Value → Except Fault Bool
  | .fraction f, v => holdsFraction r f v
  | v, .fraction f => holdsFraction r.flip f v
  | .text s, .text t =>
    .ok (match r with
      | .less => s < t
      | .atMost => !(t < s)
      | .more => t < s
      | .atLeast => !(s < t))
  | v, w =>
    match v.facing w, w.facing v with
    | some x, some y => .ok (r.holdsExact x y)
    | _, _ => .error .wrongType

/-- Whether two values that are no sequences stand in a relation. -/
def holdsSimple (r : Relation) (v w : Value) : Except Fault Bool := do
  holdsSettled r (← v.settled) (← w.settled)

/-- The verdicts on two rows of values that are no sequences. -/
def simpleVerdicts (r : Relation) (xs ys : List Value) : List Verdict :=
  List.zipWith (fun x y => ⟨equalsSimple x y, holdsSimple r x y⟩) xs ys

/-- The fields of a fraction as a row of integers. -/
def fields (f : Fraction) : List Value := [.integer f.num, .integer f.denom]

/-- Whether the lengths of two rows stand in a relation. -/
def holdsLength (r : Relation) (xs ys : List Value) : Bool := r.holdsInt xs.length ys.length

mutual

/-- Whether two values stand in a relation. -/
def holds (r : Relation) : Value → Value → Except Fault Bool
  | .tuple xs, .tuple ys => firstDifference (holdsLength r xs ys) (verdicts r xs ys)
  | .list xs, .list ys => firstDifference (holdsLength r xs ys) (verdicts r xs ys)
  | .fraction f, .tuple ys =>
    firstDifference (holdsLength r (fields f) ys) (simpleVerdicts r (fields f) ys)
  | .tuple xs, .fraction g =>
    firstDifference (holdsLength r xs (fields g)) (simpleVerdicts r xs (fields g))
  | v, w => holdsSimple r v w

/-- The verdicts on the items of two sequences. -/
def verdicts (r : Relation) : List Value → List Value → List Verdict
  | x :: xs, y :: ys =>
    ⟨if x.sameMark y then .ok true else equals x y, holds r x y⟩ :: verdicts r xs ys
  | _, _ => []

end

/-- The six comparisons of two values. -/
structure Comparison where
  equal : Except Fault Bool
  unequal : Except Fault Bool
  less : Except Fault Bool
  atMost : Except Fault Bool
  more : Except Fault Bool
  atLeast : Except Fault Bool

/-- Compares two values in all ways. -/
def compare (v w : Value) : Comparison where
  equal := v.equals w
  unequal := (v.equals w).map not
  less := v.holds .less w
  atMost := v.holds .atMost w
  more := v.holds .more w
  atLeast := v.holds .atLeast w

end Value
end Mediant
