import Mediant.Fraction.Basic

/-!
# Equality and order of fractions

Two fractions are equal if they have the same lowest terms.  Their order is that of the cross
products of the lowest terms, whose denominators are positive.  An integer takes part as a
fraction over one.

Against a double, a fraction counts by its own value rounded to a double.  It is equal to the
double if the two differ by less than `tolerance`, and its order against the double is that of
the two doubles.  A fraction whose value is beyond the range of doubles cannot be compared with a
double at all.
-/

namespace Mediant

/-- The four relations of an order. -/
inductive Relation where
  | less
  | atMost
  | more
  | atLeast
deriving DecidableEq

namespace Relation

/-- The relation read from right to left. -/
def flip : Relation → Relation
  | less => more
  | atMost => atLeast
  | more => less
  | atLeast => atMost

/-- Whether two integers stand in the relation. -/
def holdsInt : Relation → Int → Int → Bool
  | less, x, y => x < y
  | atMost, x, y => x ≤ y
  | more, x, y => y < x
  | atLeast, x, y => y ≤ x

/-- Whether two exact numbers stand in the relation. -/
def holdsExact : Relation → Extended → Extended → Bool
  | less, x, y => x.lt y
  | atMost, x, y => x.le y
  | more, x, y => y.lt x
  | atLeast, x, y => y.le x

@[simp] theorem flip_flip (r : Relation) : r.flip.flip = r := by cases r <;> rfl

theorem holdsInt_flip (r : Relation) (x y : Int) : r.flip.holdsInt x y = r.holdsInt y x := by
  cases r <;> rfl

theorem holdsExact_flip (r : Relation) (x y : Extended) :
    r.flip.holdsExact x y = r.holdsExact y x := by
  cases r <;> rfl

end Relation

namespace Fraction

/-- Differences below this, about five units in the last place of one, count as equality with a
double: the double nearest to `10 ^ (-15)`. -/
def tolerance : Binary64 := Binary64.quotient 1 1000000000000000

/-- Equality of the rational numbers that two fractions denote. -/
def equals (f g : Fraction) : Bool := f.lowestTerms = g.lowestTerms

/-- The numerators of two fractions over the product of their denominators in lowest terms. -/
def cross (f g : Fraction) : Int × Int :=
  (f.lowestTerms.1 * g.lowestTerms.2, g.lowestTerms.1 * f.lowestTerms.2)

/-- Whether two fractions stand in a relation. -/
def holds (r : Relation) (f g : Fraction) : Bool := r.holdsInt (f.cross g).1 (f.cross g).2

/-- Whether the value of a fraction is within the tolerance of a double. -/
def equalsDouble (f : Fraction) (x : Binary64) : Except Fault Bool := do
  let value ← f.value
  return (value.sub x).abs.lt tolerance

/-- Whether the value of a fraction stands in a relation to a double. -/
def holdsDouble (r : Relation) (f : Fraction) (x : Binary64) : Except Fault Bool := do
  let value ← f.value
  return r.holdsExact value.toExtended x.toExtended

theorem equals_comm (f g : Fraction) : f.equals g = g.equals f := by
  simp only [equals, eq_comm]

theorem holds_flip (r : Relation) (f g : Fraction) : holds r.flip f g = holds r g f := by
  rw [holds, holds, Relation.holdsInt_flip]
  rfl

end Fraction
end Mediant
