/-!
# Exact numbers with infinities and an undefined value

Integers and doubles meet in comparisons, and every such comparison in this library is exact: no
side is rounded to fit the other.  The common ground is `Extended`, a rational number, one of two
infinities, or `undefined`.  A double denotes an `Extended` value and an integer denotes a
rational one, so a mixed comparison is a comparison of two `Extended` values.

`undefined` is below, above and equal to nothing, itself included.  On all other values the three
relations `lt`, `eq` and `le` are those of the extended rational line.
-/

namespace Mediant

/-- A rational number, an infinity of either sign, or no number at all. -/
inductive Extended where
  | undefined
  | bottom
  | rational (q : Rat)
  | top
deriving DecidableEq

namespace Extended

/-- The exact value of an integer. -/
def ofInt (n : Int) : Extended := .rational n

/-- Strictly below; false as soon as one side is undefined. -/
def lt : Extended → Extended → Bool
  | .undefined, _ => false
  | _, .undefined => false
  | _, .bottom => false
  | .bottom, _ => true
  | .top, _ => false
  | _, .top => true
  | .rational p, .rational q => p < q

/-- The same number; the undefined value is not even equal to itself. -/
def eq : Extended → Extended → Bool
  | .bottom, .bottom => true
  | .top, .top => true
  | .rational p, .rational q => p = q
  | _, _ => false

/-- Below or equal; false as soon as one side is undefined. -/
def le (x y : Extended) : Bool := x.lt y || x.eq y

@[simp] theorem lt_rational (p q : Rat) : lt (.rational p) (.rational q) = decide (p < q) := rfl

@[simp] theorem eq_rational (p q : Rat) : eq (.rational p) (.rational q) = decide (p = q) := rfl

@[simp] theorem lt_undefined (x : Extended) : x.lt .undefined = false := by cases x <;> rfl

@[simp] theorem eq_undefined (x : Extended) : x.eq .undefined = false := by cases x <;> rfl

@[simp] theorem le_undefined (x : Extended) : x.le .undefined = false := by simp [le]

/-- On rationals `le` is the order of the rationals. -/
@[simp] theorem le_rational (p q : Rat) : le (.rational p) (.rational q) = decide (p ≤ q) := by
  simp only [le, lt_rational, eq_rational, ← Bool.decide_or]
  exact decide_eq_decide.mpr Rat.le_iff_lt_or_eq.symm

end Extended
end Mediant
