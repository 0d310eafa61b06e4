import Mediant.Proofs.Fraction.Order
import Mediant.Proofs.Search.Checks

/-!
# Fractions as doubles

Against a double a fraction counts by its value, the double nearest to its rational number.  The
stored pair goes into that value in one place only: the quotient zero takes the sign of the
denominator.  No comparison sees that sign, so what a fraction is compared with a double as depends
on its rational number alone (`equalsDouble_congr`, `holdsDouble_congr`).
-/

namespace Mediant

open Binary64

/-! ## The sign of an exact zero -/

namespace Binary64

lemma rounded_zero (negative : Bool) : rounded 0 negative = zero negative := by
  cases negative <;> decide +kernel

/-- The sign that is named for an exact zero does not show in the absolute value. -/
lemma abs_rounded_congr (q : ℚ) (s t : Bool) : (rounded q s).abs = (rounded q t).abs := by
  by_cases hq : q = 0
  · rw [hq, rounded_zero, rounded_zero]
    rfl
  · rw [rounded, rounded, if_neg hq, if_neg hq]

/-- The distance of a double from a zero does not depend on the sign of the zero. -/
lemma abs_zero_sub_congr (s t : Bool) (x : Binary64) :
    ((zero s).sub x).abs = ((zero t).sub x).abs := by
  have hval : ∀ negative, (Finite.zero negative).toRat = 0 := by
    intro negative
    rw [Finite.toRat, Finite.units_zero, Rat.zero_mkRat]
  cases x with
  | nan => rfl
  | infinity negative => rfl
  | finite y =>
    simp only [sub, neg, zero, add, hval]
    exact abs_rounded_congr _ _ _

end Binary64

namespace Fraction

variable {f g : Fraction} {x : Binary64} {v : ℚ}

/-! ## The value -/

lemma exists_value_eq_of_lt (h : |roundOff f.toRat| < overflowValue) :
    ∃ y, f.value = .ok y ∧ y.Denotes (roundOff f.toRat) := by
  obtain ⟨y, hy, hval⟩ := rounded_of_lt (decide (f.num < 0) ^^ decide (f.denom < 0)) h
  refine ⟨.finite y, ?_, y, rfl, hval⟩
  have hquotient : quotient f.num f.denom = .finite y := hy
  rw [value, hquotient, orFault_finite]

lemma value_eq_error (h : overflowValue ≤ |roundOff f.toRat|) :
    f.value = .error .quotientTooLarge := by
  have hquotient : quotient f.num f.denom = .infinity (decide (f.toRat < 0)) := rounded_of_le _ h
  rw [value, hquotient, orFault_infinity]

/-- Fractions of the same rational number have the same value, up to the sign of zero. -/
lemma value_congr (h : f.toRat = g.toRat) :
    f.value = g.value ∨ ∃ s t, f.value = .ok (zero s) ∧ g.value = .ok (zero t) := by
  have hvalue : ∀ f : Fraction, f.value =
      (rounded f.toRat (decide (f.num < 0) ^^ decide (f.denom < 0))).orFault .quotientTooLarge :=
    fun _ => rfl
  rw [hvalue f, hvalue g, ← h]
  by_cases hzero : f.toRat = 0
  · right
    rw [hzero, rounded_zero, rounded_zero]
    exact ⟨_, _, rfl, rfl⟩
  · left
    rw [rounded, rounded, if_neg hzero, if_neg hzero]

/-! ## Comparison with a double -/

lemma equalsDouble_congr (h : f.toRat = g.toRat) (x : Binary64) :
    f.equalsDouble x = g.equalsDouble x := by
  rw [equalsDouble, equalsDouble]
  rcases value_congr h with heq | ⟨s, t, hf, hg⟩
  · rw [heq]
  · rw [hf, hg, Except.bind_ok, Except.bind_ok, abs_zero_sub_congr s t]

lemma holdsDouble_congr (h : f.toRat = g.toRat) (r : Relation) (x : Binary64) :
    f.holdsDouble r x = g.holdsDouble r x := by
  rw [holdsDouble, holdsDouble]
  rcases value_congr h with heq | ⟨s, t, hf, hg⟩
  · rw [heq]
  · rw [hf, hg, Except.bind_ok, Except.bind_ok, (denotes_zero s).toExtended,
      (denotes_zero t).toExtended]

lemma holdsDouble_eq_of_lt (h : |roundOff f.toRat| < overflowValue) (hx : x.Denotes v)
    (r : Relation) : f.holdsDouble r x = .ok (decide (r.Holds (roundOff f.toRat) v)) := by
  obtain ⟨y, hy, hden⟩ := exists_value_eq_of_lt h
  rw [holdsDouble, hy, Except.bind_ok, Except.pure_eq, hden.toExtended, hx.toExtended,
    r.holdsExact_rational]

lemma holdsDouble_eq_error (h : overflowValue ≤ |roundOff f.toRat|) (r : Relation) (x : Binary64) :
    f.holdsDouble r x = .error .quotientTooLarge := by
  rw [holdsDouble, value_eq_error h, Except.bind_error]

end Fraction

/-! ## Values next to a fraction -/

namespace Value

variable {v w z : Value}

/-- The value is a fraction, an integer, a truth value or a double. -/
inductive IsOperand : Value → Prop
  | fraction (f : Fraction) : IsOperand (.fraction f)
  | number {z : Value} {x : Extended} (h : z.IsNumber x) : IsOperand z

/-- Two values that are no arrays are compared as they are. -/
lemma holdsSimple_eq (hv : v.settled = .ok v) (hw : w.settled = .ok w) (r : Relation) :
    holdsSimple r v w = holdsSettled r v w := by
  rw [holdsSimple, hv, Except.bind_ok, hw, Except.bind_ok]

lemma equalsSimple_eq (hv : v.settled = .ok v) (hw : w.settled = .ok w) :
    equalsSimple v w = equalsSettled v w := by
  rw [equalsSimple, hv, Except.bind_ok, hw, Except.bind_ok]

lemma IsOperand.settled_eq (hz : z.IsOperand) : z.settled = .ok z := by
  cases hz with
  | fraction f => rfl
  | number h => cases h <;> rfl

/-- On either side of a fraction, equality is that of the fraction with the value. -/
lemma IsOperand.equals_eq (hz : z.IsOperand) (f : Fraction) :
    (Value.fraction f).equals z = equalsFraction f z ∧
      z.equals (.fraction f) = equalsFraction f z := by
  have hright : (Value.fraction f).equals z = equalsSimple (.fraction f) z := by
    simp only [equals]
  have hleft : z.equals (.fraction f) = equalsSimple z (.fraction f) := by
    simp only [equals]
  rw [hright, hleft, equalsSimple_eq rfl hz.settled_eq, equalsSimple_eq hz.settled_eq rfl]
  cases hz with
  | fraction g =>
    simp only [equalsSettled, equalsFraction, Fraction.equals_comm g f, and_self]
  | number h =>
    cases h <;> simp only [equalsSettled, and_self]

/-- On the right of a fraction the order is that of the fraction against the value, and on the left
it is flipped. -/
lemma IsOperand.holds_eq (hz : z.IsOperand) (f : Fraction) (r : Relation) :
    (Value.fraction f).holds r z = holdsFraction r f z ∧
      z.holds r (.fraction f) = holdsFraction r.flip f z := by
  have hright : (Value.fraction f).holds r z = holdsSimple r (.fraction f) z := by
    cases hz with
    | fraction g => simp only [holds]
    | number h => cases h <;> simp only [holds]
  have hleft : z.holds r (.fraction f) = holdsSimple r z (.fraction f) := by
    cases hz with
    | fraction g => simp only [holds]
    | number h => cases h <;> simp only [holds]
  rw [hright, hleft, holdsSimple_eq rfl hz.settled_eq, holdsSimple_eq hz.settled_eq rfl]
  cases hz with
  | fraction g =>
    simp only [holdsSettled, holdsFraction, Fraction.holds_flip, and_self]
  | number h =>
    cases h <;> simp only [holdsSettled, and_self]

lemma fraction_holds_double (f : Fraction) (x : Binary64) (r : Relation) :
    (Value.fraction f).holds r (.double x) = f.holdsDouble r x :=
  ((IsOperand.number (.double x)).holds_eq f r).1

lemma double_holds_fraction (f : Fraction) (x : Binary64) (r : Relation) :
    (Value.double x).holds r (.fraction f) = f.holdsDouble r.flip x :=
  ((IsOperand.number (.double x)).holds_eq f r).2

end Value
end Mediant
