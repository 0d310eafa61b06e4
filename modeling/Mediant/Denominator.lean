import Mediant.Fraction.Basic

/-!
# Denominators

The denominators of a bracket are sums of copies of the denominator that the starting lattice has.
If that is an integer they are integers, and the sums are exact.  If it is a double they are
doubles, and every product and every sum is rounded.  `Denominator` is what the two kinds have in
common, so that a search is defined once for both.

A bound of a bracket becomes a fraction only at the end, when the integer part that was split off
comes back.  With integers this is exact as well.  With doubles the numerator is put together in
doubles, and numerator and denominator are rounded to the nearest integers.
-/

namespace Mediant

/-- A kind of number that the denominators of a bracket can be. -/
class Denominator (δ : Type) where
  /-- The double that stands for a denominator in the scaled distances. -/
  toDouble : δ → Except Fault Binary64
  /-- `n` copies of one denominator added to another. -/
  combine : Int → δ → δ → δ
  /-- The sum of an integer part and of a numerator over a denominator, negated if asked for. -/
  restore (negated : Bool) (integer num : Int) (denom : δ) : Except Fault Fraction

namespace Denominator

instance : Denominator Int where
  toDouble := Mediant.toDouble
  combine n a b := n * a + b
  restore negated integer num denom :=
    let total := num + denom * integer
    Fraction.ofPair (if negated then -total else total) denom

@[simp] theorem toDouble_int (n : Int) : Denominator.toDouble n = Mediant.toDouble n := rfl

@[simp] theorem combine_int (n a b : Int) : combine n a b = n * a + b := rfl

theorem restore_int (negated : Bool) (integer num denom : Int) :
    restore negated integer num denom =
      Fraction.ofPair
        (if negated then -(num + denom * integer) else num + denom * integer) denom := rfl

instance : Denominator Binary64 where
  toDouble x := .ok x
  combine n a b := ((Binary64.ofInt n).mul a).add b
  restore negated integer num denom := do
    let total := (← Mediant.toDouble num).add (denom.mul (Binary64.ofInt integer))
    Fraction.ofPair (← (if negated then total.neg else total).toNearest) (← denom.toNearest)

end Denominator
end Mediant
