import Mediant.Proofs.Fraction.Rounded
import Mediant.Value.HashKey

/-!
# Equality of fractions

Equality of fractions is equality of rational numbers, and it is a congruence: equal fractions have
equal keys, and no comparison with a fraction, an integer or a double can tell them apart.  The
comparisons with doubles are the ones that use the pair as it is stored, unreduced and with its
signs where they are; their results agree for all pairs of one rational number nevertheless, and so
do their faults.

`ExactEquality` collects what this means for two fractions.
-/

namespace Mediant

open Binary64

/-! ## Keys -/

namespace HashKey

/-- The key of a rational number: that of the integer if it is one, and otherwise that of the pair
of its numerator and denominator. -/
def ofRational (q : ℚ) : HashKey :=
  if q.den = 1 then ofInt q.num else ofKeys [ofInt q.num, ofInt q.den]

lemma ofFraction_eq (f : Fraction) : ofFraction f = ofRational f.toRat := by
  rw [ofFraction, f.lowestTerms_eq_num_den, ofRational]
  simp only [Nat.cast_eq_one]

@[simp] lemma ofRational_intCast (n : ℤ) : ofRational n = ofInt n := by
  rw [ofRational, if_pos (Rat.den_intCast n), Rat.num_intCast]

/-- The key of a rational number is a number, so it agrees with itself. -/
lemma agrees_ofRational (q : ℚ) : (ofRational q).agrees (ofRational q) = true := by
  have hnumber : ∃ n, ofRational q = .number n := by
    unfold ofRational
    split
    · exact ⟨_, rfl⟩
    · exact ⟨_, rfl⟩
  obtain ⟨n, hn⟩ := hnumber
  rw [hn, agrees]
  exact decide_eq_true rfl

end HashKey

namespace Value

variable {v w z : Value} {p q : ℚ} {f g : Fraction}

/-- The key of a fraction or an integer depends on the rational number only. -/
lemma IsRational.key_eq (h : v.IsRational p) : HashKey.ofValue v = .ok (.ofRational p) := by
  cases h with
  | fraction f => rw [HashKey.ofValue, HashKey.ofFraction_eq]
  | integer n => rw [HashKey.ofValue, HashKey.ofRational_intCast]
  | boolean b => rw [HashKey.ofValue, HashKey.ofRational_intCast]

lemma IsInteger.isRational {n : ℤ} (h : v.IsInteger n) : v.IsRational n := by
  cases h with
  | integer n => exact .integer n
  | boolean b => exact .boolean b

/-! ## Congruence -/

lemma IsOperand.equalsFraction_congr (hz : z.IsOperand) (h : f.toRat = g.toRat) :
    equalsFraction f z = equalsFraction g z := by
  have hfraction : ∀ k : Fraction, f.equals k = g.equals k := by
    intro k
    rw [f.equals_eq, g.equals_eq, h]
  cases hz with
  | fraction k => exact congrArg Except.ok (hfraction k)
  | number hx =>
    cases hx with
    | integer n => exact congrArg Except.ok (hfraction (.ofInt n))
    | boolean b => exact congrArg Except.ok (hfraction (.ofInt b.toInt))
    | double x => exact Fraction.equalsDouble_congr h x
    | undefined format mark => exact Fraction.equalsDouble_congr h .nan

lemma IsOperand.holdsFraction_congr (hz : z.IsOperand) (h : f.toRat = g.toRat) (r : Relation) :
    holdsFraction r f z = holdsFraction r g z := by
  have hfraction : ∀ k : Fraction, f.holds r k = g.holds r k := by
    intro k
    rw [f.holds_eq, g.holds_eq, h]
  cases hz with
  | fraction k => exact congrArg Except.ok (hfraction k)
  | number hx =>
    cases hx with
    | integer n => exact congrArg Except.ok (hfraction (.ofInt n))
    | boolean b => exact congrArg Except.ok (hfraction (.ofInt b.toInt))
    | double x => exact Fraction.holdsDouble_congr h r x
    | undefined format mark => exact Fraction.holdsDouble_congr h r .nan

/-- No comparison with a number tells fractions of the same rational number apart. -/
lemma IsOperand.compare_congr (hz : z.IsOperand) (h : f.toRat = g.toRat) :
    (Value.fraction f).compare z = (Value.fraction g).compare z ∧
      z.compare (.fraction f) = z.compare (.fraction g) := by
  constructor
  · simp only [compare, (hz.equals_eq _).1, (hz.holds_eq _ _).1, hz.equalsFraction_congr h,
      hz.holdsFraction_congr h]
  · simp only [compare, (hz.equals_eq _).2, (hz.holds_eq _ _).2, hz.equalsFraction_congr h,
      hz.holdsFraction_congr h]

end Value

/-! ## Equality -/

/-- What equality of two fractions means and entails. -/
structure ExactEquality (f g : Fraction) : Prop where
  /-- Two fractions are equal if their cross products are the same. -/
  equals_fraction : (Value.fraction f).equals (.fraction g) =
    .ok (decide (f.num * g.denom = g.num * f.denom))
  /-- A fraction is equal to an integer, on either side of it, if its numerator is that multiple of
  its denominator. -/
  equals_integer {k : Value} {n : ℤ} : k.IsInteger n →
    (Value.fraction f).equals k = .ok (decide (f.num = n * f.denom)) ∧
      k.equals (.fraction f) = .ok (decide (f.num = n * f.denom))
  /-- What is not equal is unequal, and what cannot be compared is neither. -/
  unequal (z : Value) :
    ((Value.fraction f).compare z).unequal = ((Value.fraction f).equals z).map not ∧
      (z.compare (.fraction f)).unequal = (z.equals (.fraction f)).map not
  /-- Equal values among fractions and integers have keys that agree. -/
  key {v w : Value} {p q : ℚ} : v.IsRational p → w.IsRational q → v.equals w = .ok true →
    ∃ k l, HashKey.ofValue v = .ok k ∧ HashKey.ofValue w = .ok l ∧ k.agrees l = true
  /-- Equal fractions give the same results, or the same faults, in all comparisons. -/
  compare {z : Value} : (Value.fraction f).equals (.fraction g) = .ok true → z.IsOperand →
    (Value.fraction f).compare z = (Value.fraction g).compare z ∧
      z.compare (.fraction f) = z.compare (.fraction g)
  /-- Equal fractions have the same value, up to the sign of zero, or none. -/
  value : (Value.fraction f).equals (.fraction g) = .ok true →
    f.value = g.value ∨ ∃ s t, f.value = .ok (zero s) ∧ g.value = .ok (zero t)

/-- **Equality of fractions is equality of rational numbers, and a congruence.** -/
theorem exactEquality (f g : Fraction) : ExactEquality f g := by
  have hiff : (Value.fraction f).equals (.fraction g) = .ok true ↔ f.toRat = g.toRat :=
    (Value.IsRational.fraction f).equals_iff (.fraction g)
  constructor
  · rw [(Value.IsRational.fraction f).equals_eq (.fraction g)]
    exact congrArg Except.ok (decide_eq_decide.mpr Fraction.toRat_eq_toRat_iff)
  · intro k n hk
    have hdecide : decide (f.toRat = n) = decide (f.num = n * f.denom) :=
      decide_eq_decide.mpr Fraction.toRat_eq_intCast_iff
    rw [(Value.IsRational.fraction f).equals_eq hk.isRational,
      hk.isRational.equals_eq (.fraction f), hdecide, ← hdecide]
    exact ⟨rfl, congrArg Except.ok (decide_eq_decide.mpr eq_comm)⟩
  · intro z
    exact ⟨rfl, rfl⟩
  · intro v w p q hv hw hequal
    rw [hv.equals_iff hw] at hequal
    refine ⟨_, _, hv.key_eq, hw.key_eq, ?_⟩
    rw [hequal]
    exact HashKey.agrees_ofRational q
  · intro z hequal hz
    exact hz.compare_congr (hiff.mp hequal)
  · intro hequal
    exact Fraction.value_congr (hiff.mp hequal)

end Mediant
