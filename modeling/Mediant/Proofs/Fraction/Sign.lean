import Mediant.Proofs.Fraction.Order
import Mediant.Value.Arithmetic

/-!
# Negation and absolute value of fractions

Negation turns over the sign of the numerator, and the absolute value drops both signs, whatever the
stored pair is: unreduced, over a negative denominator, or negative in both places.  Reducing moves
the sign and divides by the greatest common divisor.  The two do not get in each other's way, since
negation and absolute value are those of the rational number (`toRat_neg`, `toRat_abs`), and lowest
terms depend on the rational number only.

`SignLaws` collects what follows, for the stored pairs and for the comparisons.
-/

namespace Mediant

/-! ## Relations between negated numbers -/

/-- Negation exchanges the sides of every relation. -/
lemma Relation.holds_neg_neg_iff (r : Relation) {p q : ℚ} : r.Holds (-p) (-q) ↔ r.Holds q p := by
  cases r with
  | less => exact neg_lt_neg_iff
  | atMost => exact neg_le_neg_iff
  | more => exact neg_lt_neg_iff
  | atLeast => exact neg_le_neg_iff

/-! ## Stored pairs -/

namespace Fraction

@[simp] lemma neg_neg (f : Fraction) : f.neg.neg = f := by
  simp only [neg, Int.neg_neg]

lemma abs_denom_pos (f : Fraction) : 0 < f.abs.denom :=
  Int.natCast_pos.mpr (Int.natAbs_pos.mpr f.denom_ne_zero)

@[simp] lemma toRat_abs (f : Fraction) : f.abs.toRat = |f.toRat| := by
  change ((f.num.natAbs : ℤ) : ℚ) / ((f.denom.natAbs : ℤ) : ℚ) = |(f.num : ℚ) / f.denom|
  rw [Int.natCast_natAbs, Int.natCast_natAbs, Int.cast_abs, Int.cast_abs, abs_div]

lemma lowestTerms_abs (f : Fraction) :
    f.abs.lowestTerms = ((f.lowestTerms.1.natAbs : ℤ), (f.lowestTerms.2.natAbs : ℤ)) := by
  rw [lowestTerms_eq_num_den, lowestTerms_eq_num_den, toRat_abs, Rat.num_abs_eq_abs_num,
    Rat.den_abs_eq_den, Int.natCast_natAbs, Int.natAbs_natCast]

lemma reduced_abs (f : Fraction) : f.abs.reduced = f.reduced.abs := by
  simp only [reduced, abs, mk.injEq]
  exact Prod.mk.inj f.lowestTerms_abs

end Fraction

/-! ## The laws -/

/-- What negation and absolute value make of fractions. -/
structure SignLaws (f g : Fraction) : Prop where
  /-- Every fraction has a negative, which is that of the rational number. -/
  neg_eq : (Value.fraction f).neg = .ok (.fraction f.neg) ∧ f.neg.toRat = -f.toRat
  /-- Every fraction has an absolute value, which is that of the rational number. -/
  abs_eq : (Value.fraction f).abs = .ok (.fraction f.abs) ∧ f.abs.toRat = |f.toRat|
  /-- The pair is the same whether a fraction is reduced before it is negated or after. -/
  reduced_neg : f.neg.reduced = f.reduced.neg
  /-- The pair is the same whether a fraction is reduced before its signs are dropped or after. -/
  reduced_abs : f.abs.reduced = f.reduced.abs
  /-- Negating twice gives the stored pair back. -/
  neg_neg : f.neg.neg = f
  abs_denom_pos : 0 < f.abs.denom
  /-- The absolute value is equal to the fraction or to its negative. -/
  abs_equals : (Value.fraction f.abs).equals (.fraction f) = .ok true ∨
    (Value.fraction f.abs).equals (.fraction f.neg) = .ok true
  /-- The absolute value is below neither of them. -/
  abs_atLeast : (Value.fraction f.abs).holds .atLeast (.fraction f) = .ok true ∧
    (Value.fraction f.abs).holds .atLeast (.fraction f.neg) = .ok true
  /-- Negation exchanges the sides of all four relations. -/
  holds_neg (r : Relation) : (Value.fraction g.neg).holds r (.fraction f.neg) =
    (Value.fraction f).holds r (.fraction g)
  /-- Fractions are equal exactly if their negatives are. -/
  equals_neg : (Value.fraction f.neg).equals (.fraction g.neg) =
    (Value.fraction f).equals (.fraction g)

/-- **Negation and absolute value are those of the rational numbers**: they commute with reduction,
and negation reverses the order. -/
theorem signLaws (f g : Fraction) : SignLaws f g := by
  have hf : (Value.fraction f).IsRational f.toRat := .fraction f
  have hg : (Value.fraction g).IsRational g.toRat := .fraction g
  have hfneg : (Value.fraction f.neg).IsRational (-f.toRat) :=
    Value.isRational_fraction f.toRat_neg
  have hgneg : (Value.fraction g.neg).IsRational (-g.toRat) :=
    Value.isRational_fraction g.toRat_neg
  have hfabs : (Value.fraction f.abs).IsRational |f.toRat| :=
    Value.isRational_fraction f.toRat_abs
  refine ⟨⟨rfl, f.toRat_neg⟩, ⟨rfl, f.toRat_abs⟩, f.reduced_neg, f.reduced_abs, f.neg_neg,
    f.abs_denom_pos, ?_, ?_, ?_, ?_⟩
  · rw [hfabs.equals_iff hf, hfabs.equals_iff hfneg]
    exact abs_choice f.toRat
  · rw [hfabs.holds_iff hf, hfabs.holds_iff hfneg]
    exact ⟨le_abs_self f.toRat, neg_le_abs f.toRat⟩
  · intro r
    rw [hgneg.holds_eq hfneg, hf.holds_eq hg]
    exact congrArg Except.ok (decide_eq_decide.mpr r.holds_neg_neg_iff)
  · rw [hfneg.equals_eq hgneg, hf.equals_eq hg]
    exact congrArg Except.ok (decide_eq_decide.mpr neg_inj)

end Mediant
