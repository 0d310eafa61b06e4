import Mathlib.Tactic
import Mediant.Fraction.Basic

/-!
# Lowest terms

For a positive denominator, lowest terms are the quotients by the greatest common divisor; a
negative one gives its sign to the numerator.  Either way they are the numerator and the denominator
of the rational number itself (`lowestTerms_eq_num_den`), so the number stays the same, and equal
numbers have equal lowest terms.
-/

namespace Mediant

lemma lowestTerms_eq_div (num : ℤ) {denom : ℤ} (h : 0 < denom) :
    lowestTerms num denom = (num / Int.gcd num denom, denom / Int.gcd num denom) := by
  unfold lowestTerms
  split
  · rename_i hzero
    rw [hzero, Int.gcd_zero_left, Int.zero_ediv, Int.natAbs_of_nonneg h.le, Int.ediv_self h.ne']
  · rw [euclid_eq_gcd, if_neg (not_lt.mpr h.le)]
    rfl

lemma lowestTerms_eq_num_den_of_pos (num : ℤ) {denom : ℤ} (h : 0 < denom) :
    lowestTerms num denom = (((num : ℚ) / denom).num, (((num : ℚ) / denom).den : ℤ)) := by
  have hgcd := Int.gcd_pos_of_ne_zero_right num h.ne'
  have hdenom : 0 < denom / Int.gcd num denom :=
    Int.ediv_pos_of_pos_of_dvd h (Int.natCast_nonneg _) (Int.gcd_dvd_right ..)
  have hcoprime : (num / Int.gcd num denom).natAbs.Coprime (denom / Int.gcd num denom).natAbs :=
    Int.gcd_ediv_gcd_ediv_gcd hgcd
  have hcancel : (num : ℚ) / denom =
      ((num / Int.gcd num denom : ℤ) : ℚ) / (denom / Int.gcd num denom : ℤ) := by
    rw [Rat.intCast_div _ _ (Int.gcd_dvd_left ..), Rat.intCast_div _ _ (Int.gcd_dvd_right ..),
      div_div_div_cancel_right₀ (by exact_mod_cast hgcd.ne')]
  rw [lowestTerms_eq_div num h, hcancel, Rat.num_div_eq_of_coprime hdenom hcoprime,
    Rat.den_div_eq_of_coprime hdenom hcoprime]

lemma lowestTerms_neg_neg (num : ℤ) {denom : ℤ} (h : denom < 0) :
    lowestTerms (-num) (-denom) = lowestTerms num denom := by
  unfold lowestTerms
  by_cases hnum : num = 0
  · rw [if_pos hnum, if_pos (neg_eq_zero.mpr hnum)]
  · have hdvd := Int.gcd_dvd_left num denom
    have hdvd' := Int.gcd_dvd_right num denom
    rw [if_neg hnum, if_neg (neg_ne_zero.mpr hnum), Int.natAbs_neg, Int.natAbs_neg, if_pos h,
      if_neg (by omega), euclid_eq_gcd]
    exact Prod.ext (Int.neg_ediv_of_dvd hdvd) (Int.neg_ediv_of_dvd hdvd')

/-- Lowest terms are the numerator and the denominator of the quotient. -/
lemma lowestTerms_eq_num_den (num : ℤ) {denom : ℤ} (h : denom ≠ 0) :
    lowestTerms num denom = (((num : ℚ) / denom).num, (((num : ℚ) / denom).den : ℤ)) := by
  rcases lt_or_gt_of_ne h with hneg | hpos
  · have hquotient : ((-num : ℤ) : ℚ) / ((-denom : ℤ) : ℚ) = num / denom := by
      rw [Int.cast_neg, Int.cast_neg, neg_div_neg_eq]
    rw [← lowestTerms_neg_neg num hneg, lowestTerms_eq_num_den_of_pos _ (by omega), hquotient]
  · exact lowestTerms_eq_num_den_of_pos num hpos

namespace Fraction

variable {f g : Fraction}

/-- Lowest terms depend on the rational number only. -/
lemma lowestTerms_eq_num_den (f : Fraction) : f.lowestTerms = (f.toRat.num, (f.toRat.den : ℤ)) :=
  Mediant.lowestTerms_eq_num_den f.num f.denom_ne_zero

lemma lowestTerms_inj : f.lowestTerms = g.lowestTerms ↔ f.toRat = g.toRat := by
  rw [lowestTerms_eq_num_den, lowestTerms_eq_num_den, Prod.mk.injEq, Nat.cast_inj]
  constructor
  · rintro ⟨hnum, hden⟩
    exact Rat.ext hnum hden
  · intro h
    rw [h]
    exact ⟨rfl, rfl⟩

lemma toRat_eq_toRat_iff : f.toRat = g.toRat ↔ f.num * g.denom = g.num * f.denom := by
  have hf : (f.denom : ℚ) ≠ 0 := by exact_mod_cast f.denom_ne_zero
  have hg : (g.denom : ℚ) ≠ 0 := by exact_mod_cast g.denom_ne_zero
  rw [toRat, toRat, div_eq_div_iff hf hg]
  exact_mod_cast Iff.rfl

lemma toRat_eq_intCast_iff {n : ℤ} : f.toRat = n ↔ f.num = n * f.denom := by
  have hf : (f.denom : ℚ) ≠ 0 := by exact_mod_cast f.denom_ne_zero
  rw [toRat, div_eq_iff hf]
  exact_mod_cast Iff.rfl

@[simp] lemma toRat_ofInt (n : ℤ) : (ofInt n).toRat = n := by
  rw [toRat, ofInt, Int.cast_one, div_one]

lemma lowestTerms_eq (h : 0 < f.denom) :
    f.lowestTerms = (f.num / Int.gcd f.num f.denom, f.denom / Int.gcd f.num f.denom) :=
  lowestTerms_eq_div f.num h

lemma lowestTerms_div (h : 0 < f.denom) :
    (f.lowestTerms.1 : ℚ) / f.lowestTerms.2 = f.toRat := by
  rw [lowestTerms, lowestTerms_eq_num_den_of_pos f.num h, Int.cast_natCast, Rat.num_div_den, toRat]

lemma lowestTerms_denom_le (h : 0 < f.denom) : f.lowestTerms.2 ≤ f.denom := by
  rw [lowestTerms_eq h]
  exact Int.ediv_le_self _ h.le

lemma lowestTerms_eq_iff (h : 0 < f.denom) {num denom : ℤ} (hdenom : 0 < denom) :
    f.lowestTerms = Mediant.lowestTerms num denom ↔ f.toRat = num / denom := by
  rw [lowestTerms, lowestTerms_eq_num_den_of_pos f.num h, lowestTerms_eq_num_den_of_pos num hdenom,
    toRat, Prod.mk.injEq, Nat.cast_inj]
  constructor
  · rintro ⟨hnum, hden⟩
    exact Rat.ext hnum hden
  · intro heq
    rw [heq]
    exact ⟨rfl, rfl⟩

/-! ### Negation -/

@[simp] lemma toRat_neg (f : Fraction) : f.neg.toRat = -f.toRat := by
  rw [toRat, toRat, neg, Int.cast_neg, neg_div]

lemma lowestTerms_neg (f : Fraction) :
    f.neg.lowestTerms = (-f.lowestTerms.1, f.lowestTerms.2) := by
  rw [lowestTerms_eq_num_den, lowestTerms_eq_num_den, toRat_neg, Rat.num_neg_eq_neg_num,
    Rat.den_neg_eq_den]

lemma reduced_neg (f : Fraction) : f.neg.reduced = f.reduced.neg := by
  simp only [reduced, neg, mk.injEq]
  exact Prod.mk.inj f.lowestTerms_neg

lemma toRat_reduced (h : 0 < f.denom) : f.reduced.toRat = f.toRat := lowestTerms_div h

end Fraction
end Mediant
