import Mediant.Proofs.Bracket.Rational
import Mediant.Proofs.LowestTerms
import Mediant.Proofs.Search.Termination

/-!
# Recovery of rational numbers

A quotient of integers becomes a double by one rounding.  A search for this double gives the
quotient back, exactly, if its precision is large against the rounding and small against the
distances of fractions with this denominator.

With truncation the remainder of the double stands for the remainder of the quotient, which has the
same denominator, and `Bracket.Straddles.answer` applies.  What is added here is the way from the
quotient to its remainder and back: the integer part is that of the double, which may differ from
that of the quotient, and the sign survives the rounding.
-/

namespace Mediant

open Binary64

namespace Query

variable {q : Query ℤ} {w p : ℚ} {m : ℤ} {x : Binary64} {n : ℕ} {c : Bracket ℤ} {o : Outcome ℤ}
  {r : Approximant}

lemma Admissible.sign_mul_abs (h : q.Admissible (roundOff w) p m) (hpolicy : q.policy = .truncate)
    (herr : |roundOff w - w| ≤ |w| / 2 ^ 53) : q.sign * |w| = w := by
  have hoperand : q.operand (roundOff w) = |roundOff w| := if_pos hpolicy
  have hvalue := h.sign_mul_operand
  have hnonneg := abs_nonneg (roundOff w)
  rw [hoperand] at hvalue
  rw [abs_le] at herr
  rcases q.sign_cases with hs | hs
  · rw [hs, Int.cast_one, one_mul] at hvalue ⊢
    rw [abs_eq_self]
    by_contra! hneg
    rw [abs_of_neg hneg] at herr
    linarith [herr.2]
  · rw [hs, Int.cast_neg, Int.cast_one, neg_one_mul] at hvalue ⊢
    rw [neg_eq_iff_eq_neg, abs_eq_neg_self]
    by_contra! hpos
    rw [abs_of_pos hpos] at herr
    linarith [herr.1]

/-- The remainder of the double is as near to that of the quotient as the double to the quotient. -/
lemma resolves {num denom : ℤ} (v : ℚ) (hdenom : 0 < denom)
    (herr : |v - num / denom| ≤ |(num / denom : ℚ)| / 2 ^ 53)
    (hlow : 2310 * (|(num : ℚ)| + 3 * denom) / 2 ^ 51 ≤ p) (hhigh : p ≤ 1 / (2 * denom)) :
    Resolves denom (|(num / denom : ℚ)| - ⌊|v|⌋) (Int.fract |v|) p
      (|(num / denom : ℚ)| / 2 ^ 53 + 4 * unitRoundoff) where
  denom_pos := hdenom
  exists_num := by
    have hpos : (0 : ℚ) < denom := by exact_mod_cast hdenom
    refine ⟨|num| - ⌊|v|⌋ * denom, ?_⟩
    rw [abs_div, abs_of_pos hpos]
    push_cast
    field_simp
  abs_sub_add_le := by
    have hshift : Int.fract |v| - (|(num / denom : ℚ)| - ⌊|v|⌋) = |v| - |(num / denom : ℚ)| := by
      rw [Int.fract]
      ring
    rw [hshift]
    exact add_le_add_left ((abs_abs_sub_abs_le _ _).trans herr) _
  noise_le := by
    have hpos : (0 : ℚ) < denom := by exact_mod_cast hdenom
    have hnum : |(num / denom : ℚ)| * denom = |(num : ℚ)| := by
      rw [abs_div, abs_of_pos hpos]
      field_simp
    rw [unitRoundoff]
    calc 6930 * denom * (|(num / denom : ℚ)| / 2 ^ 53 + 4 * (1 / 2 ^ 53))
        = 6930 / 2 ^ 53 * (|(num / denom : ℚ)| * denom + 4 * denom) := by ring
      _ ≤ 2310 * (|(num : ℚ)| + 3 * denom) / 2 ^ 51 := by
          rw [hnum]
          linarith [abs_nonneg (num : ℚ)]
      _ ≤ p := hlow
  two_mul_le := by
    have hpos : (0 : ℚ) < denom := by exact_mod_cast hdenom
    rwa [le_div_iff₀ (by positivity), mul_comm] at hhigh

/-- The fraction is the number that was rounded exactly if the answer is the remainder of it. -/
lemma Course.toRat_eq_iff (h : q.Course (roundOff w) p m x n c o r) (hpolicy : q.policy = .truncate)
    (herr : |roundOff w - w| ≤ |w| / 2 ^ 53) :
    r.fraction.toRat = w ↔ o.bracket.high.toRat = |w| - ⌊|roundOff w|⌋ := by
  have hoperand : q.operand (roundOff w) = |roundOff w| := if_pos hpolicy
  have hsign := h.admissible.sign_mul_abs hpolicy herr
  have hne : (q.sign : ℚ) ≠ 0 := by
    rcases q.sign_cases with hs | hs <;> rw [hs] <;> norm_num
  rw [h.returns.fraction.toRat_eq, hoperand]
  nth_rewrite 2 [← hsign]
  rw [mul_right_inj' hne, eq_sub_iff_add_eq']

lemma Course.toRat_eq {D : ℤ} {e : ℚ} (h : q.Course (roundOff w) p m x n c o r)
    (hpolicy : q.policy = .truncate) (hm : 2 ^ 53 < m) (herr : |roundOff w - w| ≤ |w| / 2 ^ 53)
    (hres : Resolves D (|w| - ⌊|roundOff w|⌋) (Int.fract |roundOff w|) p e) :
    r.overflowed = false ∧ r.fraction.toRat = w := by
  rw [← h.admissible.remainder_eq hpolicy] at hres
  have hcell := Bracket.straddles_cell (q.remainder_nonneg _) (q.remainder_le_one _) hres
  have hlast := hcell.reached h.start (holds_cellNumber q _) hres h.reaches
  have hholds := (holds_cellNumber q _).reached le_rfl h.start h.reaches
  obtain ⟨hover, hanswer⟩ :=
    hlast.answer h.last hholds hres (by exact_mod_cast hm) h.stages.ends
  exact ⟨by rw [h.returns.overflowed_eq, hover], (h.toRat_eq_iff hpolicy herr).mpr hanswer⟩

end Query

/-- The search for a value with a precision, all other bounds being the default ones, gives
`num / denom` back: without a warning, and for strict callers as for others. -/
structure Recovers (s : Settings) (value precision : Value) (num denom : ℤ) : Prop where
  /-- The search is not stopped, and its fraction is the quotient. -/
  exists_search (strict : Bool) : ∃ r, search s strict { value, precision } = .ok ⟨r, []⟩ ∧
    r.overflowed = false ∧ 0 < r.fraction.denom ∧ r.fraction.toRat = num / denom
  pair_eq (strict : Bool) :
    nearbyPair s strict { value, precision } = .ok ⟨lowestTerms num denom, []⟩
  reduced_eq (strict : Bool) : ∃ f, nearbyReduced s strict value precision = .ok ⟨f, []⟩ ∧
    (f.num, f.denom) = lowestTerms num denom

/-- Between its two bounds there is room for a precision only if the quotient is small. -/
lemma abs_div_le_of_precision {num denom : ℤ} {p : ℚ} (hdenom : 0 < denom)
    (hlow : 2310 * (|(num : ℚ)| + 3 * denom) / 2 ^ 51 ≤ p) (hhigh : p ≤ 1 / (2 * denom)) :
    |(num / denom : ℚ)| ≤ 2 ^ 40 ∧ denom ≤ 2 ^ 40 := by
  have hone : (1 : ℚ) ≤ denom := by exact_mod_cast hdenom
  have hpos : (0 : ℚ) < denom := zero_lt_one.trans_le hone
  have hnum := abs_nonneg (num : ℚ)
  have hprod := hlow.trans hhigh
  rw [le_div_iff₀ (by positivity)] at hprod
  have hsum := le_mul_of_one_le_right (by linarith : 0 ≤ |(num : ℚ)| + 3 * denom) hone
  have hsmall : (denom : ℚ) ≤ 2 ^ 40 := by linarith
  refine ⟨?_, by exact_mod_cast hsmall⟩
  rw [abs_div, abs_of_pos hpos]
  exact (div_le_self hnum hone).trans (by linarith)

/-- **The search for a rounded quotient gives the quotient back**, exactly and in lowest terms, for
every precision between the rounding errors and half the distance of two fractions. -/
theorem recovers_of_precision {flag : Bool} {num denom : ℤ} {y : Binary64} {p : ℚ}
    (hdenom : 0 < denom) (hy : y.Denotes p)
    (hlow : 2310 * (|(num : ℚ)| + 3 * denom) / 2 ^ 51 ≤ p) (hhigh : p ≤ 1 / (2 * denom)) :
    Recovers { warnOnOverflow := .boolean flag } (.double (quotient num denom)) (.double y)
      num denom := by
  obtain ⟨hquotient, hsmall⟩ := abs_div_le_of_precision hdenom hlow hhigh
  have herr := abs_roundOff_div_sub_le num hdenom (hsmall.trans (by norm_num))
  have hx : (quotient num denom).Denotes (roundOff (num / denom)) :=
    denotes_rounded _ (hquotient.trans (by norm_num))
  have hvalue : |roundOff (num / denom : ℚ)| < (0x7fffffffffffffff : ℤ) := by
    refine (abs_roundOff_le (representable_two_pow 40) hquotient).trans_lt ?_
    norm_num
  have hleast : leastPrecision ≤ p := by
    have hone : (1 : ℚ) ≤ denom := by exact_mod_cast hdenom
    exact hy.representable.roundOff_le (by linarith [abs_nonneg (num : ℚ)])
  have ha := accepted_of_denotes hx hy hleast hvalue
  obtain ⟨r, hr⟩ := ha.exists_search flag
  obtain ⟨q, t, n, c, o, hpolicy, h⟩ := ha.exists_course hr
  obtain ⟨hover, hfraction⟩ := h.toRat_eq hpolicy (by norm_num) herr
    (Query.resolves _ hdenom herr hlow hhigh)
  have hsized := h.stages.forall_bounds h.last.sized.low h.last.sized.high
  have hdenompos : 0 < r.value.fraction.denom := by
    rw [h.returns.fraction.denom_eq]
    exact hsized.1.denom_pos
  have hsearch := search_eq_ok_of_not_overflowed rfl hr hover
  have hterms := (Fraction.lowestTerms_eq_iff hdenompos hdenom).mpr hfraction
  refine ⟨fun strict => ⟨_, hsearch strict, hover, hdenompos, hfraction⟩, ?_, ?_⟩
  · intro strict
    rw [nearbyPair, nearbyFraction, hsearch strict, ← hterms]
    rfl
  · intro strict
    refine ⟨r.value.fraction.reduced, ?_, hterms⟩
    rw [nearbyReduced, nearbyFraction, hsearch strict]
    rfl

/-- Six sevenths at a precision of a billionth. -/
theorem recovers_six_sevenths :
    (quotient 1 1000000000).Denotes (4835703278458517 / 2 ^ 82) ∧
      2310 * (|((6 : ℤ) : ℚ)| + 3 * (7 : ℤ)) / 2 ^ 51 ≤ (4835703278458517 / 2 ^ 82 : ℚ) ∧
      (4835703278458517 / 2 ^ 82 : ℚ) ≤ 1 / (2 * (7 : ℤ)) ∧
      Recovers {} (.double (quotient 6 7)) (.double (quotient 1 1000000000)) 6 7 := by
  have hy : (quotient 1 1000000000).Denotes (4835703278458517 / 2 ^ 82) :=
    denotes_of_toExtended (by decide +kernel)
  have hlow :
      2310 * (|((6 : ℤ) : ℚ)| + 3 * (7 : ℤ)) / 2 ^ 51 ≤ (4835703278458517 / 2 ^ 82 : ℚ) := by
    norm_num
  have hhigh : (4835703278458517 / 2 ^ 82 : ℚ) ≤ 1 / (2 * (7 : ℤ)) := by norm_num
  exact ⟨hy, hlow, hhigh, recovers_of_precision (by norm_num) hy hlow hhigh⟩

end Mediant
