import Mediant.Proofs.LowestTerms
import Mediant.Proofs.Search.Termination

/-!
# The accuracy of a result

A search that was not stopped has come within the precision of its value, and this in exact
arithmetic: what the doubles of the stopping test leave open is less than what the test itself gains
by comparing scaled distances.

Three errors add up: the precision over the denominator, which is at least the seed, the allowance
for rounding that a bracket carries, and the rounding of the remainder when the value is floored.
In parts of `2 ^ 53` the last two are at most six, and the least precision is almost nine.
-/

namespace Mediant

open Binary64

namespace Query.Course

variable {q : Query ℤ} {v p : ℚ} {m : ℤ} {x : Binary64} {n : ℕ} {c : Bracket ℤ} {o : Outcome ℤ}
  {r : Approximant}

lemma abs_remainder_sub_fract_le (q : Query ℤ) (v : ℚ) :
    |q.remainder v - Int.fract (q.operand v)| ≤ unitRoundoff + tiny := by
  have herr := abs_roundOff_sub_le (Int.fract (q.operand v))
  have habs := abs_of_nonneg (Int.fract_nonneg (q.operand v))
  rw [habs] at herr
  have hlt := Int.fract_lt_one (q.operand v)
  rw [remainder, unitRoundoff]
  linarith

/-- The answer of a search that was not stopped. -/
lemma abs_fraction_sub_lt (h : q.Course v p m x n c o r) (hp : leastPrecision ≤ p)
    (hover : r.overflowed = false) : |r.fraction.toRat - v| < p := by
  rw [h.returns.overflowed_eq] at hover
  have hholds := (holds_cellNumber q v).reached le_rfl h.start h.reaches
  have hanswer := Bracket.abs_answer_sub_le le_rfl h.last hholds h.stages.ends hover
  have hround := abs_remainder_sub_fract_le q v
  have hleast := le_leastPrecision
  have htiny : tiny ≤ 1 / 2 ^ 60 := tiny_le_two_pow (by norm_num)
  rw [unitRoundoff] at hanswer hround
  rw [h.admissible.abs_restored_sub h.returns.fraction]
  calc |o.bracket.high.toRat - Int.fract (q.operand v)|
      ≤ |o.bracket.high.toRat - q.remainder v| + |q.remainder v - Int.fract (q.operand v)| :=
        abs_sub_le _ _ _
    _ ≤ (p / 2310 + 5 * (1 / 2 ^ 53)) + (1 / 2 ^ 53 + tiny) := add_le_add hanswer hround
    _ < p := by linarith

end Query.Course

/-- Results near the value `v` by less than `p`, for every search that was not stopped. -/
structure Accurate (s : Settings) (a : Arguments) (v p : ℚ) : Prop where
  /-- There is a result, and one that was not stopped is near the value. -/
  exists_search : ∃ r, search s false a = .ok r
  fraction {strict : Bool} {r : Reported Approximant} : search s strict a = .ok r →
    r.value.overflowed = false → |r.value.fraction.toRat - v| < p
  /-- So is the pair in lowest terms. -/
  pair {strict : Bool} {r : Reported Approximant} : search s strict a = .ok r →
    r.value.overflowed = false → ∃ t, nearbyPair s strict a = .ok t ∧
      |(t.value.1 : ℚ) / t.value.2 - v| < p
  /-- So is the reduced fraction, where the bounds are the default ones. -/
  reduced {strict : Bool} {r : Reported Approximant} : a.ceiling = .nothing → a.split = .nothing →
    search s strict a = .ok r → r.value.overflowed = false →
      ∃ t, nearbyReduced s strict a.value a.precision = .ok t ∧ |t.value.toRat - v| < p

/-- **A search that was not stopped has come within the precision.** -/
theorem accurate_of_accepted {flag : Bool} {a : Arguments} {v p : ℚ} {m : ℤ} {policy : Splitting}
    (ha : a.Accepted (.rational leastPrecision) v p m policy) :
    Accurate { warnOnOverflow := .boolean flag } a v p := by
  have hs : Settings.Standard { warnOnOverflow := .boolean flag } := ⟨rfl, rfl⟩
  have hpos := leastPrecision_pos.trans_le ha.leastPrecision_le
  have hcourse : ∀ {strict r}, search { warnOnOverflow := .boolean flag } strict a = .ok r →
      0 < r.value.fraction.denom ∧
        (r.value.overflowed = false → |r.value.fraction.toRat - v| < p) := by
    intro strict r hr
    obtain ⟨q, t, n, c, o, -, -, h⟩ := exists_course hs isNumber_leastPrecision ha hpos hr
    refine ⟨?_, h.abs_fraction_sub_lt ha.leastPrecision_le⟩
    have hsized := h.stages.forall_bounds h.last.sized.low h.last.sized.high
    rw [h.returns.fraction.denom_eq]
    exact hsized.1.denom_pos
  refine ⟨exists_search_of_accepted hs rfl isNumber_leastPrecision ha hpos,
    fun hr => (hcourse hr).2, ?_, ?_⟩
  · intro strict r hr hover
    obtain ⟨hdenom, hnear⟩ := hcourse hr
    refine ⟨⟨r.value.fraction.lowestTerms, r.warnings⟩, ?_, ?_⟩
    · rw [nearbyPair, nearbyFraction, hr]
      rfl
    · rw [Fraction.lowestTerms_div hdenom]
      exact hnear hover
  · intro strict r hceiling hsplit hr hover
    obtain ⟨hdenom, hnear⟩ := hcourse hr
    have ha : ({ value := a.value, precision := a.precision } : Arguments) = a := by
      cases a
      cases hceiling
      cases hsplit
      rfl
    refine ⟨⟨r.value.fraction.reduced, r.warnings⟩, ?_, ?_⟩
    · rw [nearbyReduced, nearbyFraction, ha, hr]
      rfl
    · rw [Fraction.toRat_reduced hdenom]
      exact hnear hover

/-- The search for the double nearest to `-π`, floored, is not stopped by a ceiling of `10 ^ 12`. -/
theorem accurate_negPi :
    (Arguments.negPi 1000000000000 .floor).Accepted (.rational leastPrecision) negPi (1 / 2 ^ 40)
        1000000000000 .floor ∧
      Accurate { warnOnOverflow := .boolean true } (.negPi 1000000000000 .floor) negPi
        (1 / 2 ^ 40) ∧
      ∃ r, search {} false (.negPi 1000000000000 .floor) = .ok r ∧ r.value.overflowed = false := by
  have ha := accepted_negPi 1000000000000 .floor (by norm_num) (by norm_num)
  refine ⟨ha, accurate_of_accepted ha, ?_⟩
  exact Except.exists_of_toOption_map_eq_some (x := search {} false (.negPi 1000000000000 .floor))
    (f := (·.value.overflowed)) (b := false) (by decide +kernel)

end Mediant
