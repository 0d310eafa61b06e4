import Mathlib.Order.Interval.Set.UnorderedInterval
import Mediant.Proofs.Search.Accuracy

/-!
# The two fractions enclose the value

However long a search runs, and whether or not it is stopped, its value stays between the two
fractions that it reports, up to eight parts in `2 ^ 53`.  That the computed distances may have the
wrong sign, once the denominators exceed `2 ^ 53`, makes no difference: the allowance of a bracket
is proportional to its denominators, so in terms of the bounds themselves it is one constant.

The other fraction therefore bounds the error of the answer, for every precision and every ceiling.
-/

namespace Mediant

open Binary64

/-! ## The last bracket -/

namespace Bracket

variable {b : Bracket ℤ} {t : ℚ}

lemma Holds.low_toRat_le (h : b.Holds t) (hpos : 0 < b.low.denom) :
    b.low.toRat ≤ t + 5 * unitRoundoff := by
  have hlow := h.low
  rw [Bound.toRat_le_iff hpos]
  rw [Bound.gap] at hlow
  linarith

lemma Holds.le_high_toRat (h : b.Holds t) (hpos : 0 < b.high.denom) :
    t ≤ b.high.toRat + 5 * unitRoundoff := by
  have hhigh := h.high
  rw [← sub_le_iff_le_add, Bound.le_toRat_iff hpos]
  rw [Bound.gap] at hhigh
  linarith

end Bracket

/-- A number that exceeds neither end of an interval by more than `e` is that near to one in it. -/
lemma exists_between_abs_sub_le {low high t e : ℚ} (hle : low ≤ high) (he : 0 ≤ e)
    (hlow : low ≤ t + e) (hhigh : t ≤ high + e) : ∃ w, low ≤ w ∧ w ≤ high ∧ |t - w| ≤ e := by
  refine ⟨max low (min high t), le_max_left _ _, max_le hle (min_le_left _ _), ?_⟩
  rw [abs_sub_le_iff]
  constructor
  · rw [sub_le_comm, le_max_iff, le_min_iff]
    exact .inr ⟨by linarith, by linarith⟩
  · rw [sub_le_iff_le_add', max_le_iff]
    exact ⟨hlow, (min_le_right _ _).trans (by linarith)⟩

/-! ## The result -/

namespace Query.Course

variable {q : Query ℤ} {v p : ℚ} {m : ℤ} {x : Binary64} {n : ℕ} {c : Bracket ℤ} {o : Outcome ℤ}
  {r : Approximant}

/-- The exact remainder is near a number between the bounds of the last bracket. -/
lemma exists_between (h : q.Course v p m x n c o r) :
    ∃ w, c.low.toRat ≤ w ∧ w ≤ c.high.toRat ∧ |Int.fract (q.operand v) - w| ≤ 1 / 2 ^ 50 := by
  have hholds := (holds_cellNumber q v).reached le_rfl h.start h.reaches
  have hreg := h.last.bounded.toRegular
  have hlow := hholds.low_toRat_le (hreg.low_denom_pos h.last.seed_pos)
  have hhigh := hholds.le_high_toRat (hreg.high_denom_pos h.last.seed_pos)
  have hround := abs_sub_le_iff.mp (abs_remainder_sub_fract_le q v)
  have htiny : tiny ≤ 1 / 2 ^ 53 := tiny_le_two_pow (by norm_num)
  rw [unitRoundoff] at hlow hhigh hround
  exact exists_between_abs_sub_le (hreg.low_lt_high h.last.seed_pos).le (by norm_num)
    (by linarith [hround.1]) (by linarith [hround.2])

/-- The value is near a number between the two fractions. -/
lemma exists_mem_uIcc (h : q.Course v p m x n c o r) :
    ∃ w ∈ Set.uIcc r.low.toRat r.fraction.toRat, |v - w| ≤ 1 / 2 ^ 50 := by
  obtain ⟨w, hlow, hhigh, hnear⟩ := h.exists_between
  have hmem : w ∈ Set.uIcc o.bracket.low.toRat o.bracket.high.toRat := by
    rcases h.stages.bracket_eq with ho | ho <;> rw [ho, Set.mem_uIcc]
    · exact .inl ⟨hlow, hhigh⟩
    · exact .inr ⟨hlow, hhigh⟩
  have hsplit := Int.floor_add_fract (q.operand v)
  have hvalue := h.admissible.sign_mul_operand
  refine ⟨q.sign * (⌊q.operand v⌋ + w), ?_, ?_⟩
  · rw [h.returns.low.toRat_eq, h.returns.fraction.toRat_eq]
    rw [Set.mem_uIcc] at hmem ⊢
    -- a negative sign exchanges the two ends
    rcases q.sign_cases with hs | hs <;> rw [hs]
    · push_cast
      exact hmem.imp (fun h => ⟨by linarith [h.1], by linarith [h.2]⟩)
        fun h => ⟨by linarith [h.1], by linarith [h.2]⟩
    · push_cast
      exact hmem.symm.imp (fun h => ⟨by linarith [h.2], by linarith [h.1]⟩)
        fun h => ⟨by linarith [h.2], by linarith [h.1]⟩
  · have hsign : |(q.sign : ℚ)| = 1 := by exact_mod_cast q.abs_sign
    have heq : v - q.sign * (⌊q.operand v⌋ + w) =
        q.sign * (Int.fract (q.operand v) - w) := by
      linear_combination -(q.sign : ℚ) * hsplit - hvalue
    rwa [heq, abs_mul, hsign, one_mul]

/-- The other fraction bounds the error of the answer. -/
lemma abs_fraction_sub_le (h : q.Course v p m x n c o r) :
    |r.fraction.toRat - v| ≤ |r.fraction.toRat - r.low.toRat| + 1 / 2 ^ 50 := by
  obtain ⟨w, hw, hnear⟩ := h.exists_mem_uIcc
  rw [abs_sub_comm] at hnear
  calc |r.fraction.toRat - v|
      ≤ |r.fraction.toRat - w| + |w - v| := abs_sub_le _ _ _
    _ ≤ |r.fraction.toRat - r.low.toRat| + 1 / 2 ^ 50 :=
        add_le_add (Set.abs_sub_right_of_mem_uIcc hw) hnear

end Query.Course

/-- The value of a search is between the two fractions of every result, up to `2 ^ (-50)`. -/
structure Encloses (s : Settings) (a : Arguments) (v : ℚ) : Prop where
  exists_search : ∃ r, search s false a = .ok r
  /-- The closed interval of the two fractions has a number near the value. -/
  exists_mem {strict : Bool} {r : Reported Approximant} : search s strict a = .ok r →
    ∃ w ∈ Set.uIcc r.value.low.toRat r.value.fraction.toRat, |v - w| ≤ 1 / 2 ^ 50
  /-- So the distance of the two fractions bounds the error of the answer. -/
  abs_fraction_sub_le {strict : Bool} {r : Reported Approximant} : search s strict a = .ok r →
    |r.value.fraction.toRat - v| ≤ |r.value.fraction.toRat - r.value.low.toRat| + 1 / 2 ^ 50

/-- **No search loses its value**, stopped or not. -/
theorem encloses_of_accepted {flag : Bool} {a : Arguments} {v p : ℚ} {m : ℤ} {policy : Splitting}
    (ha : a.Accepted (.rational leastPrecision) v p m policy) :
    Encloses { warnOnOverflow := .boolean flag } a v := by
  refine ⟨ha.exists_search flag, ?_, ?_⟩
  · intro strict r hr
    obtain ⟨q, t, n, c, o, -, h⟩ := ha.exists_course hr
    exact h.exists_mem_uIcc
  · intro strict r hr
    obtain ⟨q, t, n, c, o, -, h⟩ := ha.exists_course hr
    exact h.abs_fraction_sub_le

/-- The search for the double nearest to `-π`, floored, under the largest ceiling. -/
theorem encloses_negPi :
    (Arguments.negPi (2 ^ 63) .floor).Accepted (.rational leastPrecision) negPi (1 / 2 ^ 40)
        (2 ^ 63) .floor ∧
      Encloses { warnOnOverflow := .boolean true } (.negPi (2 ^ 63) .floor) negPi := by
  have ha := accepted_negPi (2 ^ 63) .floor (by norm_num) le_rfl
  exact ⟨ha, encloses_of_accepted ha⟩

end Mediant
