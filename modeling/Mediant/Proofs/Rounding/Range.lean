import Mediant.Proofs.Rounding.Operations

/-!
# Where the range of doubles ends

The first power of two beyond all doubles is `2 ^ 1024`, and the greatest double is one part in
`2 ^ 53` below it.  A number is rounded to that power or beyond exactly from the middle of the two
on (`abs_roundOff_lt_iff`): the middle itself is a tie, and the even significand is the one out of
range.
-/

namespace Mediant
namespace Binary64

variable {q : ℚ}

lemma overflowValue_eq : overflowValue = 2 ^ 1024 := by
  have hunits : ((overflowUnits : ℕ) : ℚ) = 2 ^ 1024 * unitsPerOne := by
    rw [overflowUnits, greatestScale_eq, unitsPerOne_eq, unitScale_eq, ← pow_add, Nat.cast_pow,
      Nat.cast_pow, Nat.cast_ofNat, ← pow_add]
  rw [overflowValue, hunits, mul_div_cancel_right₀ _ unitsPerOne_pos.ne']

/-- The least number that is rounded to a number out of range: the middle between the greatest
double and `2 ^ 1024`. -/
@[irreducible] def threshold : ℚ := (((2 ^ 54 - 1) * 2 ^ 970 : ℕ) : ℚ)

lemma threshold_eq : threshold = 2 ^ 1024 - 2 ^ 970 := by
  rw [threshold, Nat.cast_mul, Nat.cast_sub (by norm_num), Nat.cast_pow, Nat.cast_pow,
    Nat.cast_ofNat, Nat.cast_one, sub_mul, one_mul, ← pow_add]

/-- The greatest double. -/
lemma representable_greatest : Representable (overflowValue - 2 ^ 971) := by
  have hvalue : overflowValue - 2 ^ 971 = (2 ^ 53 - 1) * 2 ^ 971 := by
    rw [overflowValue_eq, sub_mul, one_mul, ← pow_add]
  refine ⟨(2 ^ 53 - 1) * 2 ^ (971 + unitScale), ⟨2 ^ 53 - 1, _, by norm_num, rfl⟩, ?_⟩
  rw [hvalue, abs_of_nonneg (by positivity), unitsPerOne_eq, Nat.cast_mul,
    Nat.cast_sub (by norm_num), Nat.cast_pow, Nat.cast_pow, Nat.cast_pow, Nat.cast_ofNat,
    Nat.cast_one, mul_assoc, ← pow_add]

/-- In units, the threshold is a tie between an odd significand and the even one out of range. -/
lemma nearestUnits_threshold : nearestUnits ((2 ^ 54 - 1) * 2 ^ 970 * 2 ^ 1074) 1 =
    2 ^ 53 * 2 ^ 2045 := by
  decide +kernel

lemma roundOff_threshold : roundOff threshold = overflowValue := by
  have hnonneg : 0 ≤ threshold := by
    rw [threshold]
    exact Nat.cast_nonneg _
  have hunits : |roundOff threshold| * unitsPerOne = overflowUnits := by
    rw [abs_roundOff, overflowUnits, greatestScale_eq, ← nearestUnits_threshold, unitsPerOne_eq,
      unitScale_eq, threshold, Rat.num_natCast, Rat.den_natCast, Int.natAbs_natCast]
  rw [abs_of_nonneg (roundOff_nonneg hnonneg), ← overflowValue_eq_mul] at hunits
  exact mul_right_cancel₀ unitsPerOne_pos.ne' hunits

/-- A number is rounded to one in range exactly if it is below the threshold. -/
theorem abs_roundOff_lt_iff : |roundOff q| < overflowValue ↔ |q| < threshold := by
  constructor
  · intro h
    by_contra! hge
    have hmono := roundOff_mono hge
    rw [roundOff_threshold, ← abs_roundOff_eq] at hmono
    exact absurd h (not_lt.mpr hmono)
  · intro h
    by_contra! hover
    -- rounding would go further than to the greatest double
    have hnear := abs_roundOff_sub_le_abs |q| representable_greatest
    rw [abs_roundOff_eq] at hover
    rw [threshold_eq, ← overflowValue_eq] at h
    have hpow : (2 : ℚ) ^ 971 = 2 ^ 970 + 2 ^ 970 := by
      rw [← two_mul, ← pow_succ']
    have hpos : (0 : ℚ) < 2 ^ 970 := by positivity
    rw [hpow] at hnear
    generalize (2 : ℚ) ^ 970 = half at h hnear hpos
    rw [abs_of_pos (by linarith : 0 < roundOff |q| - |q|)] at hnear
    rcases abs_cases (overflowValue - (half + half) - |q|) with ⟨heq, -⟩ | ⟨heq, -⟩
    · linarith
    · linarith

end Binary64
end Mediant
