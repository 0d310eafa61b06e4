import Mediant.Proofs.Rounding.IntegerPart

/-!
# The rounded remainder

The remainder `Int.fract q` of a representable number is representable itself from zero on, and
again from minus one half down.  In between it is `q + 1`, which has its last bit at one part in
`2 ^ 53` while `q` may have bits far beyond that, so it is rounded, by at most half of that bit.

Just below zero the remainder is rounded to one (`roundOff_fract_lt_one_iff`): the middle between
one and the number before it is a tie, and the even significand is that of one.
-/

namespace Mediant
namespace Binary64

variable {q : ℚ}

/-! ## Just below a representable number -/

/-- Below the middle of two representable numbers nothing is rounded to the greater one. -/
lemma Representable.roundOff_lt {r s : ℚ} (hr : Representable r) (hlt : r < s)
    (h : q < (r + s) / 2) : roundOff q < s := by
  by_contra! hge
  have hnear := abs_roundOff_sub_le_abs q hr
  rw [abs_of_nonneg (by linarith)] at hnear
  rcases le_total r q with hle | hle
  · rw [abs_of_nonpos (by linarith)] at hnear
    linarith
  · rw [abs_of_nonneg (by linarith)] at hnear
    linarith

/-- The greatest double below one. -/
lemma representable_below_one : Representable (1 - 1 / 2 ^ 53) := by
  refine representable_of_mul_two_pow (s := 2 ^ 53 - 1) (j := 53) (by norm_num)
    (by rw [unitScale_eq]; norm_num) ?_
  rw [abs_of_nonneg (by norm_num)]
  norm_num

/-- The middle between one and the double below it is a tie, which goes to one. -/
lemma roundOff_middle_below_one : roundOff (1 - 1 / 2 ^ 54) = 1 := by
  decide +kernel

lemma roundOff_lt_one_iff : roundOff q < 1 ↔ q < 1 - 1 / 2 ^ 54 := by
  constructor
  · intro h
    by_contra! hge
    have hmono := roundOff_mono hge
    rw [roundOff_middle_below_one] at hmono
    exact absurd h (not_lt.mpr hmono)
  · intro h
    exact representable_below_one.roundOff_lt (by norm_num) (by linarith)

/-! ## From one half on -/

/-- A representable number from one half on has no bits beyond one part in `2 ^ 53`. -/
lemma Representable.exists_mul_eq_intCast (hq : Representable q) (hhalf : 1 / 2 ≤ |q|) :
    ∃ n : ℤ, q * 2 ^ 53 = n := by
  rcases hq.integer_or with ⟨n, rfl⟩ | ⟨s, j, hs, -, -, h⟩
  · exact ⟨n * 2 ^ 53, by push_cast; rfl⟩
  have habs : ∃ n : ℤ, |q| * 2 ^ 53 = n := by
    rcases le_or_gt j 53 with hj | hj
    · refine ⟨s * 2 ^ (53 - j), ?_⟩
      have hpow : (2 : ℚ) ^ 53 = 2 ^ j * 2 ^ (53 - j) := by
        rw [← pow_add, Nat.add_sub_cancel' hj]
      rw [hpow, ← mul_assoc, h]
      push_cast
      rfl
    · -- with more than 53 bits behind the point, only one half is large enough
      have hbits : (s : ℚ) ≤ 2 ^ 53 := by exact_mod_cast hs
      have hpow : (2 : ℚ) ^ 54 ≤ 2 ^ j := pow_le_pow_right₀ one_le_two hj
      have hprod := mul_le_mul_of_nonneg_left hpow (abs_nonneg q)
      have heq : |q| = 1 / 2 := by linarith
      exact ⟨2 ^ 52, by rw [heq]; norm_num⟩
  obtain ⟨n, hn⟩ := habs
  rcases abs_choice q with hsign | hsign
  · exact ⟨n, by rw [← hsign, hn]⟩
  · refine ⟨-n, ?_⟩
    rw [Int.cast_neg, ← hn, hsign]
    ring

/-- Between one half and one, nothing else is asked of a representable number. -/
lemma representable_iff_of_half_le (hhalf : 1 / 2 ≤ q) (h1 : q ≤ 1) :
    Representable q ↔ ∃ n : ℤ, q * 2 ^ 53 = n := by
  have habs : |q| = q := abs_of_nonneg (by linarith)
  constructor
  · intro hq
    exact hq.exists_mul_eq_intCast (by rwa [habs])
  · rintro ⟨n, hn⟩
    have hnonneg : (0 : ℚ) ≤ n := by
      rw [← hn]
      positivity
    have hle : (n : ℚ) ≤ 2 ^ 53 := by
      rw [← hn]
      linarith
    lift n to ℕ using by exact_mod_cast hnonneg
    refine representable_of_mul_two_pow (s := n) (j := 53) (by exact_mod_cast hle)
      (by rw [unitScale_eq]; norm_num) ?_
    rw [habs, hn, Int.cast_natCast]

/-- There, rounding changes a number by half of such a part at most. -/
lemma abs_roundOff_sub_le_of_half_le (hhalf : 1 / 2 ≤ q) (h1 : q ≤ 1) :
    |roundOff q - q| ≤ 1 / 2 ^ 54 := by
  obtain ⟨n, hn⟩ : ∃ n : ℤ, |q * 2 ^ 53 - n| ≤ 1 / 2 := ⟨_, abs_sub_round _⟩
  rw [abs_le] at hn
  have hge : 2 ^ 52 - 1 < n := by
    exact_mod_cast (by linarith [hn.2] : (2 ^ 52 - 1 : ℚ) < n)
  have hle : n < 2 ^ 53 + 1 := by
    exact_mod_cast (by linarith [hn.1] : (n : ℚ) < 2 ^ 53 + 1)
  have hge' : (2 ^ 52 : ℚ) ≤ n := by exact_mod_cast (by omega : 2 ^ 52 ≤ n)
  have hle' : (n : ℚ) ≤ 2 ^ 53 := by exact_mod_cast (by omega : n ≤ 2 ^ 53)
  have hrep : Representable (n / 2 ^ 53) :=
    (representable_iff_of_half_le (by rw [le_div_iff₀ (by positivity)]; linarith)
      (by rw [div_le_one (by positivity)]; exact hle')).mpr ⟨n, div_mul_cancel₀ _ (by positivity)⟩
  have hdist : (n : ℚ) / 2 ^ 53 - q = (n - q * 2 ^ 53) / 2 ^ 53 := by
    rw [sub_div, mul_div_cancel_right₀ _ (by positivity)]
  refine (abs_roundOff_sub_le_abs q hrep).trans ?_
  rw [hdist, abs_div, abs_of_pos (by positivity : (0 : ℚ) < 2 ^ 53), div_le_iff₀ (by positivity),
    abs_le]
  constructor <;> linarith [hn.1, hn.2]

/-! ## The remainder -/

lemma fract_eq_add_one (h0 : q < 0) (h1 : -1 ≤ q) : Int.fract q = q + 1 := by
  have hfloor : ⌊q⌋ = -1 := Int.floor_eq_iff.mpr ⟨by push_cast; linarith, by push_cast; linarith⟩
  rw [Int.fract, hfloor]
  push_cast
  ring

lemma half_le_roundOff_fract (hhalf : -1 / 2 < q) (h0 : q < 0) :
    1 / 2 ≤ roundOff (Int.fract q) := by
  have hrep : Representable (1 / 2) :=
    (representable_iff_of_half_le le_rfl (by norm_num)).mpr ⟨2 ^ 52, by norm_num⟩
  refine hrep.le_roundOff ?_
  rw [fract_eq_add_one h0 (by linarith)]
  linarith

lemma Representable.fract_of_le (hq : Representable q) (h : q ≤ -1 / 2) :
    Representable (Int.fract q) := by
  obtain ⟨n, hn⟩ := hq.exists_mul_eq_intCast (by rw [abs_of_neg (by linarith)]; linarith)
  have hquotient : q = n / (2 ^ 53 : ℕ) := by
    rw [← hn, Nat.cast_pow, Nat.cast_ofNat, mul_div_cancel_right₀ _ (by positivity)]
  have hmod : 0 ≤ n % (2 ^ 53 : ℕ) := Int.emod_nonneg _ (by norm_num)
  have hlt : n % (2 ^ 53 : ℕ) < (2 ^ 53 : ℕ) := Int.emod_lt_of_pos _ (by norm_num)
  rw [hquotient, Int.fract_div_intCast_eq_div_intCast_mod]
  generalize n % (2 ^ 53 : ℕ) = k at hmod hlt
  lift k to ℕ using hmod
  refine representable_of_mul_two_pow (s := k) (j := 53) (by omega)
    (by rw [unitScale_eq]; norm_num) ?_
  rw [Int.cast_natCast, abs_of_nonneg (by positivity), Nat.cast_pow, Nat.cast_ofNat,
    div_mul_cancel₀ _ (by positivity)]

/-- The remainder is representable except just below zero, where a number may have more bits than
its distance from minus one has room for. -/
lemma Representable.fract_iff (hq : Representable q) :
    Representable (Int.fract q) ↔ 0 ≤ q ∨ q ≤ -1 / 2 ∨ ∃ n : ℤ, q * 2 ^ 53 = n := by
  rcases le_or_gt 0 q with h0 | h0
  · exact iff_of_true (hq.fract h0) (.inl h0)
  rcases le_or_gt q (-1 / 2) with hhalf | hhalf
  · exact iff_of_true (hq.fract_of_le hhalf) (.inr (.inl hhalf))
  rw [fract_eq_add_one h0 (by linarith), representable_iff_of_half_le (by linarith) (by linarith)]
  constructor
  · rintro ⟨n, hn⟩
    refine .inr (.inr ⟨n - 2 ^ 53, ?_⟩)
    push_cast
    linarith
  · rintro (h | h | ⟨n, hn⟩)
    · exact absurd h (not_le.mpr h0)
    · exact absurd h (not_le.mpr hhalf)
    · refine ⟨n + 2 ^ 53, ?_⟩
      push_cast
      linarith

/-- Rounding changes the remainder by one part in `2 ^ 54` at most. -/
lemma Representable.abs_roundOff_fract_sub_le (hq : Representable q) :
    |roundOff (Int.fract q) - Int.fract q| ≤ 1 / 2 ^ 54 := by
  by_cases hexact : Representable (Int.fract q)
  · rw [hexact.roundOff_eq, sub_self, abs_zero]
    positivity
  · rw [hq.fract_iff, not_or, not_or, not_le, not_le] at hexact
    obtain ⟨h0, hhalf, -⟩ := hexact
    rw [fract_eq_add_one h0 (by linarith)]
    exact abs_roundOff_sub_le_of_half_le (by linarith) (by linarith)

/-- It is rounded to one exactly if the number is negative and not below minus one part in
`2 ^ 54`. -/
lemma Representable.roundOff_fract_lt_one_iff (hq : Representable q) :
    roundOff (Int.fract q) < 1 ↔ ¬(-(1 / 2 ^ 54) ≤ q ∧ q < 0) := by
  rcases le_or_gt 0 q with h0 | h0
  · rw [(hq.fract h0).roundOff_eq]
    exact iff_of_true (Int.fract_lt_one q) fun h => absurd h.2 (not_lt.mpr h0)
  rcases le_or_gt q (-1 / 2) with hhalf | hhalf
  · rw [(hq.fract_of_le hhalf).roundOff_eq]
    refine iff_of_true (Int.fract_lt_one q) fun h => ?_
    linarith [h.1]
  rw [roundOff_lt_one_iff, fract_eq_add_one h0 (by linarith), and_iff_left h0, not_le]
  constructor <;> intro h <;> linarith

end Binary64
end Mediant
