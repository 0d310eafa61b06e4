import Mediant.Binary64.Arithmetic
import Mediant.Proofs.Rounding.Nearest

/-!
# Rounding as a function of rational numbers

`roundOff q` is the rational number that `rounded q` denotes, were there no largest double.  As
long as it stays below `2 ^ 1024` it is the value of that double (`rounded_of_lt`); from there on
the double is an infinity (`rounded_of_le`).  With it, a computation in doubles becomes a
computation in rational numbers in which some results pass through `roundOff`.

The facts that all later arguments use are these four.

* `roundOff_mono`: rounding keeps the order.
* `Representable.roundOff_eq`: it fixes what 53 bits can express, the integers up to `2 ^ 53` among
  them.
* `roundOff_neg`: it commutes with the sign.
* `abs_roundOff_sub_le`: its error is at most one part in `2 ^ 53`, plus a tiny constant that
  covers the lowest binades.
-/

namespace Mediant
namespace Binary64

/-! ## The smallest unit -/

/-- The scale on which the significand one stands for the number one. -/
@[irreducible] def unitScale : ℕ := 1074

lemma unitScale_eq : unitScale = 1074 := by
  unfold unitScale
  rfl

lemma unitsPerOne_eq : unitsPerOne = 2 ^ unitScale := by
  unfold unitScale
  exact Nat.one_shiftLeft _

lemma unitsPerOne_pos : (0 : ℚ) < unitsPerOne := by
  rw [unitsPerOne_eq]
  positivity

/-- Half the smallest positive double: the rounding error in the lowest binades. -/
@[irreducible] def tiny : ℚ := 1 / 2 / unitsPerOne

lemma tiny_pos : 0 < tiny := by
  rw [tiny]
  exact div_pos (by norm_num) unitsPerOne_pos

lemma tiny_le : tiny ≤ 1 / 2 ^ 200 := by
  have h : (2 : ℚ) ^ 200 ≤ unitsPerOne := by
    rw [unitsPerOne_eq]
    have : 2 ^ 200 ≤ 2 ^ unitScale :=
      Nat.pow_le_pow_right (by norm_num) (by rw [unitScale_eq]; norm_num)
    exact_mod_cast this
  rw [tiny, div_le_iff₀ unitsPerOne_pos, div_mul_eq_mul_div, le_div_iff₀ (by positivity)]
  linarith

lemma tiny_le_two_pow {k : ℕ} (hk : k ≤ 200) : tiny ≤ 1 / 2 ^ k :=
  tiny_le.trans (one_div_le_one_div_of_le (by positivity)
    (pow_le_pow_right₀ one_le_two hk))

/-! ## Rounding -/

/-- The rational number nearest to `q` that has a significand of 53 bits and a scale from zero
on, a tie going to the even significand. -/
@[irreducible] def roundOff (q : ℚ) : ℚ :=
  (if q < 0 then -1 else 1) * (nearestUnits (q.num.natAbs * unitsPerOne) q.den / unitsPerOne)

/-- A rational number that 53 bits and a scale from zero on can express. -/
def Representable (q : ℚ) : Prop := ∃ y : ℕ, Short y ∧ |q| * unitsPerOne = y

/-- The magnitude of a rational number, counted in units. -/
lemma natAbs_mul_div_den (q : ℚ) :
    ((q.num.natAbs * unitsPerOne : ℕ) : ℚ) / q.den = |q| * unitsPerOne := by
  have hq : |q| = (q.num.natAbs : ℚ) / q.den := by
    conv_lhs => rw [← Rat.num_div_den q]
    rw [abs_div, Nat.abs_cast, Nat.cast_natAbs, Int.cast_abs]
  rw [hq]
  push_cast
  ring

lemma abs_roundOff_sub_mul (q : ℚ) :
    |roundOff q - q| * unitsPerOne =
      |(nearestUnits (q.num.natAbs * unitsPerOne) q.den : ℚ) - |q| * unitsPerOne| := by
  have hU := unitsPerOne_pos
  rw [← abs_of_pos hU, ← abs_mul, abs_of_pos hU]
  rcases lt_or_ge q 0 with hq | hq
  · rw [roundOff, if_pos hq, abs_of_neg hq, ← abs_neg]
    congr 1
    field_simp
    ring
  · rw [roundOff, if_neg (not_lt.mpr hq), abs_of_nonneg hq]
    congr 1
    field_simp

/-- No representable number is nearer to `q` than `roundOff q`. -/
theorem abs_roundOff_sub_le_abs (q : ℚ) {r : ℚ} (hr : Representable r) :
    |roundOff q - q| ≤ |r - q| := by
  obtain ⟨y, hy, hry⟩ := hr
  have hU := unitsPerOne_pos
  refine le_of_mul_le_mul_right ?_ hU
  have hnear := abs_nearestUnits_sub_le (n := q.num.natAbs * unitsPerOne) q.den_pos hy
  rw [natAbs_mul_div_den, ← hry, ← sub_mul, abs_mul, abs_of_pos hU] at hnear
  rw [abs_roundOff_sub_mul]
  exact hnear.trans (mul_le_mul_of_nonneg_right (abs_abs_sub_abs_le r q) hU.le)

lemma Representable.roundOff_eq {q : ℚ} (hq : Representable q) : roundOff q = q := by
  have h := abs_roundOff_sub_le_abs q hq
  rw [sub_self, abs_zero, abs_nonpos_iff] at h
  linarith

/-- A number that is no further from the greater of two numbers lies above their middle. -/
lemma add_le_two_mul_of_abs_sub_le {x y p : ℚ} (hlt : y < x) (h : |x - p| ≤ |y - p|) :
    y + x ≤ 2 * p := by
  rcases abs_cases (x - p) with ⟨e1, f1⟩ | ⟨e1, f1⟩ <;>
    rcases abs_cases (y - p) with ⟨e2, f2⟩ | ⟨e2, f2⟩ <;> linarith

/-- A number that is no further from the smaller of two numbers lies below their middle. -/
lemma two_mul_le_add_of_abs_sub_le {x y p : ℚ} (hlt : y < x) (h : |y - p| ≤ |x - p|) :
    2 * p ≤ y + x := by
  rcases abs_cases (x - p) with ⟨e1, f1⟩ | ⟨e1, f1⟩ <;>
    rcases abs_cases (y - p) with ⟨e2, f2⟩ | ⟨e2, f2⟩ <;> linarith

lemma abs_roundOff (q : ℚ) :
    |roundOff q| * unitsPerOne = nearestUnits (q.num.natAbs * unitsPerOne) q.den := by
  have hU := unitsPerOne_pos
  have hsign : |if q < 0 then (-1 : ℚ) else 1| = 1 := by split <;> norm_num
  rw [roundOff, abs_mul, hsign, one_mul, abs_of_nonneg (div_nonneg (Nat.cast_nonneg _) hU.le)]
  field_simp

lemma representable_roundOff (q : ℚ) : Representable (roundOff q) :=
  ⟨_, short_nearestUnits _ _, abs_roundOff q⟩

/-- Rounding keeps what is representable, and nothing else. -/
lemma roundOff_eq_self_iff {q : ℚ} : roundOff q = q ↔ Representable q := by
  constructor
  · intro h
    rw [← h]
    exact representable_roundOff q
  · exact Representable.roundOff_eq

/-- Rounding keeps the order: of two nearest numbers in the wrong order, both would be nearest to
both arguments. -/
theorem roundOff_mono : Monotone roundOff := by
  intro p q hpq
  by_contra! hlt
  have hp := add_le_two_mul_of_abs_sub_le hlt
    (abs_roundOff_sub_le_abs p (representable_roundOff q))
  have hq := two_mul_le_add_of_abs_sub_le hlt
    (abs_roundOff_sub_le_abs q (representable_roundOff p))
  have : p = q := by linarith
  rw [this] at hlt
  exact lt_irrefl _ hlt

/-! ## Representable numbers -/

lemma Representable.neg {q : ℚ} (h : Representable q) : Representable (-q) := by
  simpa only [Representable, abs_neg] using h

lemma representable_intCast {n : ℤ} (h : |n| ≤ 2 ^ 53) : Representable (n : ℚ) := by
  rw [Int.abs_eq_natAbs] at h
  refine ⟨n.natAbs * 2 ^ unitScale, (short_of_le (by omega)).mul_two_pow unitScale, ?_⟩
  rw [← Int.cast_abs, Int.abs_eq_natAbs, unitsPerOne_eq, Nat.cast_mul, Int.cast_natCast]

lemma representable_zero : Representable 0 := by
  exact_mod_cast representable_intCast (n := 0) (by norm_num)

lemma representable_one : Representable 1 := by
  exact_mod_cast representable_intCast (n := 1) (by norm_num)

@[simp] lemma roundOff_zero : roundOff 0 = 0 := representable_zero.roundOff_eq

@[simp] lemma roundOff_one : roundOff 1 = 1 := representable_one.roundOff_eq

lemma Representable.le_roundOff {r q : ℚ} (hr : Representable r) (h : r ≤ q) : r ≤ roundOff q := by
  rw [← hr.roundOff_eq]
  exact roundOff_mono h

lemma Representable.roundOff_le {r q : ℚ} (hr : Representable r) (h : q ≤ r) : roundOff q ≤ r := by
  rw [← hr.roundOff_eq]
  exact roundOff_mono h

/-- What is below a representable number after rounding was so before. -/
lemma Representable.lt_of_roundOff_lt {r q : ℚ} (hr : Representable r) (h : roundOff q < r) :
    q < r :=
  lt_of_not_ge fun hle => absurd (hr.le_roundOff hle) (not_le.mpr h)

lemma Representable.lt_of_lt_roundOff {r q : ℚ} (hr : Representable r) (h : r < roundOff q) :
    r < q :=
  lt_of_not_ge fun hle => absurd (hr.roundOff_le hle) (not_le.mpr h)

lemma roundOff_nonneg {q : ℚ} (h : 0 ≤ q) : 0 ≤ roundOff q := representable_zero.le_roundOff h

@[simp] lemma roundOff_neg (q : ℚ) : roundOff (-q) = -roundOff q := by
  rcases lt_trichotomy q 0 with hq | rfl | hq
  · simp only [roundOff, Rat.num_neg_eq_neg_num, Int.natAbs_neg, Rat.den_neg_eq_den, if_pos hq,
      if_neg (by linarith : ¬ -q < 0)]
    ring
  · simp
  · simp only [roundOff, Rat.num_neg_eq_neg_num, Int.natAbs_neg, Rat.den_neg_eq_den,
      if_pos (by linarith : -q < 0), if_neg (by linarith : ¬ q < 0)]
    ring

lemma abs_roundOff_eq (q : ℚ) : |roundOff q| = roundOff |q| := by
  rcases le_total 0 q with hq | hq
  · rw [abs_of_nonneg hq, abs_of_nonneg (roundOff_nonneg hq)]
  · have hneg := roundOff_nonneg (neg_nonneg.mpr hq)
    rw [abs_of_nonpos hq, roundOff_neg, abs_of_nonpos]
    rwa [roundOff_neg, neg_nonneg] at hneg

lemma pos_of_roundOff_pos {q : ℚ} (h : 0 < roundOff q) : 0 < q :=
  representable_zero.lt_of_lt_roundOff h

/-! ## The error of rounding -/

lemma abs_roundOff_sub_le_max (q : ℚ) : |roundOff q - q| ≤ max tiny (|q| / 2 ^ 53) := by
  have hU := unitsPerOne_pos
  have h := abs_nearestUnits_sub_le_max (n := q.num.natAbs * unitsPerOne) q.den_pos
  rw [natAbs_mul_div_den, ← abs_roundOff_sub_mul] at h
  refine le_of_mul_le_mul_right (h.trans_eq ?_) hU
  rw [max_mul_of_nonneg _ _ hU.le, tiny]
  congr 1
  · field_simp
  · ring

lemma abs_roundOff_sub_le (q : ℚ) : |roundOff q - q| ≤ |q| / 2 ^ 53 + tiny := by
  have h0 : 0 ≤ |q| / 2 ^ 53 := by positivity
  have := tiny_pos
  refine (abs_roundOff_sub_le_max q).trans (max_le ?_ ?_) <;> linarith

/-- A representable number is moved away from another one at most twice as far by rounding. -/
lemma Representable.abs_roundOff_sub_le {r : ℚ} (hr : Representable r) (q : ℚ) :
    |roundOff q - r| ≤ 2 * |q - r| := by
  have hnear := abs_roundOff_sub_le_abs q hr
  rw [abs_sub_comm r q] at hnear
  calc |roundOff q - r| ≤ |roundOff q - q| + |q - r| := abs_sub_le _ _ _
    _ ≤ |q - r| + |q - r| := by linarith
    _ = 2 * |q - r| := by ring

/-- Away from zero the error is purely relative. -/
lemma abs_roundOff_sub_le_of_le {q : ℚ} (h : 1 / 2 ^ 100 ≤ |q|) :
    |roundOff q - q| ≤ |q| / 2 ^ 53 := by
  refine (abs_roundOff_sub_le_max q).trans (max_le ?_ le_rfl)
  calc tiny ≤ 1 / 2 ^ 153 := tiny_le_two_pow (by norm_num)
    _ = 1 / 2 ^ 100 / 2 ^ 53 := by norm_num
    _ ≤ |q| / 2 ^ 53 := div_le_div_of_nonneg_right h (by positivity)

/-- The error in rounding an integer is purely relative. -/
lemma abs_roundOff_intCast_sub_le (n : ℤ) : |roundOff n - n| ≤ |(n : ℚ)| / 2 ^ 53 := by
  by_cases hn : n = 0
  · simp [hn]
  · have hone : (1 : ℚ) ≤ |(n : ℚ)| := by
      exact_mod_cast Int.one_le_abs hn
    refine abs_roundOff_sub_le_of_le (le_trans ?_ hone)
    norm_num

/-- So is the error in rounding a quotient of integers, unless the divisor is huge. -/
lemma abs_roundOff_div_sub_le (m : ℤ) {n : ℤ} (hn : 0 < n) (hle : n ≤ 2 ^ 100) :
    |roundOff (m / n) - m / n| ≤ |(m / n : ℚ)| / 2 ^ 53 := by
  by_cases hm : m = 0
  · simp [hm]
  · have hnum : (1 : ℚ) ≤ |(m : ℚ)| := by
      exact_mod_cast Int.one_le_abs hm
    have hdenom : (0 : ℚ) < n := by exact_mod_cast hn
    refine abs_roundOff_sub_le_of_le ?_
    rw [abs_div, abs_of_pos hdenom]
    exact div_le_div₀ (abs_nonneg _) hnum hdenom (by exact_mod_cast hle)

/-! ## The values of doubles -/

/-- The first power of two beyond all doubles. -/
@[irreducible] def overflowValue : ℚ := overflowUnits / unitsPerOne

lemma overflowValue_eq_mul : overflowValue * unitsPerOne = overflowUnits := by
  have := unitsPerOne_pos
  rw [overflowValue]
  field_simp

lemma le_overflowValue : 2 ^ 200 ≤ overflowValue := by
  rw [overflowValue, le_div_iff₀ unitsPerOne_pos]
  have h : 2 ^ 200 * unitsPerOne ≤ overflowUnits := by
    have hs := unitScale_eq
    have hg := greatestScale_eq
    rw [unitsPerOne_eq, overflowUnits, ← pow_add, ← pow_add]
    exact Nat.pow_le_pow_right (by norm_num) (by omega)
  exact_mod_cast h

/-- The value of a finite double as a signed magnitude over the number of units in one. -/
lemma Finite.toRat_eq (x : Finite) :
    x.toRat = (if x.negative then -1 else 1) * (x.magnitude / unitsPerOne) := by
  rw [Finite.toRat, Rat.mkRat_eq_div, Finite.units]
  split
  · push_cast
    ring
  · push_cast
    ring

lemma Finite.abs_toRat (x : Finite) : |x.toRat| * unitsPerOne = x.magnitude := by
  have hU := unitsPerOne_pos
  have hsign : |if x.negative then (-1 : ℚ) else 1| = 1 := by split <;> norm_num
  rw [x.toRat_eq, abs_mul, hsign, one_mul,
    abs_of_nonneg (div_nonneg (Nat.cast_nonneg _) hU.le)]
  field_simp

lemma Finite.representable (x : Finite) : Representable x.toRat :=
  ⟨x.magnitude, x.short_magnitude, x.abs_toRat⟩

lemma Finite.abs_toRat_lt (x : Finite) : |x.toRat| < overflowValue := by
  refine lt_of_mul_lt_mul_right ?_ unitsPerOne_pos.le
  rw [x.abs_toRat, overflowValue_eq_mul]
  exact_mod_cast x.magnitude_lt

/-- A number that rounds below `2 ^ 1024` is rounded to a finite double. -/
theorem rounded_of_lt {q : ℚ} (negativeZero : Bool) (h : |roundOff q| < overflowValue) :
    ∃ x : Finite, rounded q negativeZero = .finite x ∧ x.toRat = roundOff q := by
  have hlt : nearestUnits (q.num.natAbs * unitsPerOne) q.den < overflowUnits := by
    have := mul_lt_mul_of_pos_right h unitsPerOne_pos
    rw [abs_roundOff, overflowValue_eq_mul] at this
    exact_mod_cast this
  obtain ⟨x, hx, hneg, hmag⟩ :=
    ofMagnitude_of_lt (if q = 0 then negativeZero else decide (q < 0)) hlt
  refine ⟨x, hx, ?_⟩
  rw [x.toRat_eq, hneg, hmag]
  by_cases hq : q = 0
  · have hzero : nearestUnits (q.num.natAbs * unitsPerOne) q.den = 0 := by
      have := abs_roundOff q
      rw [hq, roundOff_zero, abs_zero, zero_mul] at this
      rw [hq]
      exact_mod_cast this.symm
    rw [roundOff, hzero]
    simp
  · simp [roundOff, hq]

/-- A number that rounds to `2 ^ 1024` or beyond is rounded to an infinity. -/
theorem rounded_of_le {q : ℚ} (negativeZero : Bool) (h : overflowValue ≤ |roundOff q|) :
    rounded q negativeZero = .infinity (decide (q < 0)) := by
  have hle : overflowUnits ≤ nearestUnits (q.num.natAbs * unitsPerOne) q.den := by
    have := mul_le_mul_of_nonneg_right h unitsPerOne_pos.le
    rw [abs_roundOff, overflowValue_eq_mul] at this
    exact_mod_cast this
  have hq : q ≠ 0 := by
    rintro rfl
    rw [roundOff_zero, abs_zero] at h
    linarith [le_overflowValue]
  rw [rounded, if_neg hq]
  exact ofMagnitude_of_le _ hle

end Binary64
end Mediant
