import Mathlib.Data.Nat.Size
import Mediant.Proofs.Fraction.Reduction

/-!
# Greatest common divisors

Dividing with remainder until the remainder is zero leaves the greatest common divisor of the
absolute values.  For integers of any size this ends, and soon: two divisions bring the second
number below one half of what it was, so there are at most twice as many of them as it has binary
digits (`divisions_le`).

The loop exists twice.  `euclid` runs on natural numbers as long as it takes, and `divideOut` on
values of any sort as long as it may.  On integers the second one does as many divisions as the
first one and ends with the same number (`divideOut_eq`), unless it is stopped before that.

`GreatestCommon` says what the result is, and that a pair of zeros has none.
-/

namespace Mediant

/-! ## The number of divisions -/

/-- How many divisions the Euclidean algorithm makes. -/
def divisions (x y : ℕ) : ℕ :=
  if _h : y = 0 then 0 else divisions y (x % y) + 1
termination_by y
decreasing_by exact Nat.mod_lt _ (Nat.pos_of_ne_zero _h)

@[simp] lemma divisions_zero (x : ℕ) : divisions x 0 = 0 := by
  rw [divisions, dif_pos rfl]

lemma divisions_of_ne_zero (x : ℕ) {y : ℕ} (hy : y ≠ 0) :
    divisions x y = divisions y (x % y) + 1 := by
  rw [divisions, dif_neg hy]

/-- A remainder is less than half of the number that is divided. -/
lemma two_mul_mod_lt {x y : ℕ} (hy : y ≠ 0) (hle : y ≤ x) : 2 * (x % y) < x := by
  have hlt := Nat.mod_lt x (Nat.pos_of_ne_zero hy)
  have hrest : x % y ≤ x - y := by
    rw [Nat.mod_eq_sub_mod hle]
    exact Nat.mod_le _ _
  omega

lemma size_lt_size_of_two_mul_lt {m n : ℕ} (h : 2 * m < n) : m.size < n.size := by
  rw [Nat.lt_size]
  cases hsize : m.size with
  | zero =>
    rw [pow_zero]
    omega
  | succ k =>
    have hk : 2 ^ k ≤ m := Nat.lt_size.mp (by omega)
    rw [pow_succ]
    omega

/-- The Euclidean algorithm makes at most two divisions for each binary digit. -/
lemma divisions_le (x y : ℕ) : divisions x y ≤ 2 * y.size := by
  induction y using Nat.strong_induction_on generalizing x with
  | h y ih =>
    by_cases hy : y = 0
    · rw [hy, divisions_zero]
      exact Nat.zero_le _
    have hlt : x % y < y := Nat.mod_lt x (Nat.pos_of_ne_zero hy)
    have hsize : 0 < y.size := Nat.size_pos.mpr (Nat.pos_of_ne_zero hy)
    rw [divisions_of_ne_zero x hy]
    by_cases hrest : x % y = 0
    · rw [hrest, divisions_zero]
      omega
    · -- one division may save nothing, but the second remainder is below one half of `y`
      have hhalf := size_lt_size_of_two_mul_lt (two_mul_mod_lt hrest hlt.le)
      have hnext := ih (y % (x % y)) ((Nat.mod_lt y (Nat.pos_of_ne_zero hrest)).trans hlt) (x % y)
      rw [divisions_of_ne_zero y hrest]
      omega

/-! ## The loop on values -/

namespace Value

lemma divideOut_zero (x limit : ℕ) :
    divideOut (.integer x) (.integer 0) (limit + 1) = .ok (.integer x) := by
  have hzero : (Value.integer 0).equals (.integer 0) = .ok true := by
    rw [(IsInteger.integer 0).isRational.equals_iff (.integer 0)]
  rw [divideOut, hzero]
  rfl

/-- The second number, if not zero, takes the place of the first, and the remainder its own. -/
lemma divideOut_of_ne_zero (x limit : ℕ) {y : ℕ} (hy : y ≠ 0) :
    divideOut (.integer x) (.integer y) (limit + 1) =
      divideOut (.integer y) (.integer (x % y : ℕ)) limit := by
  have hne : (Value.integer y).equals (.integer 0) = .ok false := by
    rw [(IsInteger.integer y).isRational.equals_eq (.integer 0)]
    exact congrArg Except.ok (decide_eq_false (by exact_mod_cast hy))
  rw [divideOut, hne]
  rfl

/-- On natural numbers the loop ends with the result of the Euclidean algorithm, if it may make that
many divisions and look at the last remainder. -/
lemma divideOut_eq (x y limit : ℕ) : divideOut (.integer x) (.integer y) limit =
    if divisions x y < limit then .ok (.integer (euclid x y)) else .error .endless := by
  induction limit generalizing x y with
  | zero =>
    rw [divideOut, if_neg (Nat.not_lt_zero _)]
  | succ limit ih =>
    by_cases hy : y = 0
    · subst hy
      rw [Nat.cast_zero, divideOut_zero, divisions_zero, if_pos (Nat.succ_pos _), euclid,
        dif_pos rfl]
    · rw [divideOut_of_ne_zero x limit hy, ih, divisions_of_ne_zero x hy]
      conv_rhs => rw [euclid, dif_neg hy]
      simp only [Nat.add_lt_add_iff_right]

end Value

/-! ## The law -/

/-- What the greatest common divisor of two integers is. -/
structure GreatestCommon (v w : Value) (x y : ℤ) : Prop where
  /-- A pair of zeros is refused, and no other pair. -/
  refused_iff : (∃ fault, v.greatestCommonDivisor w = .error fault ∧ fault.kind = .zeroDivision) ↔
    x = 0 ∧ y = 0
  /-- There is no other fault. -/
  fault_eq {fault : Fault} : v.greatestCommonDivisor w = .error fault → fault = .gcdOfZeros
  /-- Every other pair gets a positive common divisor that all common divisors divide. -/
  exists_greatest : ¬(x = 0 ∧ y = 0) → ∃ g : ℕ, v.greatestCommonDivisor w = .ok (.integer g) ∧
    0 < g ∧ (g : ℤ) ∣ x ∧ (g : ℤ) ∣ y ∧ ∀ d : ℤ, d ∣ x → d ∣ y → d ∣ g
  /-- Dividing with remainder ends with it, after two divisions for each binary digit of the second
  number or before. -/
  loop {limit : ℕ} : ¬(x = 0 ∧ y = 0) → 2 * y.natAbs.size < limit →
    Value.divideOut (.integer |x|) (.integer |y|) limit = v.greatestCommonDivisor w
  symm : w.greatestCommonDivisor v = v.greatestCommonDivisor w
  /-- The signs make no difference. -/
  signs {v' w' : Value} {x' y' : ℤ} : v'.IsInteger x' → w'.IsInteger y' → |x'| = |x| → |y'| = |y| →
    v'.greatestCommonDivisor w' = v.greatestCommonDivisor w
  /-- The greatest common divisor with zero is the absolute value. -/
  zero_left : x = 0 → y ≠ 0 → v.greatestCommonDivisor w = .ok (.integer |y|)

/-- **Greatest common divisors exist and are greatest**, for all pairs of integers except two
zeros. -/
theorem greatestCommon_of_isInteger {v w : Value} {x y : ℤ} (hv : v.IsInteger x)
    (hw : w.IsInteger y) : GreatestCommon v w x y := by
  have hgcd := hv.greatestCommonDivisor_eq hw
  constructor
  · rw [hgcd]
    split
    · rename_i hzeros
      exact iff_of_true ⟨_, rfl, rfl⟩ hzeros
    · rename_i hzeros
      exact iff_of_false (fun ⟨_, hfault, _⟩ => nomatch hfault) hzeros
  · intro fault hfault
    rw [hgcd] at hfault
    split at hfault
    · exact (Except.error.inj hfault).symm
    · cases hfault
  · intro hzeros
    refine ⟨Int.gcd x y, by rw [hgcd, if_neg hzeros], Int.gcd_pos_iff.mpr ?_, Int.gcd_dvd_left ..,
      Int.gcd_dvd_right .., fun d => Int.dvd_coe_gcd⟩
    rwa [← not_and_or]
  · intro limit hzeros hlimit
    rw [hgcd, if_neg hzeros, Int.abs_eq_natAbs, Int.abs_eq_natAbs, Value.divideOut_eq,
      if_pos ((divisions_le _ _).trans_lt hlimit), euclid_eq_gcd]
    rfl
  · rw [hgcd, hw.greatestCommonDivisor_eq hv, Int.gcd_comm]
    simp only [and_comm]
  · intro v' w' x' y' hv' hw' hx hy
    have hx' := Int.natAbs_eq_natAbs_iff.mpr (abs_eq_abs.mp hx)
    have hy' := Int.natAbs_eq_natAbs_iff.mpr (abs_eq_abs.mp hy)
    have hzeros : x' = 0 ∧ y' = 0 ↔ x = 0 ∧ y = 0 := by
      rw [← Int.natAbs_eq_zero, ← Int.natAbs_eq_zero, hx', hy', Int.natAbs_eq_zero,
        Int.natAbs_eq_zero]
    have hdivisor : Int.gcd x' y' = Int.gcd x y := congrArg₂ Nat.gcd hx' hy'
    rw [hgcd, hv'.greatestCommonDivisor_eq hw', hdivisor]
    exact if_congr hzeros rfl rfl
  · rintro rfl hy
    rw [hgcd, if_neg fun hzeros => hy hzeros.2, Int.gcd_zero_left, Int.abs_eq_natAbs]

/-- Minus twelve and eighteen have the greatest common divisor six; the first division only
exchanges the two. -/
theorem greatestCommon_negTwelve_eighteen :
    (Value.integer (-12)).IsInteger (-12) ∧ (Value.integer 18).IsInteger 18 ∧
      GreatestCommon (.integer (-12)) (.integer 18) (-12) 18 ∧
      (Value.integer (-12)).greatestCommonDivisor (.integer 18) = .ok (.integer 6) := by
  have htwelve : (Value.integer (-12)).IsInteger (-12) := .integer (-12)
  have heighteen : (Value.integer 18).IsInteger 18 := .integer 18
  refine ⟨htwelve, heighteen, greatestCommon_of_isInteger htwelve heighteen, ?_⟩
  rw [htwelve.greatestCommonDivisor_eq heighteen, if_neg (by decide)]
  rfl

end Mediant
