import Mediant.Fault

/-!
# Greatest common divisors and lowest terms

`euclid` is the Euclidean algorithm on natural numbers; `euclid_eq_gcd` identifies it with the
greatest common divisor.  `greatestCommonDivisor` applies it to the absolute values of two
integers and refuses a pair of zeros, of which every number is a common divisor.

`lowestTerms` divides a numerator and a nonzero denominator by their greatest common divisor and
moves the sign to the numerator, so that the denominator comes out positive.  Zero is `0 / 1`.
-/

namespace Mediant

/-- The Euclidean algorithm: replace the pair by the second number and the remainder until the
remainder is zero. -/
def euclid (x y : Nat) : Nat :=
  if _h : y = 0 then x else euclid y (x % y)
termination_by y
decreasing_by exact Nat.mod_lt _ (Nat.pos_of_ne_zero _h)

theorem euclid_eq_gcd (x y : Nat) : euclid x y = Nat.gcd x y := by
  fun_induction euclid x y with
  | case1 x => simp
  | case2 x y h ih => rw [ih, Nat.gcd_comm y, ← Nat.gcd_rec, Nat.gcd_comm]

/-- The greatest common divisor of the absolute values, if one of them is not zero. -/
def greatestCommonDivisor (x y : Int) : Except Fault Nat :=
  if x = 0 ∧ y = 0 then .error .gcdOfZeros else .ok (euclid x.natAbs y.natAbs)

/-- Numerator and denominator in lowest terms, for a denominator that is not zero. -/
def lowestTerms (num denom : Int) : Int × Int :=
  if num = 0 then (0, 1)
  else
    let divisor : Int := euclid num.natAbs denom.natAbs
    if denom < 0 then (-(num / divisor), -(denom / divisor)) else (num / divisor, denom / divisor)

/-- A positive divisor leaves the sign of the number that it divides. -/
theorem ediv_pos_iff_of_dvd {g n : Int} (hg : 0 < g) (h : g ∣ n) : 0 < n / g ↔ 0 < n := by
  obtain ⟨k, rfl⟩ := h
  rw [Int.mul_ediv_cancel_left k (Int.ne_of_gt hg)]
  constructor
  · exact Int.mul_pos hg
  · intro hpos
    refine Decidable.byContradiction fun hk => ?_
    have : 0 ≤ g * -k := Int.mul_nonneg (Int.le_of_lt hg) (by omega)
    rw [Int.mul_neg] at this
    omega

/-- The denominator in lowest terms is positive. -/
theorem lowestTerms_denom_pos (num : Int) {denom : Int} (h : denom ≠ 0) :
    0 < (lowestTerms num denom).2 := by
  have hpos : (0 : Int) < (euclid num.natAbs denom.natAbs : Int) := by
    rw [euclid_eq_gcd]
    exact Int.ofNat_lt.mpr (Nat.gcd_pos_of_pos_right _ (Int.natAbs_pos.mpr h))
  have hdvd : (euclid num.natAbs denom.natAbs : Int) ∣ denom := by
    rw [euclid_eq_gcd]
    exact Int.ofNat_dvd_left.mpr (Nat.gcd_dvd_right _ _)
  unfold lowestTerms
  split
  · exact Int.one_pos
  · dsimp only
    split
    · rw [← Int.neg_ediv_of_dvd hdvd]
      exact (ediv_pos_iff_of_dvd hpos (Int.dvd_neg.mpr hdvd)).mpr (by omega)
    · exact (ediv_pos_iff_of_dvd hpos hdvd).mpr (by omega)

end Mediant
