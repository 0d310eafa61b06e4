import Mediant.Binary64.Basic

/-!
# Rounding a rational number to a double

Every inexact operation on doubles in this library is one exact computation on rationals followed
by one call of `rounded`, which returns a nearest double and breaks ties toward the even
significand.  Magnitudes too large for a double become infinities.

The magnitude is taken as a quotient `n / d` of natural numbers, in units.  `scaleFor n d` is the
scale of the binade that holds it, so that `n / (d <<< scale)` has 53 bits before the point, or
fewer in the lowest binades, where the scale stops at zero and the result is subnormal.  Rounding
that quotient to an integer gives the significand.  The one exception is a quotient that rounds up
to `2 ^ 53`: the result is then the first double of the next binade.
-/

namespace Mediant

/-- The quotient `n / d` rounded to the nearest natural number, a tie going to the even one. -/
def roundHalfEven (n d : Nat) : Nat :=
  if 2 * (n % d) < d ∨ (2 * (n % d) = d ∧ n / d % 2 = 0) then n / d else n / d + 1

theorem div_le_roundHalfEven (n d : Nat) : n / d ≤ roundHalfEven n d := by
  unfold roundHalfEven
  split
  · exact Nat.le_refl _
  · exact Nat.le_succ _

theorem roundHalfEven_le (n d : Nat) : roundHalfEven n d ≤ n / d + 1 := by
  unfold roundHalfEven
  split
  · exact Nat.le_succ _
  · exact Nat.le_refl _

namespace Binary64

/-- The scale of the binade that holds the magnitude `n / d`, counted in units. -/
def scaleFor (n d : Nat) : Nat := Nat.log2 (n / d) - 52

/-- The significand that the magnitude `n / d` rounds to in its own binade. -/
def significandFor (n d : Nat) : Nat := roundHalfEven n (d <<< scaleFor n d)

/-- Rounding moves a significand at most up to the first value of the next binade. -/
theorem significandFor_le (n d : Nat) : significandFor n d ≤ 0x20000000000000 := by
  have hr := roundHalfEven_le n (d <<< scaleFor n d)
  have hq : n / d < 2 ^ (52 + scaleFor n d + 1) := by
    have hlog : n / d < 2 ^ (Nat.log2 (n / d) + 1) := Nat.lt_log2_self
    refine Nat.lt_of_lt_of_le hlog (Nat.pow_le_pow_right (by decide) ?_)
    unfold scaleFor
    omega
  have hdiv : n / (d <<< scaleFor n d) < 2 ^ 53 := by
    rw [Nat.shiftLeft_eq, ← Nat.div_div_eq_div_mul, Nat.div_lt_iff_lt_mul (Nat.two_pow_pos _),
      ← Nat.pow_add]
    exact Nat.lt_of_lt_of_le hq (Nat.pow_le_pow_right (by decide) (by omega))
  unfold significandFor
  omega

/-- Above the lowest binades a significand has all its 53 bits. -/
theorem le_significandFor {n d : Nat} (h : scaleFor n d ≠ 0) :
    0x10000000000000 ≤ significandFor n d := by
  have hr := div_le_roundHalfEven n (d <<< scaleFor n d)
  have hlog : Nat.log2 (n / d) = 52 + scaleFor n d := by unfold scaleFor at *; omega
  have hne : n / d ≠ 0 := by
    intro hz
    rw [hz] at hlog
    simp at hlog
    omega
  have hdiv : 2 ^ 52 ≤ n / (d <<< scaleFor n d) := by
    rw [Nat.shiftLeft_eq, ← Nat.div_div_eq_div_mul,
      Nat.le_div_iff_mul_le (Nat.two_pow_pos _), ← Nat.pow_add,
      ← hlog]
    exact Nat.log2_self_le hne
  exact Nat.le_trans hdiv hr

/-- The double nearest to the magnitude `n / d`, counted in units, with the given sign. -/
def ofMagnitude (negative : Bool) (n d : Nat) : Binary64 :=
  if hcarry : significandFor n d = 0x20000000000000 then
    if hs : scaleFor n d + 1 ≤ 2045 then
      .finite ⟨negative, 0x10000000000000, scaleFor n d + 1, by decide, hs,
        .inr (Nat.le_refl _)⟩
    else .infinity negative
  else if hs : scaleFor n d ≤ 2045 then
    .finite ⟨negative, significandFor n d, scaleFor n d,
      Nat.lt_of_le_of_ne (significandFor_le n d) hcarry, hs,
      (Decidable.em (scaleFor n d = 0)).imp_right le_significandFor⟩
  else .infinity negative

/-- The double nearest to a rational number, ties to even.  A result of zero keeps the sign of a
nonzero number; an exact zero takes the sign that the caller names. -/
def rounded (q : Rat) (negativeZero : Bool) : Binary64 :=
  ofMagnitude (if q = 0 then negativeZero else decide (q < 0)) (q.num.natAbs * unitsPerOne) q.den

end Binary64
end Mediant
