import Mathlib.Tactic
import Mediant.Binary64.Rounding

/-!
# Rounding a magnitude to 53 bits

`ofMagnitude` rounds a quotient `n / d` of natural numbers to a significand and a scale, and turns
into an infinity when the scale is out of range.  This file looks at the number before the range
check, `nearestUnits n d`: the significand times two to the scale, counted in units.

A magnitude is `Short` if it is at most `2 ^ 53` times a power of two.  The magnitudes of finite
doubles are short, and so is every result of rounding.  The main statement is
`abs_nearestUnits_sub_le`: no short magnitude is nearer to `n / d` than `nearestUnits n d`.  Since
the range check only looks at the rounded number (`ofMagnitude_of_lt`, `ofMagnitude_of_le`), all
order properties of rounding follow from this one.
-/

namespace Mediant

/-- Rounding a quotient to an integer is off by at most one half. -/
lemma abs_roundHalfEven_sub_le (n : ℕ) {d : ℕ} (hd : 0 < d) :
    |(roundHalfEven n d : ℚ) - n / d| ≤ 1 / 2 := by
  have hd' : (0 : ℚ) < d := by exact_mod_cast hd
  have hdecomp : (n : ℚ) = d * (n / d : ℕ) + (n % d : ℕ) := by
    exact_mod_cast (Nat.div_add_mod n d).symm
  have hquot : (n : ℚ) / d = (n / d : ℕ) + (n % d : ℕ) / d := by
    rw [hdecomp]
    field_simp
  have hlt : (n % d : ℕ) < d := Nat.mod_lt n hd
  rw [hquot, abs_le]
  unfold roundHalfEven
  split
  · rename_i hlow
    have h2 : 2 * ((n % d : ℕ) : ℚ) ≤ d := by
      exact_mod_cast hlow.elim Nat.le_of_lt (fun h => Nat.le_of_eq h.1)
    have hhalf : ((n % d : ℕ) : ℚ) / d ≤ 1 / 2 := by
      rw [div_le_iff₀ hd']
      linarith
    have hnonneg : 0 ≤ ((n % d : ℕ) : ℚ) / d := by positivity
    constructor <;> linarith
  · rename_i hhigh
    have h2 : (d : ℚ) ≤ 2 * ((n % d : ℕ) : ℚ) := by
      exact_mod_cast Nat.not_lt.mp fun h => hhigh (.inl h)
    have hhalf : 1 / 2 ≤ ((n % d : ℕ) : ℚ) / d := by
      rw [le_div_iff₀ hd']
      linarith
    have hone : ((n % d : ℕ) : ℚ) / d ≤ 1 := by
      rw [div_le_one hd']
      exact_mod_cast hlt.le
    push_cast
    constructor <;> linarith

/-- No natural number is nearer to a quotient than the one that it is rounded to. -/
lemma abs_roundHalfEven_sub_le_abs (n : ℕ) {d : ℕ} (hd : 0 < d) (k : ℕ) :
    |(roundHalfEven n d : ℚ) - n / d| ≤ |(k : ℚ) - n / d| := by
  by_cases hk : k = roundHalfEven n d
  · rw [hk]
  · have herr := abs_roundHalfEven_sub_le n hd
    have hone : (1 : ℚ) ≤ |(k : ℚ) - roundHalfEven n d| := by
      have : (1 : ℤ) ≤ |(k : ℤ) - roundHalfEven n d| := Int.one_le_abs (by omega)
      exact_mod_cast this
    have htri := abs_sub_le (k : ℚ) (n / d) (roundHalfEven n d)
    rw [abs_sub_comm ((n : ℚ) / d)] at htri
    linarith

namespace Binary64

/-- The magnitude `n / d`, in units, rounded to 53 bits on the scale of its binade, whatever that
scale is. -/
def nearestUnits (n d : ℕ) : ℕ := significandFor n d * 2 ^ scaleFor n d

/-- A magnitude, in units, that 53 bits and a scale can express. -/
def Short (y : ℕ) : Prop := ∃ m s : ℕ, m ≤ 2 ^ 53 ∧ y = m * 2 ^ s

lemma short_nearestUnits (n d : ℕ) : Short (nearestUnits n d) :=
  ⟨_, _, significandFor_le n d, rfl⟩

lemma short_of_le {y : ℕ} (h : y ≤ 2 ^ 53) : Short y := ⟨y, 0, h, by simp⟩

lemma Short.mul_two_pow {y : ℕ} (h : Short y) (k : ℕ) : Short (y * 2 ^ k) := by
  obtain ⟨m, s, hm, rfl⟩ := h
  exact ⟨m, s + k, hm, by rw [pow_add, mul_assoc]⟩

/-- A magnitude whose scale is not zero is at least the first value of its binade. -/
lemma two_pow_le_of_scaleFor_ne_zero {n d : ℕ} (hd : 0 < d) (h : scaleFor n d ≠ 0) :
    (2 : ℚ) ^ 52 * 2 ^ scaleFor n d ≤ n / d := by
  have hlog : Nat.log2 (n / d) = 52 + scaleFor n d := by unfold scaleFor at *; omega
  have hne : n / d ≠ 0 := by
    intro hz
    rw [hz] at hlog
    simp at hlog
    omega
  have hnat : 2 ^ (52 + scaleFor n d) * d ≤ n := by
    rw [← Nat.le_div_iff_mul_le hd, ← hlog]
    exact Nat.log2_self_le hne
  rw [← pow_add, le_div_iff₀ (by exact_mod_cast hd)]
  exact_mod_cast hnat

/-- The significand is the magnitude over two to the scale, rounded to an integer. -/
lemma nearestUnits_sub {n d : ℕ} (hd : 0 < d) (k : ℕ) :
    |(k : ℚ) * 2 ^ scaleFor n d - n / d| =
      2 ^ scaleFor n d * |(k : ℚ) - n / (d <<< scaleFor n d : ℕ)| := by
  have hd' : (d : ℚ) ≠ 0 := by exact_mod_cast hd.ne'
  have hpow : (0 : ℚ) < 2 ^ scaleFor n d := by positivity
  rw [← abs_of_pos hpow, ← abs_mul, abs_of_pos hpow, Nat.shiftLeft_eq]
  congr 1
  push_cast
  field_simp

lemma shiftLeft_pos {d : ℕ} (hd : 0 < d) (s : ℕ) : 0 < d <<< s := by
  rw [Nat.shiftLeft_eq]
  positivity

/-- Rounding is off by at most half a unit on the scale of the binade. -/
lemma abs_nearestUnits_sub_le_scale {n d : ℕ} (hd : 0 < d) :
    |(nearestUnits n d : ℚ) - n / d| ≤ 2 ^ scaleFor n d / 2 := by
  have herr := abs_roundHalfEven_sub_le n (shiftLeft_pos hd (scaleFor n d))
  have hpow : (0 : ℚ) < 2 ^ scaleFor n d := by positivity
  unfold nearestUnits
  push_cast
  rw [nearestUnits_sub hd]
  unfold significandFor
  linarith [mul_le_mul_of_nonneg_left herr hpow.le]

/-- No short magnitude is nearer to `n / d` than the one that it is rounded to. -/
theorem abs_nearestUnits_sub_le {n d : ℕ} (hd : 0 < d) {y : ℕ} (hy : Short y) :
    |(nearestUnits n d : ℚ) - n / d| ≤ |(y : ℚ) - n / d| := by
  obtain ⟨m, t, hm, rfl⟩ := hy
  -- Multiples of `2 ^ scaleFor n d` are compared by their significands.
  have hgrid : ∀ k : ℕ, |(nearestUnits n d : ℚ) - n / d| ≤
      |(k : ℚ) * 2 ^ scaleFor n d - n / d| := by
    intro k
    unfold nearestUnits
    push_cast
    rw [nearestUnits_sub hd, nearestUnits_sub hd]
    exact mul_le_mul_of_nonneg_left
      (abs_roundHalfEven_sub_le_abs n (shiftLeft_pos hd _) k) (by positivity)
  rcases le_or_gt (scaleFor n d) t with hst | hts
  · have h := hgrid (m * 2 ^ (t - scaleFor n d))
    push_cast at h ⊢
    rwa [mul_assoc, ← pow_add, Nat.sub_add_cancel hst] at h
  -- A short magnitude on a lower scale does not reach into the binade of `n / d`.
  · have hfirst := two_pow_le_of_scaleFor_ne_zero (n := n) hd (by omega)
    have hbelow : ((m * 2 ^ t : ℕ) : ℚ) ≤ 2 ^ 52 * 2 ^ scaleFor n d := by
      have : m * 2 ^ t ≤ 2 ^ 52 * 2 ^ scaleFor n d := by
        calc m * 2 ^ t ≤ 2 ^ 53 * 2 ^ t := Nat.mul_le_mul_right _ hm
          _ = 2 ^ 52 * 2 ^ (t + 1) := by ring
          _ ≤ 2 ^ 52 * 2 ^ scaleFor n d :=
            Nat.mul_le_mul_left _ (Nat.pow_le_pow_right (by norm_num) hts)
      exact_mod_cast this
    have h := hgrid (2 ^ 52)
    rw [Nat.cast_pow, Nat.cast_ofNat] at h
    push_cast at hbelow ⊢
    rw [abs_of_nonpos (by linarith : (2 : ℚ) ^ 52 * 2 ^ scaleFor n d - n / d ≤ 0)] at h
    rw [abs_of_nonpos (by linarith : (m : ℚ) * 2 ^ t - n / d ≤ 0)]
    linarith

/-- Rounding is off by at most half a unit in the lowest binades, and elsewhere by at most one part
in `2 ^ 53`. -/
theorem abs_nearestUnits_sub_le_max {n d : ℕ} (hd : 0 < d) :
    |(nearestUnits n d : ℚ) - n / d| ≤ max (1 / 2) ((n : ℚ) / d / 2 ^ 53) := by
  have h := abs_nearestUnits_sub_le_scale (n := n) hd
  by_cases hs : scaleFor n d = 0
  · rw [hs] at h
    exact le_max_of_le_left (by simpa using h)
  · have hfirst := two_pow_le_of_scaleFor_ne_zero (n := n) hd hs
    refine le_max_of_le_right (h.trans ?_)
    rw [le_div_iff₀ (by positivity)]
    linarith

/-! ## The range check -/

/-- The greatest scale of a double.  The numeral stays folded, so that powers of two with this
exponent are never written out. -/
@[irreducible] def greatestScale : ℕ := 2045

lemma greatestScale_eq : greatestScale = 2045 := by
  unfold greatestScale
  rfl

/-- The first magnitude, in units, that is beyond all doubles. -/
def overflowUnits : ℕ := 2 ^ 53 * 2 ^ greatestScale

lemma Finite.magnitude_eq (x : Finite) : x.magnitude = x.significand * 2 ^ x.scale :=
  Nat.shiftLeft_eq _ _

lemma Finite.short_magnitude (x : Finite) : Short x.magnitude :=
  ⟨_, _, x.significand_lt.le, x.magnitude_eq⟩

lemma Finite.magnitude_lt (x : Finite) : x.magnitude < overflowUnits := by
  rw [x.magnitude_eq, overflowUnits]
  calc x.significand * 2 ^ x.scale < 2 ^ 53 * 2 ^ x.scale :=
        Nat.mul_lt_mul_of_pos_right x.significand_lt (by positivity)
    _ ≤ 2 ^ 53 * 2 ^ greatestScale :=
        Nat.mul_le_mul_left _ (Nat.pow_le_pow_right (by norm_num) (x.scale_le.trans
          greatestScale_eq.ge))

lemma ofMagnitude_of_lt (negative : Bool) {n d : ℕ} (h : nearestUnits n d < overflowUnits) :
    ∃ x : Finite, ofMagnitude negative n d = .finite x ∧ x.negative = negative ∧
      x.magnitude = nearestUnits n d := by
  have hscale : ∀ j : ℕ, 2 ^ j ≤ significandFor n d →
      j + scaleFor n d < 53 + greatestScale := by
    intro j hj
    refine (Nat.pow_lt_pow_iff_right (a := 2) (by norm_num)).mp ?_
    calc 2 ^ (j + scaleFor n d) = 2 ^ j * 2 ^ scaleFor n d := pow_add _ _ _
      _ ≤ significandFor n d * 2 ^ scaleFor n d := Nat.mul_le_mul_right _ hj
      _ < 2 ^ 53 * 2 ^ greatestScale := h
      _ = 2 ^ (53 + greatestScale) := (pow_add _ _ _).symm
  have htop := greatestScale_eq
  unfold ofMagnitude
  by_cases hcarry : significandFor n d = 0x20000000000000
  · have hs : scaleFor n d + 1 ≤ 2045 := by
      have := hscale 53 hcarry.ge
      omega
    rw [dif_pos hcarry, dif_pos hs]
    refine ⟨_, rfl, rfl, ?_⟩
    rw [Finite.magnitude_eq, nearestUnits, hcarry, pow_succ]
    ring
  · have hs : scaleFor n d ≤ 2045 := by
      by_cases hz : scaleFor n d = 0
      · omega
      · have := hscale 52 (le_significandFor hz)
        omega
    rw [dif_neg hcarry, dif_pos hs]
    exact ⟨_, rfl, rfl, Finite.magnitude_eq _⟩

lemma ofMagnitude_of_le (negative : Bool) {n d : ℕ} (h : overflowUnits ≤ nearestUnits n d) :
    ofMagnitude negative n d = .infinity negative := by
  have hle := significandFor_le n d
  have htop := greatestScale_eq
  have hscale : greatestScale ≤ scaleFor n d := by
    refine (Nat.pow_le_pow_iff_right (a := 2) (by norm_num)).mp ?_
    refine Nat.le_of_mul_le_mul_left (h.trans ?_) (show 0 < 2 ^ 53 by norm_num)
    exact Nat.mul_le_mul_right _ hle
  unfold ofMagnitude
  by_cases hcarry : significandFor n d = 0x20000000000000
  · rw [dif_pos hcarry, dif_neg (by omega)]
  · rw [dif_neg hcarry, dif_neg]
    intro hs
    have heq : scaleFor n d = greatestScale := by omega
    rw [nearestUnits, overflowUnits, heq] at h
    have := Nat.le_of_mul_le_mul_right h (Nat.two_pow_pos greatestScale)
    omega

end Binary64
end Mediant
