import Mathlib.Data.Rat.Floor
import Mediant.Conversion
import Mediant.Proofs.Rounding.RoundOff

/-!
# Doubles by their values

`Denotes x q` says that the double `x` is finite and has the value `q`.  The operations on doubles
are described through it: a sum denotes the rounded sum of what its terms denote, as long as that
stays in range, and so on.  Signs of zeros are invisible at this level.

Two quotients of a search can exceed the range of doubles.  `Saturates x q` therefore also admits
the positive infinity for a value that is out of range, and the operations on positive numbers and
the comparisons that such a quotient meets are described through it.
-/

namespace Mediant
namespace Binary64

/-- The double is finite and has the given value. -/
def Denotes (x : Binary64) (q : ℚ) : Prop := ∃ y : Finite, x = .finite y ∧ y.toRat = q

lemma denotes_finite (x : Finite) : Denotes (.finite x) x.toRat := ⟨x, rfl, rfl⟩

/-! ## Numbers in range -/

lemma representable_two_pow (k : ℕ) : Representable (2 ^ k) := by
  refine ⟨1 * 2 ^ (k + unitScale), ⟨1, k + unitScale, by norm_num, rfl⟩, ?_⟩
  rw [abs_of_nonneg (by positivity), unitsPerOne_eq, pow_add]
  push_cast
  ring

lemma representable_overflowValue : Representable overflowValue := by
  refine ⟨overflowUnits, ⟨2 ^ 53, greatestScale, le_rfl, rfl⟩, ?_⟩
  rw [abs_of_nonneg, overflowValue_eq_mul]
  exact le_trans (by positivity) le_overflowValue

/-- Rounding keeps bounds on the magnitude that are representable themselves. -/
lemma abs_roundOff_le {q r : ℚ} (hr : Representable r) (h : |q| ≤ r) : |roundOff q| ≤ r := by
  rw [abs_le] at h ⊢
  exact ⟨hr.neg.le_roundOff h.1, hr.roundOff_le h.2⟩

lemma abs_roundOff_lt_overflowValue {q : ℚ} (h : |q| ≤ 2 ^ 190) : |roundOff q| < overflowValue := by
  calc |roundOff q| ≤ 2 ^ 190 := abs_roundOff_le (representable_two_pow 190) h
    _ < 2 ^ 200 := by norm_num
    _ ≤ overflowValue := le_overflowValue

lemma denotes_rounded {q : ℚ} (negativeZero : Bool) (h : |q| ≤ 2 ^ 190) :
    Denotes (rounded q negativeZero) (roundOff q) :=
  rounded_of_lt negativeZero (abs_roundOff_lt_overflowValue h)

lemma Finite.negative_of_pos (x : Finite) (h : 0 < x.toRat) : x.negative = false := by
  by_contra hneg
  rw [Bool.not_eq_false] at hneg
  have hmag := div_nonneg (Nat.cast_nonneg (α := ℚ) x.magnitude) unitsPerOne_pos.le
  rw [x.toRat_eq, if_pos hneg] at h
  linarith

lemma denotes_zero (negative : Bool) : Denotes (zero negative) 0 := by
  refine ⟨Finite.zero negative, rfl, ?_⟩
  rw [Finite.toRat, Finite.units_zero, Rat.zero_mkRat]

lemma denotes_one : Denotes one 1 := by
  have h : Denotes (ofInt 1) (roundOff ((1 : ℤ) : ℚ)) := denotes_rounded false (by norm_num)
  rwa [Int.cast_one, roundOff_one] at h

namespace Denotes

variable {x y : Binary64} {p q : ℚ}

lemma representable (h : Denotes x q) : Representable q := by
  obtain ⟨y, -, rfl⟩ := h
  exact y.representable

lemma abs_lt (h : Denotes x q) : |q| < overflowValue := by
  obtain ⟨y, -, rfl⟩ := h
  exact y.abs_toRat_lt

lemma toExtended (h : Denotes x q) : x.toExtended = .rational q := by
  obtain ⟨y, rfl, rfl⟩ := h
  rfl

lemma isFinite (h : Denotes x q) : x.isFinite = true := by
  obtain ⟨y, rfl, -⟩ := h
  rfl

lemma unique (h : Denotes x p) (h' : Denotes x q) : p = q := by
  obtain ⟨y, rfl, rfl⟩ := h
  obtain ⟨z, hz, rfl⟩ := h'
  rw [Binary64.finite.inj hz]

lemma lt (hx : Denotes x p) (hy : Denotes y q) : x.lt y = decide (p < q) := by
  rw [Binary64.lt, hx.toExtended, hy.toExtended, Extended.lt_rational]

lemma le (hx : Denotes x p) (hy : Denotes y q) : x.le y = decide (p ≤ q) := by
  rw [Binary64.le, hx.toExtended, hy.toExtended, Extended.le_rational]

lemma neg (h : Denotes x q) : Denotes x.neg (-q) := by
  obtain ⟨y, rfl, rfl⟩ := h
  refine ⟨y.neg, rfl, ?_⟩
  rw [Finite.toRat, Finite.units_neg, Finite.toRat, Rat.mkRat_eq_div, Rat.mkRat_eq_div]
  push_cast
  ring

lemma abs (h : Denotes x q) : Denotes x.abs |q| := by
  obtain ⟨y, rfl, rfl⟩ := h
  refine ⟨y.abs, rfl, ?_⟩
  have hU := unitsPerOne_pos
  have hy : |y.toRat| = y.magnitude / unitsPerOne := by
    rw [← y.abs_toRat]
    field_simp
  rw [hy, Finite.toRat_eq, if_neg (by simp [Finite.abs]), one_mul]
  rfl

/-- Only the two zeros have the value zero. -/
lemma isZero (h : Denotes x q) : x.isZero = decide (q = 0) := by
  obtain ⟨y, rfl, rfl⟩ := h
  have hU := unitsPerOne_pos
  have hmag := y.abs_toRat
  have hiff : y.significand = 0 ↔ y.toRat = 0 := by
    constructor
    · intro hs
      rw [y.magnitude_eq, hs, zero_mul, Nat.cast_zero, mul_eq_zero] at hmag
      exact abs_eq_zero.mp (hmag.resolve_right hU.ne')
    · intro hz
      rw [hz, abs_zero, zero_mul, y.magnitude_eq] at hmag
      have hprod : y.significand * 2 ^ y.scale = 0 := by exact_mod_cast hmag.symm
      exact (Nat.mul_eq_zero.mp hprod).resolve_right (by positivity)
  simp only [Binary64.isZero, Finite.isZero, hiff]

/-! ## Arithmetic -/

lemma add (hx : Denotes x p) (hy : Denotes y q) (h : |roundOff (p + q)| < overflowValue) :
    Denotes (x.add y) (roundOff (p + q)) := by
  obtain ⟨x, rfl, rfl⟩ := hx
  obtain ⟨y, rfl, rfl⟩ := hy
  exact rounded_of_lt _ h

lemma sub (hx : Denotes x p) (hy : Denotes y q) (h : |roundOff (p - q)| < overflowValue) :
    Denotes (x.sub y) (roundOff (p - q)) := by
  rw [sub_eq_add_neg] at h ⊢
  exact hx.add hy.neg h

lemma mul (hx : Denotes x p) (hy : Denotes y q) (h : |roundOff (p * q)| < overflowValue) :
    Denotes (x.mul y) (roundOff (p * q)) := by
  obtain ⟨x, rfl, rfl⟩ := hx
  obtain ⟨y, rfl, rfl⟩ := hy
  exact rounded_of_lt _ h

/-! ## Integers -/

lemma toInteger_floor (h : Denotes x q) : x.toInteger Finite.floor = .ok ⌊q⌋ := by
  obtain ⟨y, rfl, rfl⟩ := h
  rfl

lemma toInteger_truncate (h : Denotes x q) (hq : 0 ≤ q) :
    x.toInteger Finite.truncate = .ok ⌊q⌋ := by
  obtain ⟨y, rfl, rfl⟩ := h
  simp only [toInteger, Finite.truncate, if_neg (not_lt.mpr hq)]
  rfl

end Denotes

/-- The finite doubles are those that denote a number. -/
lemma isFinite_iff {x : Binary64} : x.isFinite = true ↔ ∃ q, Denotes x q := by
  constructor
  · intro h
    cases x with
    | finite y => exact ⟨y.toRat, denotes_finite y⟩
    | infinity s => cases h
    | nan => cases h
  · rintro ⟨q, h⟩
    exact h.isFinite

lemma denotes_of_toExtended {x : Binary64} {q : ℚ} (h : x.toExtended = .rational q) :
    Denotes x q := by
  cases x with
  | finite y => exact ⟨y, rfl, Extended.rational.inj h⟩
  | infinity s => cases s <;> cases h
  | nan => cases h

/-- The double nearest to an integer. -/
lemma toDouble_eq {n : ℤ} (h : |roundOff n| < overflowValue) :
    ∃ x, Mediant.toDouble n = .ok x ∧ Denotes x (roundOff n) := by
  obtain ⟨y, hy, hval⟩ := rounded_of_lt false h
  refine ⟨.finite y, ?_, y, rfl, hval⟩
  have hof : ofInt n = .finite y := hy
  rw [Mediant.toDouble, hof, orFault_finite]

/-- What an integer converts to is the nearest double. -/
lemma denotes_of_toDouble_eq_ok {n : ℤ} {x : Binary64} (h : Mediant.toDouble n = .ok x) :
    Denotes x (roundOff n) := by
  rcases lt_or_ge |roundOff (n : ℚ)| overflowValue with hlt | hge
  · obtain ⟨y, hy, hden⟩ := toDouble_eq hlt
    rw [h] at hy
    rwa [Except.ok.inj hy]
  · have hof : ofInt n = .infinity (decide ((n : ℚ) < 0)) := rounded_of_le false hge
    rw [Mediant.toDouble, hof, orFault_infinity] at h
    cases h

/-! ## Numbers that may be out of range -/

/-- The double has the given value, or is the positive infinity and the value is out of range. -/
def Saturates (x : Binary64) (q : ℚ) : Prop :=
  Denotes x q ∨ (overflowValue ≤ q ∧ x = .infinity false)

lemma overflowValue_pos : 0 < overflowValue := lt_of_lt_of_le (by positivity) le_overflowValue

lemma saturates_rounded {q : ℚ} (negativeZero : Bool) (hq : 0 ≤ q) :
    Saturates (rounded q negativeZero) (roundOff q) := by
  by_cases h : |roundOff q| < overflowValue
  · exact .inl (rounded_of_lt negativeZero h)
  · rw [rounded_of_le negativeZero (not_lt.mp h), decide_eq_false (not_lt.mpr hq)]
    rw [abs_of_nonneg (roundOff_nonneg hq), not_lt] at h
    exact .inr ⟨h, rfl⟩

namespace Saturates

variable {x y : Binary64} {p q : ℚ}

lemma toExtended (h : Saturates x q) :
    x.toExtended = if q < overflowValue then .rational q else .top := by
  rcases h with h | ⟨hq, rfl⟩
  · rw [h.toExtended, if_pos (lt_of_abs_lt h.abs_lt)]
  · rw [if_neg (not_lt.mpr hq)]
    rfl

/-- Comparing two such numbers compares their values, if one of them is in range. -/
lemma lt (hx : Saturates x p) (hy : Saturates y q) (h : p < overflowValue ∨ q < overflowValue) :
    x.lt y = decide (p < q) := by
  rw [Binary64.lt, hx.toExtended, hy.toExtended]
  by_cases hp : p < overflowValue <;> by_cases hq : q < overflowValue
  · rw [if_pos hp, if_pos hq, Extended.lt_rational]
  · rw [if_pos hp, if_neg hq]
    exact (decide_eq_true (hp.trans_le (not_lt.mp hq))).symm
  · rw [if_neg hp, if_pos hq]
    exact (decide_eq_false fun hpq => hp (hpq.trans hq)).symm
  · exact absurd h (by simp only [hp, hq, or_self, not_false_eq_true])

/-- A bound in range is compared with the value. -/
lemma ge_rational (h : Saturates x q) {m : ℚ} (hm : m < overflowValue) :
    (Extended.rational m).le x.toExtended = decide (m ≤ q) := by
  rw [h.toExtended]
  by_cases hq : q < overflowValue
  · rw [if_pos hq, Extended.le_rational]
  · rw [if_neg hq]
    exact (decide_eq_true (hm.le.trans (not_lt.mp hq))).symm

lemma denotes_of_lt (h : Saturates x q) (hq : q < overflowValue) : Denotes x q :=
  h.resolve_right fun h' => absurd hq (not_lt.mpr h'.1)

lemma add (hx : Saturates x p) (hp : 0 ≤ p) (hy : Denotes y q) (hq : 0 ≤ q) :
    Saturates (x.add y) (roundOff (p + q)) := by
  obtain ⟨y, rfl, rfl⟩ := hy
  rcases hx with ⟨x, rfl, rfl⟩ | ⟨hover, rfl⟩
  · exact saturates_rounded _ (add_nonneg hp hq)
  · refine .inr ⟨representable_overflowValue.le_roundOff ?_, rfl⟩
    linarith

lemma mul (hx : Saturates x p) (hp : 0 ≤ p) (hy : Denotes y q) (hq : 1 ≤ q) :
    Saturates (x.mul y) (roundOff (p * q)) := by
  have hzero := hy.isZero
  obtain ⟨y, rfl, rfl⟩ := hy
  rcases hx with ⟨x, rfl, rfl⟩ | ⟨hover, rfl⟩
  · exact saturates_rounded _ (mul_nonneg hp (by linarith))
  · refine .inr ⟨representable_overflowValue.le_roundOff ?_, ?_⟩
    · calc overflowValue ≤ p := hover
        _ ≤ p * y.toRat := le_mul_of_one_le_right hp hq
    · have hpos : y.negative = false := y.negative_of_pos (by linarith)
      rw [decide_eq_false (by linarith)] at hzero
      simp only [Binary64.isZero] at hzero
      simp only [Binary64.mul, hzero, hpos, Bool.false_eq_true, if_false, Bool.xor_self]

/-- The quotient of positive numbers. -/
lemma div (hx : Denotes x p) (hy : Denotes y q) (hp : 0 ≤ p) (hq : 0 < q) :
    ∃ z, x.divide y = .ok z ∧ Saturates z (roundOff (p / q)) := by
  have hzero := hy.isZero
  rw [decide_eq_false hq.ne'] at hzero
  refine ⟨x.div y, ?_, ?_⟩
  · rw [divide, if_neg (by rw [hzero]; exact Bool.false_ne_true)]
  · obtain ⟨x, rfl, rfl⟩ := hx
    obtain ⟨y, rfl, rfl⟩ := hy
    simp only [Binary64.isZero] at hzero
    simp only [Binary64.div, hzero, Bool.false_eq_true, if_false]
    exact saturates_rounded _ (div_nonneg hp hq.le)

end Saturates

/-! ## Numbers that are not below zero -/

/-- The double is not below zero; not-a-number is not. -/
def NotNegative (x : Binary64) : Prop :=
  x = .nan ∨ x = .infinity false ∨ ∃ q, Denotes x q ∧ 0 ≤ q

/-- What is not below a positive number is not below zero. -/
lemma notNegative_of_lt_eq_false {x y : Binary64} {q : ℚ} (hy : Denotes y q) (hq : 0 < q)
    (h : x.lt y = false) : NotNegative x := by
  match x with
  | .nan => exact .inl rfl
  | .infinity false => exact .inr (.inl rfl)
  | .infinity true =>
    rw [Binary64.lt, hy.toExtended] at h
    cases h
  | .finite x =>
    rw [(denotes_finite x).lt hy, decide_eq_false_iff_not, not_lt] at h
    exact .inr (.inr ⟨x.toRat, denotes_finite x, hq.le.trans h⟩)

lemma NotNegative.divide {x y z : Binary64} (hx : NotNegative x) (hy : NotNegative y)
    (h : x.divide y = .ok z) : NotNegative z := by
  unfold Binary64.divide at h
  split at h
  · cases h
  · rename_i hzero
    rw [← Except.ok.inj h]
    rcases hx with rfl | rfl | ⟨p, ⟨x, rfl, rfl⟩, hp⟩
    · exact .inl rfl
    · rcases hy with rfl | rfl | ⟨q, ⟨y, rfl, rfl⟩, hq⟩
      · exact .inl rfl
      · exact .inl rfl
      · have hne : y.toRat ≠ 0 := by
          intro h0
          rw [(denotes_finite y).isZero, decide_eq_true h0] at hzero
          exact hzero rfl
        have hsign := y.negative_of_pos (lt_of_le_of_ne hq hne.symm)
        right; left
        simp only [Binary64.div, hsign, Bool.xor_self]
    · rcases hy with rfl | rfl | ⟨q, hy, hq⟩
      · exact .inl rfl
      · exact .inr (.inr ⟨0, denotes_zero _, le_rfl⟩)
      · have hne : q ≠ 0 := by
          intro h0
          rw [hy.isZero, decide_eq_true h0] at hzero
          exact hzero rfl
        obtain ⟨w, hw, hsat⟩ :=
          Saturates.div (denotes_finite x) hy hp (lt_of_le_of_ne hq hne.symm)
        unfold Binary64.divide at hw
        rw [if_neg hzero] at hw
        rw [Except.ok.inj hw]
        rcases hsat with hden | ⟨-, rfl⟩
        · exact .inr (.inr ⟨_, hden, roundOff_nonneg (div_nonneg hp hq)⟩)
        · exact .inr (.inl rfl)

lemma NotNegative.toInteger {x : Binary64} {n : ℤ} (hx : NotNegative x)
    (h : x.toInteger Finite.truncate = .ok n) : 0 ≤ n := by
  rcases hx with rfl | rfl | ⟨q, hden, hq⟩
  · cases h
  · cases h
  · rw [hden.toInteger_truncate hq] at h
    rw [← Except.ok.inj h]
    exact Int.floor_nonneg.mpr hq

end Binary64
end Mediant
