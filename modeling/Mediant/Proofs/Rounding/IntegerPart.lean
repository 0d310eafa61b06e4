import Mathlib.Data.Rat.Floor
import Mediant.Proofs.Rounding.Operations

/-!
# Integer parts and remainders

A representable number is an integer, or it is small against `2 ^ 53` and a whole multiple of a
negative power of two (`Representable.integer_or`).  So its integer part is representable, and so
is the remainder of a number that is not negative: splitting such a number loses nothing.
-/

namespace Mediant
namespace Binary64

variable {q : ℚ}

/-- A whole multiple of a power of two, with at most 53 bits. -/
lemma representable_of_mul_two_pow {s j : ℕ} (hs : s ≤ 2 ^ 53) (hj : j ≤ unitScale)
    (h : |q| * 2 ^ j = s) : Representable q := by
  refine ⟨s * 2 ^ (unitScale - j), (short_of_le hs).mul_two_pow _, ?_⟩
  rw [unitsPerOne_eq]
  push_cast
  rw [← h, mul_assoc, ← pow_add, Nat.add_sub_cancel' hj]

namespace Representable

/-- What is not an integer has at most 53 bits, of which at least one is behind the point. -/
lemma integer_or (hq : Representable q) :
    (∃ n : ℤ, q = n) ∨ ∃ s j : ℕ, s ≤ 2 ^ 53 ∧ 0 < j ∧ j ≤ unitScale ∧ |q| * 2 ^ j = s := by
  obtain ⟨y, ⟨s, k, hs, rfl⟩, hy⟩ := hq
  rw [unitsPerOne_eq] at hy
  push_cast at hy
  rcases le_or_gt unitScale k with hk | hk
  · left
    have habs : |q| = (s * 2 ^ (k - unitScale) : ℕ) := by
      have hpow : (2 : ℚ) ^ k = 2 ^ (k - unitScale) * 2 ^ unitScale := by
        rw [← pow_add, Nat.sub_add_cancel hk]
      rw [hpow, ← mul_assoc] at hy
      push_cast
      exact mul_right_cancel₀ (by positivity) hy
    rcases abs_choice q with h | h
    · refine ⟨(s * 2 ^ (k - unitScale) : ℕ), ?_⟩
      rw [Int.cast_natCast, ← habs, h]
    · refine ⟨-(s * 2 ^ (k - unitScale) : ℕ), ?_⟩
      rw [Int.cast_neg, Int.cast_natCast, ← habs, h]
      ring
  · right
    refine ⟨s, unitScale - k, hs, Nat.sub_pos_of_lt hk, Nat.sub_le _ _, ?_⟩
    have hpow : (2 : ℚ) ^ unitScale = 2 ^ (unitScale - k) * 2 ^ k := by
      rw [← pow_add, Nat.sub_add_cancel hk.le]
    rw [hpow, ← mul_assoc] at hy
    exact mul_right_cancel₀ (by positivity) hy

lemma eq_intCast_or_abs_le (hq : Representable q) : (∃ n : ℤ, q = n) ∨ |q| ≤ 2 ^ 52 := by
  refine hq.integer_or.imp_right ?_
  rintro ⟨s, j, hs, hj, -, h⟩
  have htwo : (2 : ℚ) ≤ 2 ^ j := by
    calc (2 : ℚ) = 2 ^ 1 := (pow_one 2).symm
      _ ≤ 2 ^ j := pow_le_pow_right₀ one_le_two hj
  have hprod := mul_le_mul_of_nonneg_left htwo (abs_nonneg q)
  have hbits : (s : ℚ) ≤ 2 ^ 53 := by exact_mod_cast hs
  rw [h] at hprod
  linarith

lemma floor (hq : Representable q) : Representable (⌊q⌋ : ℚ) := by
  rcases hq.eq_intCast_or_abs_le with ⟨n, rfl⟩ | hle
  · rwa [Int.floor_intCast]
  · refine representable_intCast ?_
    rw [abs_le] at hle ⊢
    constructor
    · rw [Int.le_floor]
      push_cast
      linarith [hle.1]
    · have : (⌊q⌋ : ℚ) ≤ 2 ^ 53 := by linarith [Int.floor_le q, hle.2]
      exact_mod_cast this

lemma fract (hq : Representable q) (h0 : 0 ≤ q) : Representable (Int.fract q) := by
  rcases hq.integer_or with ⟨n, rfl⟩ | ⟨s, j, hs, -, hj, h⟩
  · rw [Int.fract_intCast]
    exact representable_zero
  · have hval : q = (s : ℚ) / (2 ^ j : ℕ) := by
      rw [abs_of_nonneg h0] at h
      rw [← h]
      push_cast
      field_simp
    rw [hval, Int.fract_div_natCast_eq_div_natCast_mod]
    refine representable_of_mul_two_pow ((Nat.mod_le s (2 ^ j)).trans hs) hj ?_
    rw [abs_of_nonneg (by positivity)]
    push_cast
    field_simp

lemma one_sub (hq : Representable q) (hhalf : 1 / 2 ≤ q) (h1 : q ≤ 1) : Representable (1 - q) := by
  rcases hq.integer_or with ⟨n, rfl⟩ | ⟨s, j, hs, -, hj, h⟩
  · have hpos : 0 < n := by
      exact_mod_cast (by linarith : (0 : ℚ) < n)
    have hle : n ≤ 1 := by exact_mod_cast h1
    obtain rfl : n = 1 := by omega
    simpa using representable_zero
  · rw [abs_of_nonneg (by linarith)] at h
    have hpow : (0 : ℚ) < 2 ^ j := by positivity
    have hle : s ≤ 2 ^ j := by
      have : (s : ℚ) ≤ 2 ^ j := by
        rw [← h]
        exact mul_le_of_le_one_left hpow.le h1
      exact_mod_cast this
    have hge : 2 ^ j ≤ 2 * s := by
      have : (2 : ℚ) ^ j ≤ 2 * s := by
        have := mul_le_mul_of_nonneg_right hhalf hpow.le
        linarith
      exact_mod_cast this
    refine representable_of_mul_two_pow (s := 2 ^ j - s) (by omega) hj ?_
    rw [abs_of_nonneg (by linarith), sub_mul, one_mul, h]
    push_cast [hle]
    rfl

/-- No representable number is closer to one, from below, than one part in `2 ^ 53`. -/
lemma le_of_lt_one (hq : Representable q) (h1 : q < 1) : q ≤ 1 - 1 / 2 ^ 53 := by
  rcases le_or_gt q 0 with hneg | hpos
  · linarith
  rcases hq.integer_or with ⟨n, rfl⟩ | ⟨s, j, hs, -, -, h⟩
  · have hn : n < 1 := by exact_mod_cast h1
    have hn' : 0 < n := by exact_mod_cast hpos
    omega
  rw [abs_of_pos hpos] at h
  have hpow : (0 : ℚ) < 2 ^ j := by positivity
  refine le_of_mul_le_mul_right ?_ hpow
  rw [h]
  rcases le_or_gt j 53 with hj | hj
  · have hlt : (s : ℚ) < 2 ^ j := by
      rw [← h]
      exact mul_lt_of_lt_one_left hpow h1
    have hsucc : (s : ℚ) + 1 ≤ 2 ^ j := by exact_mod_cast hlt
    have hle : (2 : ℚ) ^ j ≤ 2 ^ 53 := pow_le_pow_right₀ one_le_two hj
    linarith
  · have hge : (2 : ℚ) ^ 54 ≤ 2 ^ j := pow_le_pow_right₀ one_le_two hj
    have hbits : (s : ℚ) ≤ 2 ^ 53 := by exact_mod_cast hs
    linarith

end Representable

lemma Denotes.toDouble_floor {x : Binary64} (h : x.Denotes q) :
    ∃ y, Mediant.toDouble ⌊q⌋ = .ok y ∧ y.Denotes ⌊q⌋ := by
  have hrep := h.representable.floor
  have hrange : |roundOff (⌊q⌋ : ℚ)| < overflowValue := by
    rcases h.representable.eq_intCast_or_abs_le with ⟨n, rfl⟩ | hle
    · rw [hrep.roundOff_eq, Int.floor_intCast]
      exact h.abs_lt
    · refine abs_roundOff_lt_overflowValue ?_
      rw [abs_le] at hle ⊢
      constructor <;> linarith [Int.floor_le q, Int.lt_floor_add_one q, hle.1, hle.2]
  obtain ⟨y, hy, hyden⟩ := toDouble_eq hrange
  rw [hrep.roundOff_eq] at hyden
  exact ⟨y, hy, hyden⟩

end Binary64
end Mediant
