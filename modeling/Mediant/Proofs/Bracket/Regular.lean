import Mathlib.Tactic
import Mediant.Bracket

/-!
# Regular brackets

A bracket is *regular* for a seed if its denominators are no smaller than the seed and its
determinant is the seed.  The cells of the starting lattice are regular, and both kinds of
refinement keep a bracket regular, however many copies they add (`Regular.refineHigh`,
`Regular.refineLow`).

The bounds of a regular bracket are in order, and a refinement stays within the bracket that it
refines: a bound made of copies of two others lies between them.
-/

namespace Mediant

namespace Bound

/-- The rational number that a bound denotes. -/
def toRat (a : Bound ℤ) : ℚ := a.num / a.denom

variable {a b : Bound ℤ} {n : ℤ} {c : ℚ}

lemma toRat_le_iff (h : 0 < a.denom) : a.toRat ≤ c ↔ (a.num : ℚ) ≤ c * a.denom :=
  div_le_iff₀ (by exact_mod_cast h)

lemma le_toRat_iff (h : 0 < a.denom) : c ≤ a.toRat ↔ c * a.denom ≤ (a.num : ℚ) :=
  le_div_iff₀ (by exact_mod_cast h)

/-- Between zero and an integer, the numerator is at most that many times the denominator. -/
lemma abs_num_le {k : ℤ} (h : 0 < a.denom) (h0 : 0 ≤ a.toRat) (hk : a.toRat ≤ k) :
    |a.num| ≤ k * a.denom := by
  rw [le_toRat_iff h, zero_mul] at h0
  rw [toRat_le_iff h] at hk
  have hnonneg : 0 ≤ a.num := by exact_mod_cast h0
  rw [abs_of_nonneg hnonneg]
  exact_mod_cast hk

lemma combine_denom_pos (hn : 0 ≤ n) (ha : 0 < a.denom) (hb : 0 < b.denom) :
    0 < (combine n a b).denom := by
  simp only [combine, Denominator.combine_int]
  have := mul_nonneg hn ha.le
  omega

lemma toRat_combine_le (hn : 0 ≤ n) (ha : 0 < a.denom) (hb : 0 < b.denom) (hac : a.toRat ≤ c)
    (hbc : b.toRat ≤ c) : (combine n a b).toRat ≤ c := by
  have hn' : (0 : ℚ) ≤ n := by exact_mod_cast hn
  rw [toRat_le_iff ha] at hac
  rw [toRat_le_iff hb] at hbc
  rw [toRat_le_iff (combine_denom_pos hn ha hb)]
  simp only [combine, Denominator.combine_int]
  push_cast
  linarith [mul_le_mul_of_nonneg_left hac hn']

lemma le_toRat_combine (hn : 0 ≤ n) (ha : 0 < a.denom) (hb : 0 < b.denom) (hac : c ≤ a.toRat)
    (hbc : c ≤ b.toRat) : c ≤ (combine n a b).toRat := by
  have hn' : (0 : ℚ) ≤ n := by exact_mod_cast hn
  rw [le_toRat_iff ha] at hac
  rw [le_toRat_iff hb] at hbc
  rw [le_toRat_iff (combine_denom_pos hn ha hb)]
  simp only [combine, Denominator.combine_int]
  push_cast
  linarith [mul_le_mul_of_nonneg_left hac hn']

end Bound

namespace Bracket

/-- The denominators are at least the seed, and the determinant is the seed. -/
structure Regular (seed : ℤ) (b : Bracket ℤ) : Prop where
  seed_le_low : seed ≤ b.low.denom
  seed_le_high : seed ≤ b.high.denom
  determinant_eq : b.determinant = seed

/-- The bounds of a bracket lie between the bounds of another one. -/
structure Within (b outer : Bracket ℤ) : Prop where
  low_le : outer.low.toRat ≤ b.low.toRat
  le_high : b.high.toRat ≤ outer.high.toRat

lemma Within.refl (b : Bracket ℤ) : b.Within b := ⟨le_rfl, le_rfl⟩

lemma Within.trans {b c d : Bracket ℤ} (hbc : b.Within c) (hcd : c.Within d) : b.Within d :=
  ⟨hcd.low_le.trans hbc.low_le, hbc.le_high.trans hcd.le_high⟩

lemma regular_cell (seed k : ℤ) : (cell seed k).Regular seed :=
  ⟨le_rfl, le_rfl, determinant_cell seed k⟩

namespace Regular

variable {seed n : ℤ} {b : Bracket ℤ}

lemma low_denom_pos (h : b.Regular seed) (hs : 0 < seed) : 0 < b.low.denom :=
  hs.trans_le h.seed_le_low

lemma high_denom_pos (h : b.Regular seed) (hs : 0 < seed) : 0 < b.high.denom :=
  hs.trans_le h.seed_le_high

/-- The bounds differ by the seed over the product of their denominators. -/
lemma high_sub_low (h : b.Regular seed) (hs : 0 < seed) :
    b.high.toRat - b.low.toRat = seed / (b.high.denom * b.low.denom) := by
  have hlow : (b.low.denom : ℚ) ≠ 0 := by exact_mod_cast (h.low_denom_pos hs).ne'
  have hhigh : (b.high.denom : ℚ) ≠ 0 := by exact_mod_cast (h.high_denom_pos hs).ne'
  have hdet : (b.high.num : ℚ) * b.low.denom - b.low.num * b.high.denom = seed := by
    exact_mod_cast h.determinant_eq
  rw [Bound.toRat, Bound.toRat, ← hdet]
  field_simp

lemma low_lt_high (h : b.Regular seed) (hs : 0 < seed) : b.low.toRat < b.high.toRat := by
  have hlow : (0 : ℚ) < b.low.denom := by exact_mod_cast h.low_denom_pos hs
  have hhigh : (0 : ℚ) < b.high.denom := by exact_mod_cast h.high_denom_pos hs
  have hseed : (0 : ℚ) < seed := by exact_mod_cast hs
  have hsub := h.high_sub_low hs
  have hpos : 0 < (seed : ℚ) / (b.high.denom * b.low.denom) := by positivity
  linarith

lemma refineHigh (h : b.Regular seed) (hs : 0 < seed) (hn : 0 ≤ n) :
    (b.refineHigh n).Regular seed := by
  have hlow := h.seed_le_low
  have hhigh := h.seed_le_high
  have hcopies := mul_nonneg hn (h.low_denom_pos hs).le
  refine ⟨?_, ?_, (determinant_refineHigh b n).trans h.determinant_eq⟩ <;>
    simp only [Bracket.refineHigh, Bound.combine, Denominator.combine_int] <;> omega

lemma refineLow (h : b.Regular seed) (hs : 0 < seed) (hn : 0 ≤ n) :
    (b.refineLow n).Regular seed := by
  have hlow := h.seed_le_low
  have hhigh := h.seed_le_high
  have hcopies := mul_nonneg hn (h.high_denom_pos hs).le
  refine ⟨?_, ?_, (determinant_refineLow b n).trans h.determinant_eq⟩ <;>
    simp only [Bracket.refineLow, Bound.combine, Denominator.combine_int] <;> omega

lemma refineHigh_within (h : b.Regular seed) (hs : 0 < seed) (hn : 0 ≤ n) :
    (b.refineHigh n).Within b := by
  have hlow := h.low_denom_pos hs
  have hhigh := h.high_denom_pos hs
  have hle := (h.low_lt_high hs).le
  have hmoved : b.low.toRat ≤ (Bound.combine n b.low b.high).toRat :=
    Bound.le_toRat_combine hn hlow hhigh le_rfl hle
  refine ⟨?_, Bound.toRat_combine_le hn hlow hhigh hle le_rfl⟩
  exact Bound.le_toRat_combine zero_le_one (Bound.combine_denom_pos hn hlow hhigh) hlow hmoved
    le_rfl

lemma refineLow_within (h : b.Regular seed) (hs : 0 < seed) (hn : 0 ≤ n) :
    (b.refineLow n).Within b := by
  have hlow := h.low_denom_pos hs
  have hhigh := h.high_denom_pos hs
  have hle := (h.low_lt_high hs).le
  have hmoved : (Bound.combine n b.high b.low).toRat ≤ b.high.toRat :=
    Bound.toRat_combine_le hn hhigh hlow le_rfl hle
  refine ⟨Bound.le_toRat_combine hn hhigh hlow hle le_rfl, ?_⟩
  exact Bound.toRat_combine_le zero_le_one (Bound.combine_denom_pos hn hhigh hlow) hhigh hmoved
    le_rfl

end Regular
end Bracket
end Mediant
