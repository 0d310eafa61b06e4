import Mediant.Proofs.Bracket.Growth

/-!
# The allowance for rounding

The scaled distances of a search come out wrong by a few units in the last place of a denominator,
and once denominators exceed `2 ^ 53` they may come out with the wrong sign.  A bracket therefore
holds the target only up to an allowance, which `Holds` puts at five parts in `2 ^ 53` of each
denominator.

The allowance does not grow along a run (`holds_of_refined`): the new bounds are combinations of the
old ones whose *computed* distances have the right signs but for the rounding of one quotient, and a
distance is computed with an error of at most four parts in `2 ^ 53` of the denominator
(`Bound.abs_roundedGap_sub_le`), which is proportional to the denominator and so adds up exactly as
the denominators do.
-/

namespace Mediant

open Binary64

/-- One part in `2 ^ 53`, the relative error of one rounding. -/
def unitRoundoff : ℚ := 1 / 2 ^ 53

/-! ## The error of a scaled distance -/

namespace Bound

variable {a : Bound ℤ} {t : ℚ}

/-- A scaled distance that is small against the denominator is computed with an error of at most
four parts in `2 ^ 53` of the denominator. -/
lemma abs_roundedGap_sub_le (hdenom : 2310 ≤ a.denom) (h0 : 0 ≤ t) (h1 : t ≤ 1)
    (hgap : |a.gap t| ≤ 1 + 5 * unitRoundoff * a.denom) :
    |a.roundedGap t - a.gap t| ≤ 4 * unitRoundoff * a.denom := by
  have hD : (2310 : ℚ) ≤ a.denom := by exact_mod_cast hdenom
  have htiny : tiny ≤ 1 / 2 ^ 60 := tiny_le_two_pow (by norm_num)
  rw [unitRoundoff] at hgap ⊢
  -- the denominator, its product with the target, and the numerator
  have hdenomErr := abs_roundOff_intCast_sub_le a.denom
  rw [abs_of_nonneg (by linarith : (0 : ℚ) ≤ a.denom)] at hdenomErr
  have hprodExact : |roundOff a.denom * t - a.denom * t| ≤ a.denom / 2 ^ 53 := by
    rw [← sub_mul, abs_mul, abs_of_nonneg h0]
    exact (mul_le_of_le_one_right (abs_nonneg _) h1).trans hdenomErr
  have hprodNonneg : 0 ≤ a.denom * t := by positivity
  have hprodLe : a.denom * t ≤ a.denom := mul_le_of_le_one_right (by linarith) h1
  have hprodErr := abs_roundOff_sub_le (roundOff a.denom * t)
  have hnumErr := abs_roundOff_intCast_sub_le a.num
  have hgapEq : a.gap t = a.denom * t - a.num := rfl
  rw [hgapEq] at hgap ⊢
  have hprodAbs : |roundOff a.denom * t| ≤ a.denom + a.denom / 2 ^ 53 := by
    rw [abs_le] at hprodExact ⊢
    constructor <;> linarith [hprodExact.1, hprodExact.2]
  have hnumAbs : |(a.num : ℚ)| ≤ a.denom + (1 + 5 * (1 / 2 ^ 53) * a.denom) := by
    rw [abs_le] at hgap ⊢
    constructor <;> linarith [hgap.1, hgap.2]
  -- their difference
  have hdiffErr := abs_roundOff_sub_le (roundOff (roundOff a.denom * t) - roundOff a.num)
  have hdiff : |roundOff (roundOff a.denom * t) - roundOff a.num - (a.denom * t - a.num)| ≤
      7 / 2 * (1 / 2 ^ 53) * a.denom := by
    rw [abs_le] at hprodExact hprodErr hnumErr ⊢
    constructor <;> linarith [hprodExact.1, hprodExact.2, hprodErr.1, hprodErr.2, hnumErr.1,
      hnumErr.2]
  have hdiffAbs : |roundOff (roundOff a.denom * t) - roundOff a.num| ≤
      1 + 9 * (1 / 2 ^ 53) * a.denom := by
    rw [abs_le] at hgap hdiff ⊢
    constructor <;> linarith [hgap.1, hgap.2, hdiff.1, hdiff.2]
  rw [roundedGap]
  rw [abs_le] at hdiffErr hdiff ⊢
  constructor <;> linarith [hdiffErr.1, hdiffErr.2, hdiff.1, hdiff.2]

end Bound

/-! ## The invariant -/

namespace Bracket

/-- The target is between the bounds, up to an allowance for rounding. -/
structure Holds (t : ℚ) (b : Bracket ℤ) : Prop where
  low : -(5 * unitRoundoff * b.low.denom) ≤ b.low.gap t
  high : -(5 * unitRoundoff * b.high.denom) ≤ -b.high.gap t

/-- The starting cell is chosen by a rounded product. -/
lemma holds_cell {seed : ℤ} {t : ℚ} (hs : 0 < seed) (h0 : 0 ≤ t) (h1 : t ≤ 1) :
    (cell seed ⌊roundOff (t * seed)⌋).Holds t := by
  have hseed : (1 : ℚ) ≤ seed := by exact_mod_cast hs
  have htiny : tiny ≤ 1 / 2 ^ 53 := tiny_le_two_pow (by norm_num)
  have hprod : t * seed ≤ seed := mul_le_of_le_one_left (by linarith) h1
  have hnonneg : 0 ≤ t * seed := by positivity
  have herr := abs_roundOff_sub_le (t * seed)
  rw [abs_of_nonneg hnonneg, abs_le] at herr
  have hfloor := Int.floor_le (roundOff (t * seed))
  have hfloor' := Int.lt_floor_add_one (roundOff (t * seed))
  constructor
  · simp only [cell, Bound.gap, unitRoundoff]
    linarith [herr.1, herr.2]
  · simp only [cell, Bound.gap, unitRoundoff]
    push_cast
    linarith [herr.1, herr.2]

lemma gaps_eq (b : Bracket ℤ) (t : ℚ) :
    b.low.gap t * b.high.denom + -b.high.gap t * b.low.denom = b.determinant := by
  simp only [Bound.gap, determinant]
  push_cast
  ring

/-- Of two distances that add up to the seed, one is at most one if the other is not negative, both
up to the allowance. -/
lemma gap_le {seed near far : ℤ} {g h : ℚ} (hs : 0 < seed) (hnear : seed ≤ near)
    (hfar : seed ≤ far) (hsum : g * far + h * near = seed)
    (hh : -(5 * unitRoundoff * far) ≤ h) : g ≤ 1 + 5 * unitRoundoff * near := by
  have hfarpos : (0 : ℚ) < far := by exact_mod_cast hs.trans_le hfar
  have hnearpos : (0 : ℚ) ≤ near := by exact_mod_cast (hs.trans_le hnear).le
  have hseed : (seed : ℚ) ≤ far := by exact_mod_cast hfar
  have hprod := mul_le_mul_of_nonneg_right hh hnearpos
  refine le_of_mul_le_mul_right ?_ hfarpos
  linarith

variable {seed : ℤ} {m t p : ℚ} {goal : Goal} {b c d : Bracket ℤ} {n : ℕ}

lemma Holds.abs_gaps_le (h : b.Holds t) (hb : b.Regular seed) (hs : 0 < seed) :
    |b.low.gap t| ≤ 1 + 5 * unitRoundoff * b.low.denom ∧
      |b.high.gap t| ≤ 1 + 5 * unitRoundoff * b.high.denom := by
  have hsum := b.gaps_eq t
  rw [hb.determinant_eq] at hsum
  have hlow := gap_le hs hb.seed_le_low hb.seed_le_high hsum h.high
  rw [add_comm] at hsum
  have hhigh := gap_le hs hb.seed_le_high hb.seed_le_low hsum h.low
  rw [abs_le, abs_le]
  refine ⟨⟨?_, hlow⟩, ?_, ?_⟩
  · linarith [h.low]
  · linarith
  · linarith [h.high]

/-- The computed distances are off by at most four parts in `2 ^ 53` of the denominators. -/
lemma Holds.abs_sub_gaps_le (h : b.Holds t) (hb : b.Regular seed) (hs : 2310 ≤ seed)
    (h0 : 0 ≤ t) (h1 : t ≤ 1) :
    |b.below t - b.low.gap t| ≤ 4 * unitRoundoff * b.low.denom ∧
      |b.above t - -b.high.gap t| ≤ 4 * unitRoundoff * b.high.denom := by
  obtain ⟨hlow, hhigh⟩ := h.abs_gaps_le hb (by omega)
  refine ⟨Bound.abs_roundedGap_sub_le (hs.trans hb.seed_le_low) h0 h1 hlow, ?_⟩
  rw [above, ← neg_sub', abs_neg]
  exact Bound.abs_roundedGap_sub_le (hs.trans hb.seed_le_high) h0 h1 hhigh

/-- Rounding the quotient costs one part in `2 ^ 53` of the far distance. -/
lemma Advance.copies_mul_le {nearGap farGap : ℚ} {near far : Bound ℤ} {k : ℤ}
    (h : Advance m nearGap farGap near far k) (hnearpos : 0 < nearGap) (hfarpos : 0 < farGap) :
    k * nearGap ≤ farGap + farGap / 2 ^ 53 ∧ farGap - farGap / 2 ^ 53 ≤ (k + 1) * nearGap := by
  have hq : 0 < farGap / nearGap := div_pos hfarpos hnearpos
  have hone := h.one_le_ratio
  -- the rounded quotient is between `k` and `k + 1`, and the quotient is near it
  have hfloor := h.le_ratio
  have hfloor' : roundOff (farGap / nearGap) < k + 1 := by
    rw [h.copies_eq]
    exact Int.lt_floor_add_one _
  have hhalf : 1 / 2 ≤ farGap / nearGap := by
    have herr := abs_roundOff_sub_le (farGap / nearGap)
    have htiny : tiny ≤ 1 / 2 ^ 53 := tiny_le_two_pow (by norm_num)
    rw [abs_of_pos hq, abs_le] at herr
    linarith [herr.2]
  have herr := abs_roundOff_sub_le_of_le (q := farGap / nearGap) (by
    rw [abs_of_pos hq]
    exact le_trans (by norm_num) hhalf)
  rw [abs_of_pos hq, abs_le] at herr
  constructor
  · have hle : (k : ℚ) ≤ (farGap + farGap / 2 ^ 53) / nearGap := by
      rw [add_div, div_right_comm]
      linarith [herr.2]
    rwa [le_div_iff₀ hnearpos] at hle
  · have hle : (farGap - farGap / 2 ^ 53) / nearGap ≤ k + 1 := by
      rw [sub_div, div_right_comm]
      linarith [herr.1]
    rwa [div_le_iff₀ hnearpos] at hle

/-- **An advance keeps the allowance.**  The computed distances are `nearGap` and `farGap`, the true
ones `x` and `y`. -/
lemma Advance.gaps {nearGap farGap x y : ℚ} {near far : Bound ℤ} {k : ℤ}
    (h : Advance m nearGap farGap near far k) (hnearpos : 0 < nearGap) (hfarpos : 0 < farGap)
    (hdnear : 2310 ≤ near.denom) (hdfar : 2310 ≤ far.denom)
    (hx : |nearGap - x| ≤ 4 * unitRoundoff * near.denom)
    (hy : |farGap - y| ≤ 4 * unitRoundoff * far.denom)
    (hyle : y ≤ 1 + 5 * unitRoundoff * far.denom) :
    -(5 * unitRoundoff * (k * near.denom + far.denom)) ≤ y - k * x ∧
      -(5 * unitRoundoff * (k * near.denom + far.denom + near.denom)) ≤ x - (y - k * x) := by
  have hk : (1 : ℚ) ≤ k := by exact_mod_cast h.one_le
  have hnear : (2310 : ℚ) ≤ near.denom := by exact_mod_cast hdnear
  have hfar : (2310 : ℚ) ≤ far.denom := by exact_mod_cast hdfar
  have hcopies : (near.denom : ℚ) ≤ k * near.denom := le_mul_of_one_le_left (by linarith) hk
  obtain ⟨hlower, hupper⟩ := h.copies_mul_le hnearpos hfarpos
  rw [unitRoundoff] at hx hy hyle ⊢
  -- the error of the near distance counts once for every copy
  rw [abs_le] at hx hy
  have hxk := mul_le_mul_of_nonneg_left hx.1 (by linarith : (0 : ℚ) ≤ k)
  have hxk' := mul_le_mul_of_nonneg_left hx.2 (by linarith : (0 : ℚ) ≤ k)
  constructor
  · linarith [hy.1, hy.2]
  · linarith [hx.1, hx.2, hy.1, hy.2]

/-- Every refinement keeps the allowance. -/
theorem holds_of_refined (hs : 2310 ≤ seed) (hb : Start seed t p m goal b) (h : b.Holds t)
    (hstep : b.step goal = .ok (.refined d)) : d.Holds t := by
  have hreg := hb.bounded.toRegular
  have hgoal := hb.denotes
  obtain ⟨hlowAbs, hhighAbs⟩ := h.abs_gaps_le hreg hb.seed_pos
  obtain ⟨hlowErr, hhighErr⟩ :=
    h.abs_sub_gaps_le hreg hs hgoal.target_nonneg hgoal.target_le_one
  have hlowle := (abs_le.mp hlowAbs).2
  have hhighle := (abs_le.mp hhighAbs).1
  rw [hb.step_eq] at hstep
  have hstep := Except.ok.inj hstep
  obtain ⟨habove, hbelow⟩ :=
    le_gaps_of_exactStep (by rw [hstep]; nofun) (by rw [hstep]; nofun)
  have hapos := hgoal.precision_pos.trans_le habove
  have hbpos := hgoal.precision_pos.trans_le hbelow
  obtain ⟨k, ⟨rfl, hadv⟩ | ⟨rfl, hadv⟩⟩ := refined_cases hgoal.precision_pos hstep
  · obtain ⟨hfar, hnear⟩ := hadv.gaps hbpos hapos (hs.trans hreg.seed_le_low)
      (hs.trans hreg.seed_le_high) hlowErr hhighErr (by linarith)
    constructor <;> simp only [refineHigh, Bound.combine, Bound.gap, Denominator.combine_int]
      at hfar hnear ⊢ <;> push_cast <;> linarith
  · obtain ⟨hfar, hnear⟩ := hadv.gaps hapos hbpos (hs.trans hreg.seed_le_high)
      (hs.trans hreg.seed_le_low) hhighErr hlowErr hlowle
    constructor <;> simp only [refineLow, Bound.combine, Bound.gap, Denominator.combine_int]
      at hfar hnear ⊢ <;> push_cast <;> linarith

lemma Holds.reached (hs : 2310 ≤ seed) (hb : Start seed t p m goal b) (h : b.Holds t)
    (hreach : b.Reaches goal n c) : c.Holds t := by
  induction hreach with
  | start => exact h
  | step hprev hstep ih => exact holds_of_refined hs (hb.reached hprev) ih hstep

/-! ## The answer -/

lemma abs_toRat_sub_le {a : Bound ℤ} {e : ℚ} (hpos : 0 < a.denom)
    (h : |a.gap t| ≤ e * a.denom) : |a.toRat - t| ≤ e := by
  have hdenom : (0 : ℚ) < a.denom := by exact_mod_cast hpos
  have heq : a.toRat - t = -a.gap t / a.denom := by
    rw [Bound.toRat, Bound.gap]
    field_simp
    ring
  rw [heq, abs_div, abs_neg, abs_of_pos hdenom, div_le_iff₀ hdenom]
  exact h

/-- A bound whose computed distance is below the precision is near the target: the precision counts
once for every part of the denominator. -/
lemma abs_toRat_sub_le_of_lt {a : Bound ℤ} {computed g : ℚ} (hdenom : 2310 ≤ a.denom)
    (hg : |g| = |a.gap t|) (hp : 0 < p) (hholds : -(5 * unitRoundoff * a.denom) ≤ g)
    (herr : |computed - g| ≤ 4 * unitRoundoff * a.denom) (hlt : computed < p) :
    |a.toRat - t| ≤ p / 2310 + 5 * unitRoundoff := by
  have hD : (2310 : ℚ) ≤ a.denom := by exact_mod_cast hdenom
  refine abs_toRat_sub_le (by omega) ?_
  rw [← hg, abs_le]
  rw [unitRoundoff] at hholds herr ⊢
  have hpD : p ≤ p / 2310 * a.denom := by
    have := mul_le_mul_of_nonneg_left hD (by positivity : 0 ≤ p / 2310)
    linarith
  have herr := (abs_le.mp herr).1
  constructor <;> linarith

/-- **The answer of a run that was not stopped is near the target.** -/
theorem abs_answer_sub_le {o : Outcome ℤ} (hs : 2310 ≤ seed) (hb : Start seed t p m goal b)
    (h : b.Holds t) (hends : b.Ends goal n o) (hover : o.overflowed = false) :
    |o.bracket.high.toRat - t| ≤ p / 2310 + 5 * unitRoundoff := by
  have hreg := hb.bounded.toRegular
  have hgoal := hb.denotes
  obtain ⟨hlowErr, hhighErr⟩ :=
    h.abs_sub_gaps_le hreg hs hgoal.target_nonneg hgoal.target_le_one
  have hstep := hb.step_eq
  cases hends with
  | hitHigh hhit =>
    rw [hhit] at hstep
    have hlt := above_lt_of_exactStep_eq_hitHigh (Except.ok.inj hstep).symm
    exact abs_toRat_sub_le_of_lt (hs.trans hreg.seed_le_high) (abs_neg _) hgoal.precision_pos
      h.high hhighErr hlt
  | hitLow hhit =>
    rw [hhit] at hstep
    have hlt := below_lt_of_exactStep_eq_hitLow (Except.ok.inj hstep).symm
    exact abs_toRat_sub_le_of_lt (hs.trans hreg.seed_le_low) rfl hgoal.precision_pos
      h.low hlowErr hlt
  | blocked => cases hover

end Bracket
end Mediant
