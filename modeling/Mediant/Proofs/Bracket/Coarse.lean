import Mediant.Proofs.Bracket.Exact
import Mediant.Proofs.Bracket.Noise
import Mediant.Proofs.Bracket.Tightening

/-!
# Coarse precisions

A search with a precision of at least `10 ^ (-11)` never gets to large denominators.  Bounds that
are both further from the target than the precision, in scaled distances, have small denominators,
since the two distances, each times the denominator of the other bound, add up to the seed.

The computed distances serve as well.  As long as no denominator exceeds `2 ^ 50` a computed
distance is at most a little more than twice the true one (`abs_roundedGap_le`): the product it
starts from is rounded, and the numerator, being representable, is no nearer to the rounded product
than half as near as to the exact one.

So no estimate of a next denominator exceeds `9300 / p` for the precision `p` (`estimates_mul_le`).
That keeps all denominators below `10000 / p`, and no ceiling from `2 ^ 53` on is ever reached.
-/

namespace Mediant

open Binary64

/-- The double nearest to `10 ^ (-11)`. -/
def coarsePrecision : ℚ := roundOff (1 / 10 ^ 11)

lemma le_coarsePrecision : 99 / 10 ^ 13 ≤ coarsePrecision := by
  have herr := abs_roundOff_sub_le_of_le (q := 1 / 10 ^ 11) (by norm_num)
  rw [abs_of_pos (by norm_num : (0 : ℚ) < 1 / 10 ^ 11), abs_le] at herr
  rw [coarsePrecision]
  linarith [herr.1]

lemma coarsePrecision_pos : 0 < coarsePrecision :=
  lt_of_lt_of_le (by positivity) le_coarsePrecision

/-- The largest denominator of a search with a coarse precision. -/
lemma max_denom_le {p : ℚ} (hp : coarsePrecision ≤ p) : max 2310 (10000 / p) ≤ 2 ^ 50 := by
  have hle := le_coarsePrecision.trans hp
  refine max_le (by norm_num) ?_
  rw [div_le_iff₀ (coarsePrecision_pos.trans_le hp)]
  linarith

namespace Bracket

/-! ## Computed distances and true ones -/

/-- A computed distance that is not tiny is little more than twice the true one, at most. -/
lemma abs_roundedGap_le {a : Bound ℤ} {t : ℚ} (hpos : 0 < a.denom) (hle : a.denom ≤ 2 ^ 53)
    (hnum : |a.num| ≤ 2 ^ 53) (h : 1 / 2 ^ 100 ≤ |a.roundedGap t|) :
    |a.roundedGap t| ≤ 201 / 100 * |a.gap t| := by
  rw [roundedGap_eq hpos hle hnum] at h ⊢
  have hprod : |roundOff (a.denom * t) - a.num| ≤ 2 * |a.gap t| :=
    (representable_intCast hnum).abs_roundOff_sub_le _
  have hdiff := abs_roundOff_sub_le (roundOff (a.denom * t) - a.num)
  have htri := abs_sub_abs_le_abs_sub (roundOff (roundOff (a.denom * t) - a.num))
    (roundOff (a.denom * t) - a.num)
  have htiny := tiny_le
  linarith [abs_nonneg (a.gap t)]

/-- Both denominators are at most `e`. -/
structure DenomsLe (e : ℚ) (b : Bracket ℤ) : Prop where
  low : (b.low.denom : ℚ) ≤ e
  high : (b.high.denom : ℚ) ≤ e

variable {t p m : ℚ} {goal : Goal} {b c d : Bracket ℤ} {n : ℕ}

/-- Where both computed distances are at least the precision, neither is much more than twice the
true one. -/
lemma Start.gaps_le (hb : Start 2310 t p m goal b) (hd : b.DenomsLe (2 ^ 50))
    (hp : coarsePrecision ≤ p) (habove : p ≤ b.above t) (hbelow : p ≤ b.below t) :
    b.below t ≤ 201 / 100 * b.low.gap t ∧ b.above t ≤ 201 / 100 * -b.high.gap t := by
  have hreg := hb.bounded.toRegular
  have hlt := (hreg.low_lt_high hb.seed_pos).le
  have hppos : 1 / 2 ^ 100 ≤ p := le_trans (by norm_num) (le_coarsePrecision.trans hp)
  have hbelowpos : 0 < b.below t := lt_of_lt_of_le (by positivity) (hppos.trans hbelow)
  have habovepos : 0 < b.above t := lt_of_lt_of_le (by positivity) (hppos.trans habove)
  have hlow : b.low.denom ≤ 2 ^ 50 := by exact_mod_cast hd.low
  have hhigh : b.high.denom ≤ 2 ^ 50 := by exact_mod_cast hd.high
  have hlowpos := hreg.low_denom_pos hb.seed_pos
  have hhighpos := hreg.high_denom_pos hb.seed_pos
  have hlownum := Bound.abs_num_le (k := 2) hlowpos hb.bounded.low_nonneg
    (by exact_mod_cast hlt.trans hb.bounded.high_le_two)
  have hhighnum := Bound.abs_num_le (k := 2) hhighpos (hb.bounded.low_nonneg.trans hlt)
    (by exact_mod_cast hb.bounded.high_le_two)
  constructor
  · have hgap := gap_pos hlowpos (by omega) (by omega) hbelowpos
    have habs : |b.low.roundedGap t| = b.below t := abs_of_pos hbelowpos
    have hle := abs_roundedGap_le (t := t) hlowpos (by omega) (by omega) (by
      rw [habs]
      exact hppos.trans hbelow)
    rwa [habs, abs_of_pos hgap] at hle
  · have hgap := neg_gap_pos hhighpos (by omega) (by omega) habovepos
    have habs : |b.high.roundedGap t| = b.above t := by
      rw [← abs_neg]
      exact abs_of_pos habovepos
    have hle := abs_roundedGap_le (t := t) hhighpos (by omega) (by omega) (by
      rw [habs]
      exact hppos.trans habove)
    rwa [habs, ← abs_neg (b.high.gap t), abs_of_pos hgap] at hle

/-! ## The next denominator -/

/-- The next denominator is bounded by the precision.  The true distances are `x` and `y`. -/
lemma next_mul_le {near far nearGap farGap x y : ℚ} (hnear : 0 < near) (hfar : 0 < far)
    (hp : 0 < p) (hpnear : p ≤ nearGap) (hpfar : p ≤ farGap) (hx : nearGap ≤ 201 / 100 * x)
    (hy : farGap ≤ 201 / 100 * y) (hsum : x * far + y * near = 2310) :
    ((farGap / nearGap + 1) * near + far) * p ≤ 9290 := by
  have hnearGap : 0 < nearGap := hp.trans_le hpnear
  have hfarGap : 0 < farGap := hp.trans_le hpfar
  -- each of the three parts is bounded by the distance of the other bound
  have hcopies : farGap / nearGap * near * p ≤ farGap * near := by
    have hone : p / nearGap ≤ 1 := (div_le_one hnearGap).mpr hpnear
    calc farGap / nearGap * near * p = farGap * near * (p / nearGap) := by ring
      _ ≤ farGap * near * 1 := mul_le_mul_of_nonneg_left hone (by positivity)
      _ = farGap * near := mul_one _
  have hown : near * p ≤ near * farGap := mul_le_mul_of_nonneg_left hpfar hnear.le
  have hother : far * p ≤ far * nearGap := mul_le_mul_of_nonneg_left hpnear hfar.le
  have hxfar := mul_le_mul_of_nonneg_left hx hfar.le
  have hynear := mul_le_mul_of_nonneg_left hy hnear.le
  have hxpos : 0 ≤ x * far := mul_nonneg (by linarith) hfar.le
  linarith

/-- Neither estimate of a next denominator exceeds `9300 / p`. -/
theorem Start.estimates_mul_le (hb : Start 2310 t p m goal b) (hd : b.DenomsLe (2 ^ 50))
    (hp : coarsePrecision ≤ p) (habove : p ≤ b.above t) (hbelow : p ≤ b.below t) :
    estimate (roundOff (b.above t / b.below t)) b.low b.high * p ≤ 9300 ∧
      estimate (roundOff (b.below t / b.above t)) b.high b.low * p ≤ 9300 := by
  obtain ⟨hlow, hhigh⟩ := hb.gaps_le hd hp habove hbelow
  have hsum := b.gaps_eq t
  rw [hb.bounded.determinant_eq] at hsum
  have hppos := hb.denotes.precision_pos
  have hsized := hb.sized
  have hlowpos : (0 : ℚ) < b.low.denom := by exact_mod_cast hsized.low.denom_pos
  have hhighpos : (0 : ℚ) < b.high.denom := by exact_mod_cast hsized.high.denom_pos
  have hbelowpos := hppos.trans_le hbelow
  have habovepos := hppos.trans_le habove
  constructor
  · have hnext := next_mul_le hlowpos hhighpos hppos hbelow habove hlow hhigh hsum
    have hest := mul_le_mul_of_nonneg_right
      (estimate_le_mul (div_pos habovepos hbelowpos).le hsized.low hsized.high) hppos.le
    linarith
  · rw [add_comm] at hsum
    have hnext := next_mul_le hhighpos hlowpos hppos habove hbelow hhigh hlow hsum
    have hest := mul_le_mul_of_nonneg_right
      (estimate_le_mul (div_pos hbelowpos habovepos).le hsized.high hsized.low) hppos.le
    linarith

/-! ## One step -/

/-- A ceiling from `2 ^ 53` on does not block a step. -/
theorem Start.exactStep_ne_blocked (hb : Start 2310 t p m goal b) (hd : b.DenomsLe (2 ^ 50))
    (hp : coarsePrecision ≤ p) (hm : 2 ^ 53 ≤ m) : exactStep t p m b ≠ .blocked := by
  intro h
  obtain ⟨habove, hbelow⟩ := le_gaps_of_exactStep (by rw [h]; nofun) (by rw [h]; nofun)
  obtain ⟨hlow, hhigh⟩ := hb.estimates_mul_le hd hp habove hbelow
  have hppos := hb.denotes.precision_pos
  have hreach : 9300 < m * p := by
    have hcoarse := le_coarsePrecision.trans hp
    have hprod := mul_le_mul_of_nonneg_right hm hppos.le
    linarith
  rcases le_estimate_of_exactStep_eq_blocked h with hle | hle
  · linarith [mul_le_mul_of_nonneg_right hle hppos.le]
  · linarith [mul_le_mul_of_nonneg_right hle hppos.le]

/-- What an estimate of at most `9300 / p` says of the two denominators that an advance makes. -/
lemma Advance.denoms_le {nearGap farGap : ℚ} {near far : Bound ℤ} {k : ℤ}
    (h : Advance m nearGap farGap near far k) (hnear : near.Sized) (hfar : far.Sized) (hp : 0 < p)
    (hest : estimate (roundOff (farGap / nearGap)) near far * p ≤ 9300) :
    (Bound.combine k near far).denom ≤ 10000 / p ∧
      (Bound.combine 1 (Bound.combine k near far) near).denom ≤ 10000 / p := by
  have hnext := mul_le_mul_of_nonneg_right
    (next_denom_mul_le_estimate h.one_le_ratio hnear hfar) hp.le
  rw [← h.copies_eq] at hnext
  have hk : (1 : ℚ) ≤ k := by exact_mod_cast h.one_le
  have hnearpos : (0 : ℚ) < near.denom := by exact_mod_cast hnear.denom_pos
  have hfarpos : (0 : ℚ) < far.denom := by exact_mod_cast hfar.denom_pos
  have hnearp : 0 < near.denom * p := mul_pos hnearpos hp
  have hfarp : 0 < far.denom * p := mul_pos hfarpos hp
  have hcopies : 0 < k * (near.denom * p) := mul_pos (by linarith) hnearp
  rw [le_div_iff₀ hp, le_div_iff₀ hp]
  simp only [Bound.combine, Denominator.combine_int]
  push_cast
  constructor <;> linarith

/-- A refinement makes denominators of at most `10000 / p`. -/
theorem Start.denomsLe_of_refined (hb : Start 2310 t p m goal b) (hd : b.DenomsLe (2 ^ 50))
    (hp : coarsePrecision ≤ p) (h : exactStep t p m b = .refined d) :
    d.DenomsLe (10000 / p) := by
  obtain ⟨habove, hbelow⟩ := le_gaps_of_exactStep (by rw [h]; nofun) (by rw [h]; nofun)
  obtain ⟨hlow, hhigh⟩ := hb.estimates_mul_le hd hp habove hbelow
  have hppos := hb.denotes.precision_pos
  have hsized := hb.sized
  obtain ⟨k, ⟨rfl, hadv⟩ | ⟨rfl, hadv⟩⟩ := refined_cases hppos h
  · obtain ⟨hfar, hnear⟩ := hadv.denoms_le hsized.low hsized.high hppos hlow
    exact ⟨hnear, hfar⟩
  · obtain ⟨hfar, hnear⟩ := hadv.denoms_le hsized.high hsized.low hppos hhigh
    exact ⟨hfar, hnear⟩

/-! ## Runs -/

end Bracket

/-- An outcome that the ceiling had no part in, with denominators of at most `e`. -/
structure Outcome.Unstopped (e : ℚ) (o : Outcome ℤ) : Prop where
  overflowed_eq : o.overflowed = false
  sized : o.bracket.Sized
  denoms : o.bracket.DenomsLe e

namespace Bracket

variable {t p m : ℚ} {goal : Goal} {b c d : Bracket ℤ} {n : ℕ}

lemma DenomsLe.mono {e f : ℚ} (h : b.DenomsLe e) (hle : e ≤ f) : b.DenomsLe f :=
  ⟨h.low.trans hle, h.high.trans hle⟩

/-- No denominator on the way exceeds the bound. -/
theorem Start.denomsLe_of_reached {k : ℤ} (hb : Start 2310 t p m goal (.cell 2310 k))
    (hp : coarsePrecision ≤ p) (h : (cell 2310 k).Reaches goal n c) :
    c.DenomsLe (max 2310 (10000 / p)) := by
  induction h with
  | start => exact ⟨by simp [cell], by simp [cell]⟩
  | step hprev hstep ih =>
    have hc := hb.reached hprev
    rw [hc.step_eq] at hstep
    exact (hc.denomsLe_of_refined (ih.mono (max_denom_le hp)) hp (Except.ok.inj hstep)).mono
      (le_max_right _ _)

/-- A run from a cell under a ceiling from `2 ^ 53` on is not stopped. -/
theorem Start.exists_unstopped {k : ℤ} (hb : Start 2310 t p m goal (.cell 2310 k))
    (hp : coarsePrecision ≤ p) (hm : 2 ^ 53 ≤ m) :
    ∃ o, (cell 2310 k).run goal 0 stepLimit = .ok o ∧ o.Unstopped (max 2310 (10000 / p)) := by
  obtain ⟨o, hrun⟩ := hb.exists_run_eq_ok
  obtain ⟨n, c, hreach, hends⟩ := exists_reaches_of_run_eq_ok hrun
  have hc := hb.reached hreach
  have hdenoms := hb.denomsLe_of_reached hp hreach
  refine ⟨o, hrun, ?_⟩
  cases hends with
  | hitHigh => exact ⟨rfl, hc.sized, hdenoms⟩
  | hitLow => exact ⟨rfl, ⟨hc.sized.high, hc.sized.low⟩, hdenoms.high, hdenoms.low⟩
  | blocked hstep =>
    rw [hc.step_eq] at hstep
    exact absurd (Except.ok.inj hstep)
      (hc.exactStep_ne_blocked (hdenoms.mono (max_denom_le hp)) hp hm)

end Bracket
end Mediant
