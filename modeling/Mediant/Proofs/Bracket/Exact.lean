import Mediant.Proofs.Bracket.Ceiling

/-!
# Exact brackets

As long as no denominator exceeds `2 ^ 53`, all integers of a bracket between zero and one are
doubles, and a scaled distance is computed with two roundings only, of a product and of a
difference. Neither can turn the sign over, since rounding keeps the order and fixes integers: a
computed distance that is positive is the distance of a bound strictly on its side of the target
(`Exact.lt_target`, `Exact.target_lt`).

A ceiling of at most `2 ^ 53` bounds the denominators themselves (`Advance.next_denom_lt`), so a
bracket stays exact along a run (`Exact.reached`).
-/

namespace Mediant

open Binary64

namespace Bracket

/-- Regular, between zero and one, with denominators below the ceiling. -/
structure Exact (seed m : ℤ) (b : Bracket ℤ) : Prop extends b.Regular seed where
  low_denom_lt : b.low.denom < m
  high_denom_lt : b.high.denom < m
  low_nonneg : 0 ≤ b.low.toRat
  high_le_one : b.high.toRat ≤ 1

lemma exact_cell {seed m k : ℤ} (hs : 0 < seed) (hm : seed < m) (hk : 0 ≤ k) (hk' : k < seed) :
    (cell seed k).Exact seed m := by
  refine ⟨regular_cell seed k, hm, hm, ?_, ?_⟩
  · rw [Bound.le_toRat_iff hs, zero_mul]
    exact_mod_cast hk
  · rw [Bound.toRat_le_iff hs, one_mul]
    exact_mod_cast hk'

/-- A bound between zero and one that has a denominator of at most `2 ^ 53` has such a numerator. -/
lemma abs_num_le {a : Bound ℤ} (hpos : 0 < a.denom) (hle : a.denom ≤ 2 ^ 53) (h0 : 0 ≤ a.toRat)
    (h1 : a.toRat ≤ 1) : |a.num| ≤ 2 ^ 53 := by
  have hnum := Bound.abs_num_le (k := 1) hpos h0 (by exact_mod_cast h1)
  omega

/-- With integers that are doubles, a scaled distance is rounded twice. -/
lemma roundedGap_eq {a : Bound ℤ} {t : ℚ} (hpos : 0 < a.denom) (hle : a.denom ≤ 2 ^ 53)
    (hnum : |a.num| ≤ 2 ^ 53) : a.roundedGap t = roundOff (roundOff (a.denom * t) - a.num) := by
  have hdenom : |a.denom| ≤ 2 ^ 53 := by rwa [abs_of_pos hpos]
  rw [Bound.roundedGap, (representable_intCast hdenom).roundOff_eq,
    (representable_intCast hnum).roundOff_eq]

/-- A target is above a bound if the distance computed for it is positive. -/
lemma gap_pos {a : Bound ℤ} {t : ℚ} (hpos : 0 < a.denom) (hle : a.denom ≤ 2 ^ 53)
    (hnum : |a.num| ≤ 2 ^ 53) (h : 0 < a.roundedGap t) : 0 < a.gap t := by
  rw [roundedGap_eq hpos hle hnum] at h
  have hlt := sub_pos.mp (pos_of_roundOff_pos h)
  exact sub_pos.mpr ((representable_intCast hnum).lt_of_lt_roundOff hlt)

lemma neg_gap_pos {a : Bound ℤ} {t : ℚ} (hpos : 0 < a.denom) (hle : a.denom ≤ 2 ^ 53)
    (hnum : |a.num| ≤ 2 ^ 53) (h : 0 < -a.roundedGap t) : 0 < -a.gap t := by
  rw [roundedGap_eq hpos hle hnum, ← roundOff_neg, neg_sub] at h
  rw [Bound.gap, neg_sub]
  have hlt := sub_pos.mp (pos_of_roundOff_pos h)
  exact sub_pos.mpr ((representable_intCast hnum).lt_of_roundOff_lt hlt)

namespace Exact

variable {seed m : ℤ} {t p : ℚ} {goal : Goal} {b c d : Bracket ℤ} {n : ℕ}

lemma lt_target (hb : b.Exact seed m) (hs : 0 < seed) (hm : m ≤ 2 ^ 53) (h : 0 < b.below t) :
    b.low.toRat < t := by
  have hpos := hb.toRegular.low_denom_pos hs
  have hle : b.low.denom ≤ 2 ^ 53 := hb.low_denom_lt.le.trans hm
  have hnum := abs_num_le hpos hle hb.low_nonneg
    ((hb.toRegular.low_lt_high hs).le.trans hb.high_le_one)
  have hgap := gap_pos hpos hle hnum h
  rw [Bound.toRat, div_lt_iff₀ (by exact_mod_cast hpos), mul_comm]
  exact sub_pos.mp hgap

lemma target_lt (hb : b.Exact seed m) (hs : 0 < seed) (hm : m ≤ 2 ^ 53) (h : 0 < b.above t) :
    t < b.high.toRat := by
  have hpos := hb.toRegular.high_denom_pos hs
  have hle : b.high.denom ≤ 2 ^ 53 := hb.high_denom_lt.le.trans hm
  have hnum := abs_num_le hpos hle (hb.low_nonneg.trans (hb.toRegular.low_lt_high hs).le)
    hb.high_le_one
  have hgap := neg_gap_pos hpos hle hnum h
  rw [Bound.gap, neg_sub] at hgap
  rw [Bound.toRat, lt_div_iff₀ (by exact_mod_cast hpos), mul_comm]
  exact sub_pos.mp hgap

/-- Every refinement of an exact bracket is exact. -/
theorem of_refined (hb : b.Exact seed m) (hs : 0 < seed) (hm : m ≤ 2 ^ 53) (hp : 0 < p)
    (h : exactStep t p m b = .refined d) : d.Exact seed m := by
  have hlow := hb.toRegular.low_denom_pos hs
  have hhigh := hb.toRegular.high_denom_pos hs
  obtain ⟨k, ⟨rfl, hadv⟩ | ⟨rfl, hadv⟩⟩ := refined_cases hp h
  · have hk := hadv.one_le
    have hwithin := hb.toRegular.refineHigh_within hs (by omega : 0 ≤ k)
    have hnext := hadv.next_denom_lt (e := 0) hm hlow hhigh (by simp) (by simp) hb.low_denom_lt
      hb.high_denom_lt
    rw [add_mul, one_mul] at hnext
    refine ⟨hb.toRegular.refineHigh hs (by omega), ?_, ?_, hb.low_nonneg.trans hwithin.low_le,
      hwithin.le_high.trans hb.high_le_one⟩ <;>
      simp only [refineHigh, Bound.combine, Denominator.combine_int] <;> omega
  · have hk := hadv.one_le
    have hwithin := hb.toRegular.refineLow_within hs (by omega : 0 ≤ k)
    have hnext := hadv.next_denom_lt (e := 0) hm hhigh hlow (by simp) (by simp) hb.high_denom_lt
      hb.low_denom_lt
    rw [add_mul, one_mul] at hnext
    refine ⟨hb.toRegular.refineLow hs (by omega), ?_, ?_, hb.low_nonneg.trans hwithin.low_le,
      hwithin.le_high.trans hb.high_le_one⟩ <;>
      simp only [refineLow, Bound.combine, Denominator.combine_int] <;> omega

lemma reached (hb : b.Exact seed m) (hm : m ≤ 2 ^ 53) (hstart : Start seed t p m goal b)
    (h : b.Reaches goal n c) : c.Exact seed m := by
  induction h with
  | start => exact hb
  | step hprev hstep ih =>
    have hc := hstart.reached hprev
    rw [hc.step_eq] at hstep
    exact ih.of_refined hc.seed_pos hm hc.denotes.precision_pos (Except.ok.inj hstep)

/-- Where a step refines or is blocked, the target is strictly between the bounds. -/
theorem between (hb : b.Exact seed m) (hm : m ≤ 2 ^ 53) (hstart : Start seed t p m goal b)
    (hhigh : b.step goal ≠ .ok .hitHigh) (hlow : b.step goal ≠ .ok .hitLow) :
    b.low.toRat < t ∧ t < b.high.toRat := by
  rw [hstart.step_eq] at hhigh hlow
  obtain ⟨habove, hbelow⟩ :=
    le_gaps_of_exactStep (fun h => hhigh (congrArg _ h)) (fun h => hlow (congrArg _ h))
  have hp := hstart.denotes.precision_pos
  exact ⟨hb.lt_target hstart.seed_pos hm (hp.trans_le hbelow),
    hb.target_lt hstart.seed_pos hm (hp.trans_le habove)⟩

end Exact
end Bracket
end Mediant
