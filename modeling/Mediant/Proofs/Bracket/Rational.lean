import Mediant.Proofs.Bracket.Noise

/-!
# Brackets of a rational number

The target of a search is a double, but it may stand for a rational number `τ` with a denominator
`D` that no double expresses.  The scaled distances of bounds from `τ` are whole multiples of
`1 / D`, while the distances that the search computes are off by rounding and by the distance of the
target from `τ`.  If the precision is large against this noise and small against `1 / D`
(`Resolves`), then the noise decides nothing: a computed distance is below the precision exactly if
the distance from `τ` is zero, and no refinement passes `τ`.

`Straddles` is the invariant: `τ` is between the bounds, exactly, and the denominators are bounded
by a multiple of `D`.  Refinements keep it (`straddles_of_refined`), and a run that starts with it
ends with `τ` itself (`Straddles.answer`).
-/

namespace Mediant

open Binary64

/-! ## Noise and resolution -/

/-- The precision `p` tells whole multiples of `1 / D` apart.  The target `t` stands for `τ`, and
computed distances are off by at most `e` for each part of a denominator. -/
structure Resolves (D : ℤ) (τ t p e : ℚ) : Prop where
  denom_pos : 0 < D
  exists_num : ∃ r : ℤ, τ * D = r
  abs_sub_add_le : |t - τ| + 4 * unitRoundoff ≤ e
  noise_le : 6930 * D * e ≤ p
  two_mul_le : 2 * D * p ≤ 1

namespace Resolves

variable {D : ℤ} {τ t p e : ℚ}

lemma one_le_denom (h : Resolves D τ t p e) : (1 : ℚ) ≤ D := by exact_mod_cast h.denom_pos

lemma unit_le (h : Resolves D τ t p e) : 4 * unitRoundoff ≤ e := by
  linarith [h.abs_sub_add_le, abs_nonneg (t - τ)]

lemma noise_pos (h : Resolves D τ t p e) : 0 < e := by
  have := h.unit_le
  rw [unitRoundoff] at this
  linarith

lemma precision_pos (h : Resolves D τ t p e) : 0 < p := by
  have hD := h.one_le_denom
  have he := h.noise_pos
  have : 0 < 6930 * D * e := by positivity
  linarith [h.noise_le]

/-- Between the noise and the precision there is room for small denominators only. -/
lemma denom_le (h : Resolves D τ t p e) : (D : ℚ) ≤ 2 ^ 19 := by
  have hD := h.one_le_denom
  have hunit := h.unit_le
  rw [unitRoundoff] at hunit
  have hnoise : 6930 * D * (4 * (1 / 2 ^ 53)) ≤ p :=
    (mul_le_mul_of_nonneg_left hunit (by linarith)).trans h.noise_le
  have hsquare := mul_le_mul_of_nonneg_left hnoise (by linarith : (0 : ℚ) ≤ 2 * D)
  by_contra! hgt
  have hbig := mul_lt_mul'' hgt hgt (by positivity) (by positivity)
  linarith [h.two_mul_le]

/-- The noise of the largest denominators stays below `1 / D`, with room for one part more. -/
lemma noise_mul_lt_one (h : Resolves D τ t p e) : (e + e * (5775 * D)) * D < 1 := by
  have hD := h.one_le_denom
  have he := h.noise_pos
  have hsmall : e ≤ e * D := le_mul_of_one_le_right he.le hD
  have hprod := mul_le_mul_of_nonneg_right
    (by linarith [h.noise_le] : e + e * (5775 * D) ≤ 5776 / 6930 * p) (zero_le_one.trans hD)
  linarith [h.two_mul_le]

lemma exists_gap_mul_eq (h : Resolves D τ t p e) (a : Bound ℤ) : ∃ n : ℤ, a.gap τ * D = n := by
  obtain ⟨r, hr⟩ := h.exists_num
  refine ⟨a.denom * r - a.num * D, ?_⟩
  rw [Bound.gap]
  push_cast
  linear_combination (a.denom : ℚ) * hr

lemma exists_neg_gap_mul_eq (h : Resolves D τ t p e) (a : Bound ℤ) :
    ∃ n : ℤ, -a.gap τ * D = n := by
  obtain ⟨n, hn⟩ := h.exists_gap_mul_eq a
  exact ⟨-n, by rw [neg_mul, hn, Int.cast_neg]⟩

lemma nonneg_of_neg_one_lt (h : Resolves D τ t p e) {g : ℚ} (hg : ∃ n : ℤ, g * D = n)
    (hlt : -1 < g * D) : 0 ≤ g := by
  obtain ⟨n, hn⟩ := hg
  have hn' : -1 < n := by
    rw [hn] at hlt
    exact_mod_cast hlt
  refine nonneg_of_mul_nonneg_left ?_ (lt_of_lt_of_le one_pos h.one_le_denom)
  rw [hn]
  exact_mod_cast (by omega : 0 ≤ n)

lemma one_le_of_pos (h : Resolves D τ t p e) {g : ℚ} (hg : ∃ n : ℤ, g * D = n) (hpos : 0 < g) :
    1 ≤ g * D := by
  obtain ⟨n, hn⟩ := hg
  have hprod : 0 < g * D := mul_pos hpos (lt_of_lt_of_le one_pos h.one_le_denom)
  rw [hn] at hprod ⊢
  exact_mod_cast hprod

lemma lt_of_eq_zero (h : Resolves D τ t p e) {g computed : ℚ} {d : ℤ}
    (herr : |computed - g| ≤ e * d) (hd : (d : ℚ) ≤ 2310 * D) (hg : g = 0) : computed < p := by
  have hle := mul_le_mul_of_nonneg_left hd h.noise_pos.le
  have hp := h.precision_pos
  rw [hg, sub_zero] at herr
  linarith [le_abs_self computed, h.noise_le]

lemma le_of_pos (h : Resolves D τ t p e) {g computed : ℚ} {d : ℤ}
    (herr : |computed - g| ≤ e * d) (hd : (d : ℚ) ≤ 5775 * D) (hg : ∃ n : ℤ, g * D = n)
    (hpos : 0 < g) : p ≤ computed := by
  have hD := h.one_le_denom
  have hle := mul_le_mul_of_nonneg_left hd h.noise_pos.le
  -- twice the precision is at most the distance
  have htwice : 2 * p ≤ g := by
    refine le_of_mul_le_mul_right ?_ (lt_of_lt_of_le one_pos hD)
    linarith [h.one_le_of_pos hg hpos, h.two_mul_le]
  have herr := (abs_le.mp herr).1
  linarith [h.noise_le]

end Resolves

/-! ## Two distances apart from zero -/

/-- Two bounds, one of which may be added to the other, with the distances `x` and `y` from `τ`,
both not zero, and the computed distances. -/
structure Apart (D : ℤ) (e x y nearGap farGap : ℚ) (near far : Bound ℤ) : Prop where
  seed_le_near : 2310 ≤ near.denom
  seed_le_far : 2310 ≤ far.denom
  sum_eq : x * far.denom + y * near.denom = 2310
  one_le_near : 1 ≤ x * D
  one_le_far : 1 ≤ y * D
  near_err : |nearGap - x| ≤ e * near.denom
  far_err : |farGap - y| ≤ e * far.denom

namespace Apart

variable {D : ℤ} {τ t p e x y nearGap farGap m : ℚ} {near far : Bound ℤ} {k : ℤ}

lemma symm (h : Apart D e x y nearGap farGap near far) : Apart D e y x farGap nearGap far near :=
  ⟨h.seed_le_far, h.seed_le_near, by rw [add_comm]; exact h.sum_eq, h.one_le_far, h.one_le_near,
    h.far_err, h.near_err⟩

lemma near_denom_ge (h : Apart D e x y nearGap farGap near far) : (2310 : ℚ) ≤ near.denom := by
  exact_mod_cast h.seed_le_near

lemma near_pos (h : Apart D e x y nearGap farGap near far) (hres : Resolves D τ t p e) : 0 < x := by
  by_contra! hx
  have := mul_nonpos_of_nonpos_of_nonneg hx (zero_le_one.trans hres.one_le_denom)
  linarith [h.one_le_near]

/-- The far distance takes its share of the determinant, which bounds it by one. -/
lemma far_le_one (h : Apart D e x y nearGap farGap near far) (hres : Resolves D τ t p e) :
    y ≤ 1 := by
  have hprod := mul_le_mul_of_nonneg_left h.near_denom_ge (h.symm.near_pos hres).le
  have hnear := mul_nonneg (h.near_pos hres).le ((by norm_num : (0 : ℚ) ≤ 2310).trans
    h.symm.near_denom_ge)
  linarith [h.sum_eq]

/-- The denominator of one bound is bounded through the distance of the other. -/
lemma far_denom_le (h : Apart D e x y nearGap farGap near far) (hres : Resolves D τ t p e) :
    (far.denom : ℚ) ≤ 2310 * D := by
  have hfar := h.symm.near_denom_ge
  have hD := hres.one_le_denom
  have hy := h.symm.near_pos hres
  have hnear : 0 ≤ y * near.denom := mul_nonneg hy.le (by linarith [h.near_denom_ge])
  calc (far.denom : ℚ) ≤ x * D * far.denom := le_mul_of_one_le_left (by linarith) h.one_le_near
    _ = D * (x * far.denom) := by ring
    _ ≤ D * 2310 := mul_le_mul_of_nonneg_left (by linarith [h.sum_eq]) (by linarith)
    _ = 2310 * D := mul_comm _ _

lemma noise_le (h : Apart D e x y nearGap farGap near far) (hres : Resolves D τ t p e) :
    e * near.denom ≤ x / 6 := by
  have hD := hres.one_le_denom
  have hdenom := mul_le_mul_of_nonneg_left (h.symm.far_denom_le hres) hres.noise_pos.le
  have htwice : 2 * p ≤ x := by
    refine le_of_mul_le_mul_right ?_ (lt_of_lt_of_le one_pos hD)
    linarith [h.one_le_near, hres.two_mul_le]
  linarith [hres.noise_le]

lemma nearGap_bounds (h : Apart D e x y nearGap farGap near far) (hres : Resolves D τ t p e) :
    5 / 6 * x ≤ nearGap ∧ nearGap ≤ 7 / 6 * x := by
  have hnoise := h.noise_le hres
  have herr := abs_le.mp h.near_err
  constructor <;> linarith [herr.1, herr.2]

/-- The copies of the near distance are not much more than the far distance. -/
lemma copies_mul_le (h : Apart D e x y nearGap farGap near far) (hres : Resolves D τ t p e)
    (hadv : Bracket.Advance m nearGap farGap near far k) : k * x ≤ 3 / 2 * y := by
  have hx := h.near_pos hres
  have hy := h.symm.near_pos hres
  have hnear := h.nearGap_bounds hres
  have hfar := h.symm.nearGap_bounds hres
  have hk : (1 : ℚ) ≤ k := by exact_mod_cast hadv.one_le
  have hcopies := (hadv.copies_mul_le (by linarith) (by linarith)).1
  have hprod := mul_le_mul_of_nonneg_left hnear.1 (zero_le_one.trans hk)
  linarith

/-- So the next denominator is bounded through the near distance. -/
lemma next_denom_le (h : Apart D e x y nearGap farGap near far) (hres : Resolves D τ t p e)
    (hadv : Bracket.Advance m nearGap farGap near far k) :
    (k * near.denom + far.denom : ℚ) ≤ 3465 * D := by
  have hD := hres.one_le_denom
  have hx := h.near_pos hres
  have hnear := h.near_denom_ge
  have hfar := h.symm.near_denom_ge
  have hk : (1 : ℚ) ≤ k := by exact_mod_cast hadv.one_le
  have hnext : (0 : ℚ) ≤ k * near.denom + far.denom := by positivity
  have hcopies := mul_le_mul_of_nonneg_right (h.copies_mul_le hres hadv)
    (by linarith : (0 : ℚ) ≤ near.denom)
  have hshare : x * (k * near.denom + far.denom) ≤ 3465 := by
    have hxfar : 0 ≤ x * far.denom := by positivity
    linarith [h.sum_eq]
  calc (k * near.denom + far.denom : ℚ)
      ≤ x * D * (k * near.denom + far.denom) := le_mul_of_one_le_left hnext h.one_le_near
    _ = D * (x * (k * near.denom + far.denom)) := by ring
    _ ≤ D * 3465 := mul_le_mul_of_nonneg_left hshare (by linarith)
    _ = 3465 * D := mul_comm _ _

/-- **An advance does not pass `τ`.**  The new distances, being multiples of `1 / D` above
`-1 / D`, are not negative. -/
lemma gaps_nonneg (h : Apart D e x y nearGap farGap near far) (hres : Resolves D τ t p e)
    (hadv : Bracket.Advance m nearGap farGap near far k) (hxD : ∃ n : ℤ, x * D = n)
    (hyD : ∃ n : ℤ, y * D = n) : 0 ≤ y - k * x ∧ 0 ≤ x - (y - k * x) := by
  have hD := hres.one_le_denom
  have he := hres.noise_pos
  have hx := h.near_pos hres
  have hy := h.symm.near_pos hres
  have hnear := h.nearGap_bounds hres
  have hfar := h.symm.nearGap_bounds hres
  have hk : (1 : ℚ) ≤ k := by exact_mod_cast hadv.one_le
  obtain ⟨hupper, hlower⟩ := hadv.copies_mul_le (by linarith) (by linarith)
  -- the quotient is rounded by less than the noise of one part
  have hround : farGap / 2 ^ 53 ≤ e := by
    have hunit := hres.unit_le
    rw [unitRoundoff] at hunit
    linarith [h.far_le_one hres]
  -- the noise of all copies together is below `1 / D`
  have hnearerr := abs_le.mp h.near_err
  have hfarerr := abs_le.mp h.far_err
  have hcopies := mul_le_mul_of_nonneg_left hnearerr.2 (zero_le_one.trans hk)
  have hcopies' := mul_le_mul_of_nonneg_left hnearerr.1 (zero_le_one.trans hk)
  have hnext := mul_le_mul_of_nonneg_left (h.next_denom_le hres hadv) he.le
  have hnearnoise := mul_le_mul_of_nonneg_left (h.symm.far_denom_le hres) he.le
  have hbudget := hres.noise_mul_lt_one
  have hpass : -(e + e * (5775 * D)) ≤ y - k * x := by linarith
  have hpass' : -(e + e * (5775 * D)) ≤ x - (y - k * x) := by linarith
  obtain ⟨i, hi⟩ := hxD
  obtain ⟨j, hj⟩ := hyD
  constructor
  · refine hres.nonneg_of_neg_one_lt ⟨j - k * i, ?_⟩ ?_
    · push_cast
      linear_combination hj - (k : ℚ) * hi
    · linarith [mul_le_mul_of_nonneg_right hpass (zero_le_one.trans hD)]
  · refine hres.nonneg_of_neg_one_lt ⟨i - (j - k * i), ?_⟩ ?_
    · push_cast
      linear_combination hi - hj + (k : ℚ) * hi
    · linarith [mul_le_mul_of_nonneg_right hpass' (zero_le_one.trans hD)]

/-- The estimate of the next denominator stays far below the usual ceiling. -/
lemma estimate_le (h : Apart D e x y nearGap farGap near far) (hres : Resolves D τ t p e) :
    Bracket.estimate (roundOff (farGap / nearGap)) near far ≤ 2 ^ 53 := by
  have hD := hres.denom_le
  have hx := h.near_pos hres
  have hnear := h.nearGap_bounds hres
  have hfar := h.symm.nearGap_bounds hres
  have hneardenom := h.symm.far_denom_le hres
  have hfardenom := h.far_denom_le hres
  have hpos := h.near_denom_ge
  have hpos' := h.symm.near_denom_ge
  have hnearGap : 0 < nearGap := by linarith
  have hfarGap : 0 < farGap := by linarith [h.symm.near_pos hres]
  have hratio : roundOff (farGap / nearGap) ≤ 2 ^ 20 := by
    refine (representable_two_pow 20).roundOff_le ?_
    rw [div_le_iff₀ hnearGap]
    linarith [h.far_le_one hres, h.one_le_near, mul_le_mul_of_nonneg_left hD hx.le]
  have hcopies : roundOff (roundOff (farGap / nearGap) + 1) ≤ 2 ^ 21 :=
    (representable_two_pow 21).roundOff_le (by linarith)
  have hroundnear : roundOff near.denom ≤ 2 ^ 31 :=
    (representable_two_pow 31).roundOff_le (by linarith)
  have hroundfar : roundOff far.denom ≤ 2 ^ 31 :=
    (representable_two_pow 31).roundOff_le (by linarith)
  have hprod : roundOff (roundOff (roundOff (farGap / nearGap) + 1) * roundOff near.denom) ≤
      2 ^ 52 := by
    refine (representable_two_pow 52).roundOff_le ?_
    calc roundOff (roundOff (farGap / nearGap) + 1) * roundOff near.denom
        ≤ 2 ^ 21 * 2 ^ 31 :=
          mul_le_mul hcopies hroundnear (roundOff_nonneg (by linarith)) (by positivity)
      _ = 2 ^ 52 := by norm_num
  exact (representable_two_pow 53).roundOff_le (by linarith)

end Apart

/-! ## The invariant -/

namespace Bracket

/-- The rational number `τ` is between the bounds, whose denominators are bounded by a multiple of
`D`. -/
structure Straddles (D : ℤ) (τ : ℚ) (b : Bracket ℤ) : Prop where
  low : 0 ≤ b.low.gap τ
  high : 0 ≤ -b.high.gap τ
  low_denom_le : (b.low.denom : ℚ) ≤ 5775 * D
  high_denom_le : (b.high.denom : ℚ) ≤ 5775 * D

variable {D : ℤ} {τ t p e m : ℚ} {goal : Goal} {b c d : Bracket ℤ} {n : ℕ}

/-- The computed distances are off from the distances to `τ` by the noise. -/
lemma Holds.abs_sub_gaps_le_noise (h : b.Holds t) (hb : b.Regular 2310) (h0 : 0 ≤ t) (h1 : t ≤ 1)
    (hres : Resolves D τ t p e) : |b.below t - b.low.gap τ| ≤ e * b.low.denom ∧
      |b.above t - -b.high.gap τ| ≤ e * b.high.denom := by
  have hshift : ∀ a : Bound ℤ, 2310 ≤ a.denom → |a.gap t - a.gap τ| + 4 * unitRoundoff * a.denom ≤
      e * a.denom := by
    intro a ha
    have hdenom : (0 : ℚ) ≤ a.denom := by exact_mod_cast (by omega : 0 ≤ a.denom)
    have hgap : a.gap t - a.gap τ = a.denom * (t - τ) := by
      rw [Bound.gap, Bound.gap]
      ring
    rw [hgap, abs_mul, abs_of_nonneg hdenom, mul_comm, ← add_mul]
    exact mul_le_mul_of_nonneg_right hres.abs_sub_add_le hdenom
  obtain ⟨hlow, hhigh⟩ := h.abs_sub_gaps_le hb le_rfl h0 h1
  constructor
  · have := abs_sub_le (b.below t) (b.low.gap t) (b.low.gap τ)
    linarith [hshift b.low hb.seed_le_low]
  · have := abs_sub_le (b.above t) (-b.high.gap t) (-b.high.gap τ)
    rw [neg_sub_neg, abs_sub_comm (b.high.gap τ)] at this
    linarith [hshift b.high hb.seed_le_high]

/-- A distance whose computed value is not below the precision is not zero. -/
lemma pos_of_precision_le {near far : ℤ} {x y computed : ℚ} (hres : Resolves D τ t p e)
    (hnear : 2310 ≤ near) (hx : 0 ≤ x) (hsum : x * far + y * near = 2310)
    (hyD : ∃ n : ℤ, y * D = n) (herr : |computed - x| ≤ e * near) (hle : p ≤ computed) : 0 < x := by
  by_contra! hneg
  have hzero : x = 0 := le_antisymm hneg hx
  have hnear' : (2310 : ℚ) ≤ near := by exact_mod_cast hnear
  have hD := hres.one_le_denom
  rw [hzero, zero_mul, zero_add] at hsum
  have hy : 0 < y := pos_of_mul_pos_left (by linarith) (by linarith : (0 : ℚ) ≤ near)
  have hdenom : (near : ℚ) ≤ 2310 * D := by
    have := mul_le_mul_of_nonneg_right (hres.one_le_of_pos hyD hy) (by linarith : (0 : ℚ) ≤ near)
    linarith [congrArg (· * (D : ℚ)) hsum]
  exact absurd (hres.lt_of_eq_zero herr hdenom hzero) (not_lt.mpr hle)

/-- Where a step refines or is blocked, `τ` is strictly between the bounds. -/
lemma Straddles.apart (h : b.Straddles D τ) (hb : b.Regular 2310) (hholds : b.Holds t) (h0 : 0 ≤ t)
    (h1 : t ≤ 1) (hres : Resolves D τ t p e) (habove : p ≤ b.above t) (hbelow : p ≤ b.below t) :
    Apart D e (b.low.gap τ) (-b.high.gap τ) (b.below t) (b.above t) b.low b.high := by
  obtain ⟨hlowErr, hhighErr⟩ := hholds.abs_sub_gaps_le_noise hb h0 h1 hres
  have hsum := b.gaps_eq τ
  rw [hb.determinant_eq, Int.cast_ofNat] at hsum
  have hlowD := hres.exists_gap_mul_eq b.low
  have hhighD := hres.exists_neg_gap_mul_eq b.high
  have hlow := pos_of_precision_le hres hb.seed_le_low h.low hsum hhighD hlowErr hbelow
  rw [add_comm] at hsum
  have hhigh := pos_of_precision_le hres hb.seed_le_high h.high hsum hlowD hhighErr habove
  rw [add_comm] at hsum
  exact ⟨hb.seed_le_low, hb.seed_le_high, hsum, hres.one_le_of_pos hlowD hlow,
    hres.one_le_of_pos hhighD hhigh, hlowErr, hhighErr⟩

/-- What an advance makes of the bounds on distances and denominators. -/
lemma Advance.straddle {x y nearGap farGap : ℚ} {near far : Bound ℤ} {k : ℤ}
    (hadv : Advance m nearGap farGap near far k) (h : Apart D e x y nearGap farGap near far)
    (hres : Resolves D τ t p e) (hxD : ∃ n : ℤ, x * D = n) (hyD : ∃ n : ℤ, y * D = n) :
    (0 ≤ y - k * x ∧ 0 ≤ x - (y - k * x)) ∧
      (k * near.denom + far.denom : ℚ) ≤ 5775 * D ∧
      (k * near.denom + far.denom + near.denom : ℚ) ≤ 5775 * D := by
  have hnext := h.next_denom_le hres hadv
  have hnear := h.symm.far_denom_le hres
  have hD := hres.one_le_denom
  exact ⟨h.gaps_nonneg hres hadv hxD hyD, by linarith, by linarith⟩

/-- **Every refinement keeps `τ` between the bounds.** -/
theorem straddles_of_refined (hb : Start 2310 t p m goal b) (hholds : b.Holds t)
    (hres : Resolves D τ t p e) (h : b.Straddles D τ) (hstep : b.step goal = .ok (.refined d)) :
    d.Straddles D τ := by
  have hreg := hb.bounded.toRegular
  have hgoal := hb.denotes
  rw [hb.step_eq] at hstep
  have hstep := Except.ok.inj hstep
  obtain ⟨habove, hbelow⟩ :=
    le_gaps_of_exactStep (by rw [hstep]; nofun) (by rw [hstep]; nofun)
  have hapart := h.apart hreg hholds hgoal.target_nonneg hgoal.target_le_one hres habove hbelow
  have hlowD := hres.exists_gap_mul_eq b.low
  have hhighD := hres.exists_neg_gap_mul_eq b.high
  obtain ⟨k, ⟨rfl, hadv⟩ | ⟨rfl, hadv⟩⟩ := refined_cases hgoal.precision_pos hstep
  · obtain ⟨⟨hfar, hnear⟩, hdenom, hdenom'⟩ := hadv.straddle hapart hres hlowD hhighD
    constructor <;> simp only [refineHigh, Bound.combine, Bound.gap, Denominator.combine_int]
      at hfar hnear hdenom hdenom' ⊢ <;> push_cast <;> linarith
  · obtain ⟨⟨hfar, hnear⟩, hdenom, hdenom'⟩ := hadv.straddle hapart.symm hres hhighD hlowD
    constructor <;> simp only [refineLow, Bound.combine, Bound.gap, Denominator.combine_int]
      at hfar hnear hdenom hdenom' ⊢ <;> push_cast <;> linarith

lemma Straddles.reached (hb : Start 2310 t p m goal b) (hholds : b.Holds t)
    (hres : Resolves D τ t p e) (h : b.Straddles D τ) (hreach : b.Reaches goal n c) :
    c.Straddles D τ := by
  induction hreach with
  | start => exact h
  | step hprev hstep ih =>
    exact straddles_of_refined (hb.reached hprev) (hholds.reached le_rfl hb hprev) hres ih hstep

/-- The starting cell is chosen by a rounded product, which does not reach past a multiple of
`1 / D`. -/
lemma straddles_cell (h0 : 0 ≤ t) (h1 : t ≤ 1) (hres : Resolves D τ t p e) :
    (cell 2310 ⌊roundOff (t * 2310)⌋).Straddles D τ := by
  have hD := hres.one_le_denom
  have he := hres.noise_pos
  have hunit := hres.unit_le
  have htiny : tiny ≤ 1 / 2 ^ 53 := tiny_le_two_pow (by norm_num)
  rw [unitRoundoff] at hunit
  have herr := abs_roundOff_sub_le (t * 2310)
  rw [abs_of_nonneg (by positivity : 0 ≤ t * 2310), abs_le] at herr
  have hshift := abs_le.mp ((le_add_of_nonneg_right (by rw [unitRoundoff]; positivity)).trans
    hres.abs_sub_add_le)
  have hfloor := Int.floor_le (roundOff (t * 2310))
  have hfloor' := Int.lt_floor_add_one (roundOff (t * 2310))
  -- the noise of one cell is less than `1 / D`
  have hbudget : 4620 * e * D < 1 := by
    have hsmall : e * D ≤ e * D * D := le_mul_of_one_le_right (by positivity) hD
    linarith [hres.noise_mul_lt_one, mul_pos he (lt_of_lt_of_le one_pos hD)]
  have hlow : -(4620 * e) ≤ (cell 2310 ⌊roundOff (t * 2310)⌋).low.gap τ := by
    simp only [cell, Bound.gap]
    push_cast
    linarith [hshift.1, hshift.2, herr.1, herr.2]
  have hhigh : -(4620 * e) ≤ -(cell 2310 ⌊roundOff (t * 2310)⌋).high.gap τ := by
    simp only [cell, Bound.gap]
    push_cast
    linarith [hshift.1, hshift.2, herr.1, herr.2]
  refine ⟨hres.nonneg_of_neg_one_lt (hres.exists_gap_mul_eq _) ?_, ?_, ?_, ?_⟩
  · linarith [mul_le_mul_of_nonneg_right hlow (zero_le_one.trans hD)]
  · refine hres.nonneg_of_neg_one_lt (hres.exists_neg_gap_mul_eq _) ?_
    linarith [mul_le_mul_of_nonneg_right hhigh (zero_le_one.trans hD)]
  · simp only [cell]
    push_cast
    linarith
  · simp only [cell]
    push_cast
    linarith

/-! ## The answer -/

lemma toRat_eq_of_gap_eq_zero {a : Bound ℤ} (ha : 0 < a.denom) (h : a.gap τ = 0) :
    a.toRat = τ := by
  have hdenom : (0 : ℚ) < a.denom := by exact_mod_cast ha
  rw [Bound.toRat, div_eq_iff hdenom.ne']
  rw [Bound.gap] at h
  linarith

/-- **A run ends with `τ` itself**, and no ceiling beyond `2 ^ 53` stops it. -/
theorem Straddles.answer {o : Outcome ℤ} (hb : Start 2310 t p m goal b) (hholds : b.Holds t)
    (hres : Resolves D τ t p e) (h : b.Straddles D τ) (hm : 2 ^ 53 < m) (hends : b.Ends goal n o) :
    o.overflowed = false ∧ o.bracket.high.toRat = τ := by
  have hreg := hb.bounded.toRegular
  have hgoal := hb.denotes
  have hstep := hb.step_eq
  obtain ⟨hlowErr, hhighErr⟩ :=
    hholds.abs_sub_gaps_le_noise hreg hgoal.target_nonneg hgoal.target_le_one hres
  cases hends with
  | hitHigh hhit =>
    rw [hhit] at hstep
    have hlt := above_lt_of_exactStep_eq_hitHigh (Except.ok.inj hstep).symm
    refine ⟨rfl, toRat_eq_of_gap_eq_zero (hreg.high_denom_pos hb.seed_pos) ?_⟩
    by_contra hne
    have hpos : 0 < -b.high.gap τ := lt_of_le_of_ne h.high (fun h0 => hne (by linarith))
    have hle := hres.le_of_pos hhighErr h.high_denom_le (hres.exists_neg_gap_mul_eq _) hpos
    linarith
  | hitLow hhit =>
    rw [hhit] at hstep
    have hlt := below_lt_of_exactStep_eq_hitLow (Except.ok.inj hstep).symm
    refine ⟨rfl, toRat_eq_of_gap_eq_zero (hreg.low_denom_pos hb.seed_pos) ?_⟩
    by_contra hne
    have hpos : 0 < b.low.gap τ := lt_of_le_of_ne h.low (Ne.symm hne)
    have hle := hres.le_of_pos hlowErr h.low_denom_le (hres.exists_gap_mul_eq _) hpos
    linarith
  | blocked hblocked =>
    rw [hblocked] at hstep
    have hstep := (Except.ok.inj hstep).symm
    obtain ⟨habove, hbelow⟩ :=
      le_gaps_of_exactStep (by rw [hstep]; nofun) (by rw [hstep]; nofun)
    have hapart := h.apart hreg hholds hgoal.target_nonneg hgoal.target_le_one hres habove hbelow
    rcases le_estimate_of_exactStep_eq_blocked hstep with hle | hle
    · linarith [hapart.estimate_le hres]
    · linarith [hapart.symm.estimate_le hres]

end Bracket
end Mediant
