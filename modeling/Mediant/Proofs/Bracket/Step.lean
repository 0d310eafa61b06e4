import Mediant.Proofs.Bracket.Regular
import Mediant.Proofs.Faults
import Mediant.Proofs.Rounding.Operations

/-!
# A step in rational arithmetic

A step of the search computes in doubles: two scaled distances, their two ratios, and an estimate of
the next denominator.  This file gives the same step as a computation in rational numbers, in
which every result passes through `roundOff`; for brackets of a reasonable size nothing can be out
of range on the way except a ratio, and a ratio that is out of range blocks the step.
`step_eq_exactStep` states that the two are equal, so that no later argument has to look at doubles
again.

The signs are chosen as in `gap`: positive for a bound below the target.  The direction of a step
makes one bound the *near* one, copies of which are added to the other, the *far* one.  `Advance`
collects what is known of a direction that a step has taken, in terms of near and far, and
`refined_cases` says that every refinement is an advance in one of the two directions.
-/

namespace Mediant

open Binary64

/-! ## Steps of any bracket -/

namespace Bracket

/-- What a step does with the two distances: it tests the upper bound, then the lower one, and else
refines. -/
theorem step_eq_ok_iff {δ : Type} [Denominator δ] {goal : Goal} {b : Bracket δ} {out : Step δ} :
    b.step goal = .ok out ↔ ∃ below above, b.low.gapBelow goal.target = .ok below ∧
      b.high.gapAbove goal.target = .ok above ∧
      (above.lt goal.precision = true ∧ out = .hitHigh ∨
        above.lt goal.precision = false ∧ below.lt goal.precision = true ∧ out = .hitLow ∨
        above.lt goal.precision = false ∧ below.lt goal.precision = false ∧
          b.refine goal.ceiling below above = .ok out) := by
  constructor
  · intro h
    unfold step at h
    obtain ⟨below, hbelow, h⟩ := Except.bind_eq_ok.mp h
    obtain ⟨above, habove, h⟩ := Except.bind_eq_ok.mp h
    refine ⟨below, above, hbelow, habove, ?_⟩
    split at h
    · rename_i hhigh
      exact .inl ⟨hhigh, (Except.ok.inj h).symm⟩
    rename_i hhigh
    rw [Bool.not_eq_true] at hhigh
    split at h
    · rename_i hlow
      exact .inr (.inl ⟨hhigh, hlow, (Except.ok.inj h).symm⟩)
    · rename_i hlow
      exact .inr (.inr ⟨hhigh, Bool.eq_false_iff.mpr hlow, h⟩)
  · rintro ⟨below, above, hbelow, habove, h⟩
    rw [step, hbelow, Except.bind_ok, habove, Except.bind_ok]
    rcases h with ⟨hhigh, rfl⟩ | ⟨hhigh, hlow, rfl⟩ | ⟨hhigh, hlow, hrefine⟩
    · rw [if_pos hhigh, Except.pure_eq]
    · rw [hhigh, if_neg Bool.false_ne_true, if_pos hlow, Except.pure_eq]
    · rw [hhigh, if_neg Bool.false_ne_true, hlow, if_neg Bool.false_ne_true, hrefine]

/-- A step that finds no bound near enough takes one of the two directions. -/
lemma exists_refine_eq_of_step {δ : Type} [Denominator δ] {goal : Goal} {b : Bracket δ}
    {out : Step δ} (h : b.step goal = .ok out) (hhigh : out ≠ .hitHigh) (hlow : out ≠ .hitLow) :
    ∃ below above, b.low.gapBelow goal.target = .ok below ∧
      b.high.gapAbove goal.target = .ok above ∧ above.lt goal.precision = false ∧
      below.lt goal.precision = false ∧ b.refine goal.ceiling below above = .ok out := by
  simpa only [step_eq_ok_iff, hhigh, hlow, and_false, false_or] using h

/-- A step that refines adds a number of copies that is not negative, whatever the doubles were
that it computed with. -/
theorem exists_refine_of_step_eq_refined {goal : Goal} {p : ℚ} {c d : Bracket ℤ}
    (hp : goal.precision.Denotes p) (hpos : 0 < p) (h : c.step goal = .ok (.refined d)) :
    ∃ n, 0 ≤ n ∧ (d = c.refineHigh n ∨ d = c.refineLow n) := by
  have hunder : ∀ {ratio : Binary64} {a b : Bound ℤ} {next : ℤ → Bracket ℤ},
      NotNegative ratio → refineUnder goal.ceiling ratio a b next = .ok (.refined d) →
      ∃ n, 0 ≤ n ∧ d = next n := by
    intro ratio a b next hratio hstep
    unfold refineUnder at hstep
    obtain ⟨guard, -, hstep⟩ := Except.bind_eq_ok.mp hstep
    split at hstep
    · cases hstep
    · obtain ⟨n, hn, hstep⟩ := Except.bind_eq_ok.mp hstep
      exact ⟨n, hratio.toInteger hn, (Step.refined.inj (Except.ok.inj hstep)).symm⟩
  obtain ⟨below, above, -, -, habove, hbelow, h⟩ := exists_refine_eq_of_step h nofun nofun
  have hnear := notNegative_of_lt_eq_false hp hpos hbelow
  have hfar := notNegative_of_lt_eq_false hp hpos habove
  unfold refine at h
  obtain ⟨down, hdown, h⟩ := Except.bind_eq_ok.mp h
  obtain ⟨up, hup, h⟩ := Except.bind_eq_ok.mp h
  split at h
  · obtain ⟨n, hn, hd⟩ := hunder (hfar.divide hnear hdown) h
    exact ⟨n, hn, .inl hd⟩
  · obtain ⟨n, hn, hd⟩ := hunder (hnear.divide hfar hup) h
    exact ⟨n, hn, .inr hd⟩

end Bracket

/-! ## Scaled distances -/

namespace Bound

/-- The scaled distance of a target above a bound. -/
def gap (a : Bound ℤ) (t : ℚ) : ℚ := a.denom * t - a.num

/-- The scaled distance of a target above a bound, computed in doubles. -/
def roundedGap (a : Bound ℤ) (t : ℚ) : ℚ :=
  roundOff (roundOff (roundOff a.denom * t) - roundOff a.num)

/-- Numerator and denominator are far from the largest double, and the denominator is positive. -/
structure Sized (a : Bound ℤ) : Prop where
  denom_pos : 0 < a.denom
  denom_le : a.denom ≤ 2 ^ 100
  abs_num_le : |a.num| ≤ 2 ^ 100

lemma abs_intCast_le {n : ℤ} (h : |n| ≤ 2 ^ 100) : |(n : ℚ)| ≤ 2 ^ 100 := by
  rw [← Int.cast_abs]
  exact_mod_cast h

namespace Sized

variable {a : Bound ℤ} {target : Binary64} {t : ℚ}

lemma denom_ne_zero (h : a.Sized) : a.denom ≠ 0 := h.denom_pos.ne'

lemma one_le_roundOff (h : a.Sized) : 1 ≤ roundOff a.denom := by
  have hone : (1 : ℚ) ≤ a.denom := by exact_mod_cast h.denom_pos
  exact representable_one.le_roundOff hone

lemma abs_denom_le (h : a.Sized) : |(a.denom : ℚ)| ≤ 2 ^ 100 :=
  abs_intCast_le (by rw [abs_of_pos h.denom_pos]; exact h.denom_le)

lemma toDouble_denom (h : a.Sized) :
    ∃ x, Mediant.toDouble a.denom = .ok x ∧ x.Denotes (roundOff a.denom) :=
  toDouble_eq (abs_roundOff_lt_overflowValue (h.abs_denom_le.trans (by norm_num)))

lemma toDouble_num (h : a.Sized) :
    ∃ x, Mediant.toDouble a.num = .ok x ∧ x.Denotes (roundOff a.num) :=
  toDouble_eq (abs_roundOff_lt_overflowValue ((abs_intCast_le h.abs_num_le).trans (by norm_num)))

/-- The bound on the product that both scaled distances start with. -/
lemma abs_product_le (h : a.Sized) (h0 : 0 ≤ t) (h1 : t ≤ 1) :
    |roundOff a.denom * t| ≤ 2 ^ 100 := by
  have hround := abs_roundOff_le (representable_two_pow 100) h.abs_denom_le
  rw [abs_mul, abs_of_nonneg h0]
  calc |roundOff a.denom| * t ≤ |roundOff a.denom| * 1 :=
        mul_le_mul_of_nonneg_left h1 (abs_nonneg _)
    _ ≤ 2 ^ 100 := by rwa [mul_one]

lemma denotes_product (h : a.Sized) (ht : target.Denotes t) (h0 : 0 ≤ t) (h1 : t ≤ 1) :
    ∃ x, Mediant.toDouble a.denom = .ok x ∧
      (x.mul target).Denotes (roundOff (roundOff a.denom * t)) := by
  obtain ⟨x, hx, hden⟩ := h.toDouble_denom
  refine ⟨x, hx, hden.mul ht (abs_roundOff_lt_overflowValue ?_)⟩
  exact (h.abs_product_le h0 h1).trans (by norm_num)

lemma abs_roundOff_difference_lt (h : a.Sized) (h0 : 0 ≤ t) (h1 : t ≤ 1) :
    |roundOff (roundOff (roundOff a.denom * t) - roundOff a.num)| < overflowValue := by
  refine abs_roundOff_lt_overflowValue ?_
  have hprod := abs_roundOff_le (representable_two_pow 100) (h.abs_product_le h0 h1)
  have hnum := abs_roundOff_le (representable_two_pow 100) (abs_intCast_le h.abs_num_le)
  calc |roundOff (roundOff a.denom * t) - roundOff a.num|
      ≤ |roundOff (roundOff a.denom * t)| + |roundOff a.num| := abs_sub _ _
    _ ≤ 2 ^ 100 + 2 ^ 100 := add_le_add hprod hnum
    _ ≤ 2 ^ 190 := by norm_num

lemma gapBelow_eq (h : a.Sized) (ht : target.Denotes t) (h0 : 0 ≤ t) (h1 : t ≤ 1) :
    ∃ x, a.gapBelow target = .ok x ∧ x.Denotes (a.roundedGap t) := by
  obtain ⟨x, hx, hprod⟩ := h.denotes_product ht h0 h1
  obtain ⟨y, hy, hnum⟩ := h.toDouble_num
  refine ⟨(x.mul target).sub y, ?_, hprod.sub hnum (h.abs_roundOff_difference_lt h0 h1)⟩
  rw [gapBelow, Denominator.toDouble_int, hx, Except.bind_ok, hy, Except.bind_ok, Except.pure_eq]

lemma gapAbove_eq (h : a.Sized) (ht : target.Denotes t) (h0 : 0 ≤ t) (h1 : t ≤ 1) :
    ∃ x, a.gapAbove target = .ok x ∧ x.Denotes (-a.roundedGap t) := by
  obtain ⟨x, hx, hprod⟩ := h.denotes_product ht h0 h1
  obtain ⟨y, hy, hnum⟩ := h.toDouble_num
  have hneg : roundOff (roundOff a.num - roundOff (roundOff a.denom * t)) = -a.roundedGap t := by
    rw [roundedGap, ← roundOff_neg, neg_sub]
  refine ⟨y.sub (x.mul target), ?_, ?_⟩
  · rw [gapAbove, hy, Except.bind_ok, Denominator.toDouble_int, hx, Except.bind_ok, Except.pure_eq]
  · rw [← hneg]
    refine hnum.sub hprod ?_
    rw [hneg, abs_neg]
    exact h.abs_roundOff_difference_lt h0 h1

end Sized
end Bound

/-! ## The step -/

/-- What the numbers of a goal are: a target in the unit interval, a positive precision, and a
ceiling in the range of doubles. -/
structure Goal.Denotes (goal : Goal) (t p m : ℚ) : Prop where
  target : goal.target.Denotes t
  target_nonneg : 0 ≤ t
  target_le_one : t ≤ 1
  precision : goal.precision.Denotes p
  precision_pos : 0 < p
  ceiling : goal.ceiling = .rational m
  ceiling_lt : m < overflowValue

namespace Bracket

/-- Both bounds are far from the largest double. -/
structure Sized (b : Bracket ℤ) : Prop where
  low : b.low.Sized
  high : b.high.Sized

/-- The scaled distance of the target below the upper bound, computed in doubles. -/
def above (b : Bracket ℤ) (t : ℚ) : ℚ := -b.high.roundedGap t

/-- The scaled distance of the target above the lower bound, computed in doubles. -/
def below (b : Bracket ℤ) (t : ℚ) : ℚ := b.low.roundedGap t

/-- The estimate of the next denominator, if `ratio` copies of one bound are added to another. -/
def estimate (ratio : ℚ) (near far : Bound ℤ) : ℚ :=
  roundOff (roundOff (roundOff (ratio + 1) * roundOff near.denom) + roundOff far.denom)

/-- The step that adds copies of the near bound to the far one. -/
def exactRefine (m ratio : ℚ) (near far : Bound ℤ) (next : ℤ → Bracket ℤ) : Step ℤ :=
  if m ≤ estimate ratio near far then .blocked else .refined (next ⌊ratio⌋)

/-- The step of the search in rational arithmetic. -/
def exactStep (t p m : ℚ) (b : Bracket ℤ) : Step ℤ :=
  let down := roundOff (b.above t / b.below t)
  let up := roundOff (b.below t / b.above t)
  if b.above t < p then .hitHigh
  else if b.below t < p then .hitLow
  else if up < down then exactRefine m down b.low b.high b.refineHigh
  else exactRefine m up b.high b.low b.refineLow

/-- The estimate in doubles is the estimate in rational numbers, if that is in range. -/
lemma nextDenominator_eq {ratio : Binary64} {x : ℚ} {near far : Bound ℤ}
    (hratio : ratio.Saturates x) (hx : 0 ≤ x) (hnear : near.Sized) (hfar : far.Sized) :
    ∃ z, nextDenominator ratio near far = .ok z ∧ z.Saturates (estimate x near far) := by
  obtain ⟨y, hy, hyden⟩ := hnear.toDouble_denom
  obtain ⟨w, hw, hwden⟩ := hfar.toDouble_denom
  refine ⟨((ratio.add .one).mul y).add w, ?_, ?_⟩
  · rw [nextDenominator, Denominator.toDouble_int, hy, Except.bind_ok, Denominator.toDouble_int,
      hw, Except.bind_ok, Except.pure_eq]
  · have hsum := hratio.add hx denotes_one zero_le_one
    have hnonneg : 0 ≤ roundOff (x + 1) := roundOff_nonneg (by linarith)
    have hprod := hsum.mul hnonneg hyden hnear.one_le_roundOff
    have hpos := hnear.one_le_roundOff
    exact hprod.add (roundOff_nonneg (mul_nonneg hnonneg (by linarith))) hwden
      (by linarith [hfar.one_le_roundOff])

lemma overflowValue_le_estimate {x : ℚ} {near far : Bound ℤ} (hx : overflowValue ≤ x)
    (hnear : near.Sized) (hfar : far.Sized) : overflowValue ≤ estimate x near far := by
  have hone := hnear.one_le_roundOff
  have hpos := overflowValue_pos
  have hrep := representable_overflowValue
  have hsum : overflowValue ≤ roundOff (x + 1) := hrep.le_roundOff (by linarith)
  have hprod : overflowValue ≤ roundOff (roundOff (x + 1) * roundOff near.denom) := by
    refine hrep.le_roundOff (hsum.trans ?_)
    exact le_mul_of_one_le_right (hpos.le.trans hsum) hone
  refine hrep.le_roundOff ?_
  linarith [hfar.one_le_roundOff]

lemma refineUnder_eq {ceiling : Extended} {m : ℚ} {ratio : Binary64} {x : ℚ} {near far : Bound ℤ}
    {next : ℤ → Bracket ℤ} (hceiling : ceiling = .rational m) (hm : m < overflowValue)
    (hratio : ratio.Saturates x) (hx : 0 ≤ x) (hnear : near.Sized) (hfar : far.Sized) :
    refineUnder ceiling ratio near far next = .ok (exactRefine m x near far next) := by
  obtain ⟨z, hz, hsat⟩ := nextDenominator_eq hratio hx hnear hfar
  have hcmp := hsat.ge_rational hm
  unfold refineUnder
  rw [hz, Except.bind_ok, hceiling, hcmp, exactRefine]
  by_cases hblocked : m ≤ estimate x near far
  · rw [decide_eq_true hblocked, if_pos rfl, if_pos hblocked, Except.pure_eq]
  · have hlt : x < overflowValue := by
      by_contra hover
      exact hblocked (hm.le.trans (overflowValue_le_estimate (not_lt.mp hover) hnear hfar))
    have hint := (hratio.denotes_of_lt hlt).toInteger_truncate hx
    rw [decide_eq_false hblocked, if_neg Bool.false_ne_true, if_neg hblocked, hint,
      Except.bind_ok, Except.pure_eq]

lemma ratio_lt_overflowValue {x y : ℚ} (hx : 0 < x) (hy : 0 < y) :
    roundOff (x / y) < overflowValue ∨ roundOff (y / x) < overflowValue := by
  have hone : (1 : ℚ) < overflowValue := lt_of_lt_of_le (by norm_num) le_overflowValue
  rcases le_total x y with h | h
  · exact .inl ((representable_one.roundOff_le ((div_le_one hy).mpr h)).trans_lt hone)
  · exact .inr ((representable_one.roundOff_le ((div_le_one hx).mpr h)).trans_lt hone)

/-- **The step in doubles is the step in rational numbers.** -/
theorem step_eq_exactStep {goal : Goal} {t p m : ℚ} {b : Bracket ℤ} (hgoal : goal.Denotes t p m)
    (hb : b.Sized) : b.step goal = .ok (exactStep t p m b) := by
  obtain ⟨below, hbelow, hbelowden⟩ :=
    hb.low.gapBelow_eq hgoal.target hgoal.target_nonneg hgoal.target_le_one
  obtain ⟨above, habove, haboveden⟩ :=
    hb.high.gapAbove_eq hgoal.target hgoal.target_nonneg hgoal.target_le_one
  change below.Denotes (b.below t) at hbelowden
  change above.Denotes (b.above t) at haboveden
  unfold step exactStep
  rw [hbelow, Except.bind_ok, habove, Except.bind_ok, haboveden.lt hgoal.precision,
    hbelowden.lt hgoal.precision]
  by_cases hhigh : b.above t < p
  · rw [decide_eq_true hhigh, if_pos rfl, if_pos hhigh, Except.pure_eq]
  rw [decide_eq_false hhigh, if_neg Bool.false_ne_true, if_neg hhigh]
  by_cases hlow : b.below t < p
  · rw [decide_eq_true hlow, if_pos rfl, if_pos hlow, Except.pure_eq]
  rw [decide_eq_false hlow, if_neg Bool.false_ne_true, if_neg hlow]
  have hhighpos : 0 < b.above t := hgoal.precision_pos.trans_le (not_lt.mp hhigh)
  have hlowpos : 0 < b.below t := hgoal.precision_pos.trans_le (not_lt.mp hlow)
  obtain ⟨down, hdown, hdownsat⟩ := Saturates.div haboveden hbelowden hhighpos.le hlowpos
  obtain ⟨up, hup, hupsat⟩ := Saturates.div hbelowden haboveden hlowpos.le hhighpos
  unfold refine
  rw [hdown, Except.bind_ok, hup, Except.bind_ok,
    hupsat.lt hdownsat (ratio_lt_overflowValue hlowpos hhighpos)]
  by_cases hdir : roundOff (b.below t / b.above t) < roundOff (b.above t / b.below t)
  · rw [decide_eq_true hdir, if_pos rfl, if_pos hdir]
    exact refineUnder_eq hgoal.ceiling hgoal.ceiling_lt hdownsat
      (roundOff_nonneg (div_nonneg hhighpos.le hlowpos.le)) hb.low hb.high
  · rw [decide_eq_false hdir, if_neg Bool.false_ne_true, if_neg hdir]
    exact refineUnder_eq hgoal.ceiling hgoal.ceiling_lt hupsat
      (roundOff_nonneg (div_nonneg hlowpos.le hhighpos.le)) hb.high hb.low

/-! ## Directions -/

/-- A step adds `n` copies of the near bound to the far one.  The distances are the computed ones,
both counted as positive on the side of the target. -/
structure Advance (m nearGap farGap : ℚ) (near far : Bound ℤ) (n : ℤ) : Prop where
  copies_eq : n = ⌊roundOff (farGap / nearGap)⌋
  one_le_ratio : 1 ≤ roundOff (farGap / nearGap)
  estimate_lt : estimate (roundOff (farGap / nearGap)) near far < m

lemma Advance.one_le {m nearGap farGap : ℚ} {near far : Bound ℤ} {n : ℤ}
    (h : Advance m nearGap farGap near far n) : 1 ≤ n := by
  rw [h.copies_eq, Int.le_floor, Int.cast_one]
  exact h.one_le_ratio

/-- The number of copies is the rounded quotient, truncated. -/
lemma Advance.le_ratio {m nearGap farGap : ℚ} {near far : Bound ℤ} {n : ℤ}
    (h : Advance m nearGap farGap near far n) : (n : ℚ) ≤ roundOff (farGap / nearGap) := by
  rw [h.copies_eq]
  exact Int.floor_le _

lemma exactRefine_eq_refined {m ratio : ℚ} {near far : Bound ℤ} {next : ℤ → Bracket ℤ}
    {d : Bracket ℤ} (h : exactRefine m ratio near far next = .refined d) :
    d = next ⌊ratio⌋ ∧ estimate ratio near far < m := by
  unfold exactRefine at h
  split at h
  · cases h
  · rename_i hguard
    exact ⟨(Step.refined.inj h).symm, not_le.mp hguard⟩

variable {t p m : ℚ} {b d : Bracket ℤ}

lemma above_lt_of_exactStep_eq_hitHigh (h : exactStep t p m b = .hitHigh) : b.above t < p := by
  unfold exactStep at h
  split at h
  · assumption
  · split at h
    · cases h
    · dsimp only [exactRefine] at h
      split at h <;> split at h <;> cases h

lemma below_lt_of_exactStep_eq_hitLow (h : exactStep t p m b = .hitLow) : b.below t < p := by
  unfold exactStep at h
  split at h
  · cases h
  · split at h
    · assumption
    · dsimp only [exactRefine] at h
      split at h <;> split at h <;> cases h

lemma le_gaps_of_exactStep (hhigh : exactStep t p m b ≠ .hitHigh)
    (hlow : exactStep t p m b ≠ .hitLow) : p ≤ b.above t ∧ p ≤ b.below t := by
  unfold exactStep at hhigh hlow
  by_cases habove : b.above t < p
  · rw [if_pos habove] at hhigh
    exact absurd rfl hhigh
  by_cases hbelow : b.below t < p
  · rw [if_neg habove, if_pos hbelow] at hlow
    exact absurd rfl hlow
  exact ⟨not_lt.mp habove, not_lt.mp hbelow⟩

lemma le_of_exactRefine_eq_blocked {ratio : ℚ} {near far : Bound ℤ} {next : ℤ → Bracket ℤ}
    (h : exactRefine m ratio near far next = .blocked) : m ≤ estimate ratio near far := by
  unfold exactRefine at h
  split at h
  · assumption
  · cases h

/-- Where a step is blocked, the estimate in one of the two directions has reached the ceiling. -/
lemma le_estimate_of_exactStep_eq_blocked (h : exactStep t p m b = .blocked) :
    m ≤ estimate (roundOff (b.above t / b.below t)) b.low b.high ∨
      m ≤ estimate (roundOff (b.below t / b.above t)) b.high b.low := by
  obtain ⟨habove, hbelow⟩ := le_gaps_of_exactStep (by rw [h]; nofun) (by rw [h]; nofun)
  unfold exactStep at h
  rw [if_neg (not_lt.mpr habove), if_neg (not_lt.mpr hbelow)] at h
  split at h
  · exact .inl (le_of_exactRefine_eq_blocked h)
  · exact .inr (le_of_exactRefine_eq_blocked h)

/-- **Every refinement is an advance in one of two directions.**  The larger ratio is at least one
even if the two ratios round to the same number. -/
theorem refined_cases (hp : 0 < p) (h : exactStep t p m b = .refined d) :
    ∃ n, (d = b.refineHigh n ∧ Advance m (b.below t) (b.above t) b.low b.high n) ∨
      (d = b.refineLow n ∧ Advance m (b.above t) (b.below t) b.high b.low n) := by
  obtain ⟨habove, hbelow⟩ := le_gaps_of_exactStep (by rw [h]; nofun) (by rw [h]; nofun)
  have hapos : 0 < b.above t := hp.trans_le habove
  have hbpos : 0 < b.below t := hp.trans_le hbelow
  unfold exactStep at h
  rw [if_neg (not_lt.mpr habove), if_neg (not_lt.mpr hbelow)] at h
  by_cases hdir : roundOff (b.below t / b.above t) < roundOff (b.above t / b.below t)
  · rw [if_pos hdir] at h
    obtain ⟨rfl, hguard⟩ := exactRefine_eq_refined h
    have hlt : b.below t ≤ b.above t := by
      by_contra! hgt
      have hdiv : b.above t / b.below t ≤ b.below t / b.above t :=
        ((div_le_one hbpos).mpr hgt.le).trans ((one_le_div hapos).mpr hgt.le)
      exact absurd hdir (not_lt.mpr (roundOff_mono hdiv))
    exact ⟨_, .inl ⟨rfl, rfl, representable_one.le_roundOff ((one_le_div hbpos).mpr hlt), hguard⟩⟩
  · rw [if_neg hdir] at h
    obtain ⟨rfl, hguard⟩ := exactRefine_eq_refined h
    refine ⟨_, .inr ⟨rfl, rfl, ?_, hguard⟩⟩
    rcases le_total (b.above t) (b.below t) with hle | hle
    · exact representable_one.le_roundOff ((one_le_div hapos).mpr hle)
    · exact (representable_one.le_roundOff ((one_le_div hbpos).mpr hle)).trans (not_lt.mp hdir)

end Bracket
end Mediant
