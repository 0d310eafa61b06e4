import Mediant.Proofs.Bracket.Run
import Mediant.Proofs.Bracket.Step

/-!
# The growth of denominators

Nothing counts the steps of a search.  It ends because every refinement more than doubles the sum of
the two denominators, while the estimate that guards a refinement keeps both below twice the
ceiling: rounding can make the estimate too small, but not by half.

`Bounded` is what this needs of a bracket, and `bounded_of_refined` says that refinements keep it.
From a bounded bracket every step succeeds (`Start.step_eq`), the number `n` of refinements
satisfies `2 ^ n * seed < 2 * m` for the ceiling `m` (`Start.two_pow_mul_seed_lt`), and therefore
the run returns (`Start.exists_run_eq_ok`).
-/

namespace Mediant

open Binary64

/-! ## The guard -/

/-- Rounding takes away, or adds, at most one part in `2 ^ 53` of a number from one on. -/
lemma roundOff_bounds {q : ℚ} (h : 1 ≤ q) :
    (1 - 1 / 2 ^ 53) * q ≤ roundOff q ∧ roundOff q ≤ (1 + 1 / 2 ^ 53) * q := by
  have habs : |q| = q := abs_of_nonneg (zero_le_one.trans h)
  have herr := abs_roundOff_sub_le_of_le (q := q) (le_trans (by norm_num) (h.trans_eq habs.symm))
  rw [habs, abs_le] at herr
  constructor
  · linarith [herr.1]
  · linarith [herr.2]

lemma mul_le_roundOff {q : ℚ} (h : 1 ≤ q) : (1 - 1 / 2 ^ 53) * q ≤ roundOff q :=
  (roundOff_bounds h).1

lemma roundOff_le_mul {q : ℚ} (h : 1 ≤ q) : roundOff q ≤ (1 + 1 / 2 ^ 53) * q :=
  (roundOff_bounds h).2

namespace Bracket

/-- The estimate of the next denominator falls short of it by at most four parts in `2 ^ 53`: on
its way to the estimate each denominator is rounded at most four times. -/
lemma next_denom_mul_le_estimate {ratio : ℚ} {near far : Bound ℤ} (hratio : 1 ≤ ratio)
    (hnear : near.Sized) (hfar : far.Sized) :
    (1 - 4 / 2 ^ 53) * ((⌊ratio⌋ + 1) * near.denom + far.denom) ≤ estimate ratio near far := by
  have hone : (1 : ℚ) ≤ near.denom := by exact_mod_cast hnear.denom_pos
  have hone' : (1 : ℚ) ≤ far.denom := by exact_mod_cast hfar.denom_pos
  have hsum := mul_le_roundOff (q := ratio + 1) (by linarith)
  have hdenom := mul_le_roundOff hone
  have hsumpos : 1 ≤ roundOff (ratio + 1) := representable_one.le_roundOff (by linarith)
  have hprodpos : 1 ≤ roundOff (ratio + 1) * roundOff near.denom :=
    one_le_mul_of_one_le_of_one_le hsumpos hnear.one_le_roundOff
  have hle : ((1 - 1 / 2 ^ 53) * (ratio + 1)) * ((1 - 1 / 2 ^ 53) * near.denom) ≤
      roundOff (ratio + 1) * roundOff near.denom :=
    mul_le_mul hsum hdenom (by linarith) (by linarith)
  have hprod := mul_le_roundOff hprodpos
  have hprodone := representable_one.le_roundOff hprodpos
  have htotal := mul_le_roundOff
    (q := roundOff (roundOff (ratio + 1) * roundOff near.denom) + roundOff far.denom)
    (by linarith [hfar.one_le_roundOff])
  have hfloor : ((⌊ratio⌋ + 1) * near.denom : ℚ) ≤ (ratio + 1) * near.denom :=
    mul_le_mul_of_nonneg_right (by linarith [Int.floor_le ratio]) (by linarith)
  have hfardenom := mul_le_roundOff hone'
  have hpos : 0 ≤ (ratio + 1) * near.denom := by positivity
  rw [estimate]
  linarith

/-- The estimate exceeds what it estimates by less than eight parts in `2 ^ 53`. -/
lemma estimate_le_mul {x : ℚ} {near far : Bound ℤ} (hx : 0 ≤ x) (hnear : near.Sized)
    (hfar : far.Sized) :
    estimate (roundOff x) near far ≤ (1 + 1 / 2 ^ 50) * ((x + 1) * near.denom + far.denom) := by
  have hone : (1 : ℚ) ≤ near.denom := by exact_mod_cast hnear.denom_pos
  have hone' : (1 : ℚ) ≤ far.denom := by exact_mod_cast hfar.denom_pos
  have hratio : 0 ≤ roundOff x := roundOff_nonneg hx
  have hround : roundOff x + 1 ≤ (1 + 1 / 2 ^ 53) * (x + 1) := by
    have herr := (abs_le.mp (abs_roundOff_sub_le x)).2
    have htiny : tiny ≤ 1 / 2 ^ 53 := tiny_le_two_pow (by norm_num)
    rw [abs_of_nonneg hx] at herr
    linarith
  have hsum := roundOff_le_mul (q := roundOff x + 1) (by linarith)
  have hsumpos : 1 ≤ roundOff (roundOff x + 1) := representable_one.le_roundOff (by linarith)
  have hdenom := roundOff_le_mul hone
  have hdenompos := hnear.one_le_roundOff
  have hprodpos : 1 ≤ roundOff (roundOff x + 1) * roundOff near.denom :=
    one_le_mul_of_one_le_of_one_le hsumpos hdenompos
  have hle : roundOff (roundOff x + 1) * roundOff near.denom ≤
      ((1 + 1 / 2 ^ 53) * ((1 + 1 / 2 ^ 53) * (x + 1))) * ((1 + 1 / 2 ^ 53) * near.denom) :=
    mul_le_mul (by linarith) hdenom (by linarith) (by positivity)
  have hprod := roundOff_le_mul hprodpos
  have htotal := roundOff_le_mul
    (q := roundOff (roundOff (roundOff x + 1) * roundOff near.denom) + roundOff far.denom)
    (by linarith [hfar.one_le_roundOff, roundOff_nonneg (zero_le_one.trans hprodpos)])
  have hfardenom := roundOff_le_mul hone'
  have hpos : 0 ≤ (x + 1) * near.denom := by positivity
  rw [estimate]
  linarith

/-- The next denominator after an advance is below the ceiling, but for those four parts. -/
lemma Advance.next_denom_mul_lt {m nearGap farGap : ℚ} {near far : Bound ℤ} {n : ℤ}
    (h : Advance m nearGap farGap near far n) (hnear : near.Sized) (hfar : far.Sized) :
    (1 - 4 / 2 ^ 53) * ((n + 1) * near.denom + far.denom : ℚ) < m := by
  have hle := next_denom_mul_le_estimate h.one_le_ratio hnear hfar
  rw [← h.copies_eq] at hle
  exact hle.trans_lt h.estimate_lt

/-- Both denominators that an advance makes are less than twice the ceiling. -/
lemma Advance.denoms_lt {m nearGap farGap : ℚ} {near far : Bound ℤ} {n : ℤ}
    (h : Advance m nearGap farGap near far n) (hnear : near.Sized) (hfar : far.Sized) :
    (Bound.combine n near far).denom < 2 * m ∧
      (Bound.combine 1 (Bound.combine n near far) near).denom < 2 * m := by
  have hlt := h.next_denom_mul_lt hnear hfar
  have hnearpos : (0 : ℚ) < near.denom := by exact_mod_cast hnear.denom_pos
  have hfarpos : (0 : ℚ) < far.denom := by exact_mod_cast hfar.denom_pos
  have hn : (1 : ℚ) ≤ n := by exact_mod_cast h.one_le
  have hcopies : 0 ≤ n * (near.denom : ℚ) := by positivity
  simp only [Bound.combine, Denominator.combine_int]
  push_cast
  constructor <;> linarith

/-! ## The invariant -/

/-- Regular, with denominators below twice the ceiling and bounds that are not negative and at
most two. -/
structure Bounded (seed : ℤ) (m : ℚ) (b : Bracket ℤ) : Prop extends b.Regular seed where
  low_denom_lt : b.low.denom < 2 * m
  high_denom_lt : b.high.denom < 2 * m
  low_nonneg : 0 ≤ b.low.toRat
  high_le_two : b.high.toRat ≤ 2

lemma bounded_cell {seed k : ℤ} {m : ℚ} (hs : 0 < seed) (hm : seed < m) (hk : 0 ≤ k)
    (hk' : k ≤ seed) : (cell seed k).Bounded seed m := by
  have hseed : (0 : ℚ) < seed := by exact_mod_cast hs
  refine ⟨regular_cell seed k, ?_, ?_, ?_, ?_⟩
  · change (seed : ℚ) < 2 * m
    linarith
  · change (seed : ℚ) < 2 * m
    linarith
  · rw [Bound.le_toRat_iff hs, zero_mul]
    exact_mod_cast hk
  · rw [Bound.toRat_le_iff hs]
    have : k + 1 ≤ 2 * seed := by omega
    exact_mod_cast this

namespace Bounded

variable {seed : ℤ} {m : ℚ} {b : Bracket ℤ}

/-- A bound between zero and two, with a denominator of reasonable size, is of reasonable size. -/
lemma sized_bound {a : Bound ℤ} (hpos : 0 < a.denom) (hlt : a.denom < 2 * m) (hm : m ≤ 2 ^ 63)
    (h0 : 0 ≤ a.toRat) (h2 : a.toRat ≤ 2) : a.Sized := by
  have hdenom : (a.denom : ℚ) ≤ 2 ^ 64 := by linarith
  have hdenom' : a.denom ≤ 2 ^ 64 := by exact_mod_cast hdenom
  have hnum := Bound.abs_num_le (k := 2) hpos h0 (by exact_mod_cast h2)
  exact ⟨hpos, hdenom'.trans (by norm_num), by omega⟩

lemma sized (h : b.Bounded seed m) (hs : 0 < seed) (hm : m ≤ 2 ^ 63) : b.Sized := by
  have hlt := (h.toRegular.low_lt_high hs).le
  exact ⟨sized_bound (h.toRegular.low_denom_pos hs) h.low_denom_lt hm h.low_nonneg
      (hlt.trans h.high_le_two),
    sized_bound (h.toRegular.high_denom_pos hs) h.high_denom_lt hm
      (h.low_nonneg.trans hlt) h.high_le_two⟩

end Bounded

/-- Every refinement keeps the bounds on a bracket. -/
theorem bounded_of_refined {seed : ℤ} {m t p : ℚ} {goal : Goal} {b d : Bracket ℤ} (hs : 0 < seed)
    (hm : m ≤ 2 ^ 63) (hgoal : goal.Denotes t p m) (hb : b.Bounded seed m)
    (h : b.step goal = .ok (.refined d)) : d.Bounded seed m := by
  have hsized := hb.sized hs hm
  rw [step_eq_exactStep hgoal hsized] at h
  obtain ⟨n, ⟨rfl, hadv⟩ | ⟨rfl, hadv⟩⟩ := refined_cases hgoal.precision_pos (Except.ok.inj h)
  · have hn := zero_le_one.trans hadv.one_le
    have hwithin := hb.toRegular.refineHigh_within hs hn
    obtain ⟨hhigh, hlow⟩ := hadv.denoms_lt hsized.low hsized.high
    exact ⟨hb.toRegular.refineHigh hs hn, hlow, hhigh, hb.low_nonneg.trans hwithin.low_le,
      hwithin.le_high.trans hb.high_le_two⟩
  · have hn := zero_le_one.trans hadv.one_le
    have hwithin := hb.toRegular.refineLow_within hs hn
    obtain ⟨hlow, hhigh⟩ := hadv.denoms_lt hsized.high hsized.low
    exact ⟨hb.toRegular.refineLow hs hn, hlow, hhigh, hb.low_nonneg.trans hwithin.low_le,
      hwithin.le_high.trans hb.high_le_two⟩

/-! ## Runs -/

/-- What a search starts from: a goal with a ceiling of at most `2 ^ 63`, and a bounded bracket. -/
structure Start (seed : ℤ) (t p m : ℚ) (goal : Goal) (b : Bracket ℤ) : Prop where
  seed_pos : 0 < seed
  ceiling_le : m ≤ 2 ^ 63
  denotes : goal.Denotes t p m
  bounded : b.Bounded seed m

variable {seed : ℤ} {m t p : ℚ} {goal : Goal} {b c d : Bracket ℤ} {n : ℕ}

lemma Start.reached (hb : Start seed t p m goal b) (h : b.Reaches goal n c) :
    Start seed t p m goal c :=
  h.invariant hb fun hc hstep => { hc with
    bounded := bounded_of_refined hc.seed_pos hc.ceiling_le hc.denotes hc.bounded hstep }

lemma Start.sized (hb : Start seed t p m goal b) : b.Sized :=
  hb.bounded.sized hb.seed_pos hb.ceiling_le

lemma Start.step_eq (hb : Start seed t p m goal b) : b.step goal = .ok (exactStep t p m b) :=
  step_eq_exactStep hb.denotes hb.sized

/-- A refinement at least doubles the sum of the denominators. -/
lemma two_mul_denoms_le (hs : 0 < seed) (hb : b.Regular seed) (hp : 0 < p)
    (h : exactStep t p m b = .refined d) :
    2 * (b.low.denom + b.high.denom) ≤ d.low.denom + d.high.denom := by
  have hlow := hb.low_denom_pos hs
  have hhigh := hb.high_denom_pos hs
  obtain ⟨n, ⟨rfl, hadv⟩ | ⟨rfl, hadv⟩⟩ := refined_cases hp h
  · have hcopies : b.low.denom ≤ n * b.low.denom := le_mul_of_one_le_left hlow.le hadv.one_le
    simp only [refineHigh, Bound.combine, Denominator.combine_int]
    linarith
  · have hcopies : b.high.denom ≤ n * b.high.denom := le_mul_of_one_le_left hhigh.le hadv.one_le
    simp only [refineLow, Bound.combine, Denominator.combine_int]
    linarith

/-- After `n` refinements the sum of the denominators has grown by the factor `2 ^ n`. -/
lemma Start.two_pow_mul_denoms_le (hb : Start seed t p m goal b) (h : b.Reaches goal n c) :
    2 ^ n * (b.low.denom + b.high.denom) ≤ c.low.denom + c.high.denom := by
  induction h with
  | start => rw [pow_zero, one_mul]
  | @step n c d hreach hstep ih =>
    have hc := hb.reached hreach
    rw [hc.step_eq] at hstep
    have hdouble := two_mul_denoms_le hc.seed_pos hc.bounded.toRegular hc.denotes.precision_pos
      (Except.ok.inj hstep)
    calc 2 ^ (n + 1) * (b.low.denom + b.high.denom)
        = 2 * (2 ^ n * (b.low.denom + b.high.denom)) := by ring
      _ ≤ 2 * (c.low.denom + c.high.denom) := by linarith
      _ ≤ d.low.denom + d.high.denom := hdouble

/-- The number of refinements is bounded by the ceiling. -/
theorem Start.two_pow_mul_seed_lt (hb : Start seed t p m goal b) (h : b.Reaches goal n c) :
    2 ^ n * (seed : ℚ) < 2 * m := by
  have hgrown : (2 : ℚ) ^ n * (b.low.denom + b.high.denom) ≤ c.low.denom + c.high.denom := by
    exact_mod_cast hb.two_pow_mul_denoms_le h
  have hc := (hb.reached h).bounded
  have hpow : (0 : ℚ) < 2 ^ n := by positivity
  have hlow : (seed : ℚ) ≤ b.low.denom := by exact_mod_cast hb.bounded.seed_le_low
  have hhigh : (seed : ℚ) ≤ b.high.denom := by exact_mod_cast hb.bounded.seed_le_high
  have hseeds : (2 : ℚ) ^ n * (seed + seed) ≤ 2 ^ n * (b.low.denom + b.high.denom) :=
    mul_le_mul_of_nonneg_left (add_le_add hlow hhigh) hpow.le
  linarith [hc.low_denom_lt, hc.high_denom_lt]

/-- **A run returns**, and the limit on its length plays no part. -/
theorem Start.exists_run_eq_ok (hb : Start seed t p m goal b) :
    ∃ o, b.run goal 0 stepLimit = .ok o := by
  refine Bracket.exists_run_eq_ok fun n c hc => ⟨?_, exactStep t p m c, (hb.reached hc).step_eq⟩
  have hlt := hb.two_pow_mul_seed_lt hc
  have hseed : (1 : ℚ) ≤ seed := by exact_mod_cast hb.seed_pos
  have hpow : (2 : ℚ) ^ n < 2 ^ 64 := by
    have : (2 : ℚ) ^ n ≤ 2 ^ n * seed := le_mul_of_one_le_right (by positivity) hseed
    linarith [hb.ceiling_le]
  have hn : n < 64 := (pow_lt_pow_iff_right₀ one_lt_two).mp hpow
  exact hn.trans (by decide)

end Bracket
end Mediant
