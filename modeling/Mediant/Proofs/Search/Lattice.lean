import Mediant.Proofs.Bracket.Exact
import Mediant.Proofs.Search.Recovery

/-!
# Numbers of the starting lattice

A quotient whose denominator divides the seed is a point of the starting lattice, and one would
expect that a search for it ends at its first bracket.  What decides this is not the distance of the
double from the quotient but a distance in the lattice: the remainder is multiplied by the seed,
which is rounded, and the product is compared with the integer that it stands for.

`LatticeLaw` states the exact condition, and two that suffice for it: the double is nearer to the
quotient than the precision by the factor `4620`, or the quotient is small against the precision.
The factor is needed: at the default precision the search for `4 / 3` passes it by
(`four_thirds_not_hit`).
-/

namespace Mediant

open Binary64

/-! ## The first bracket -/

/-- Nearer to an integer than one half, a number has this integer as one of its two neighbours. -/
lemma abs_sub_intCast_lt_iff {s p : ℚ} {k : ℤ} (hp : p ≤ 1 / 2) :
    |s - k| < p ↔ (k = ⌊s⌋ ∧ Int.fract s < p) ∨ (k = ⌊s⌋ + 1 ∧ 1 - Int.fract s < p) := by
  have hsplit := Int.floor_add_fract s
  have hnonneg := Int.fract_nonneg s
  have hlt := Int.fract_lt_one s
  constructor
  · intro h
    rw [abs_lt] at h
    have hupper : k < ⌊s⌋ + 2 := by
      exact_mod_cast (by linarith [h.1] : (k : ℚ) < ⌊s⌋ + 2)
    have hlower : ⌊s⌋ - 1 < k := by
      exact_mod_cast (by linarith [h.2] : (⌊s⌋ - 1 : ℚ) < k)
    rcases (by omega : k = ⌊s⌋ ∨ k = ⌊s⌋ + 1) with rfl | rfl
    · exact .inl ⟨rfl, by linarith [h.2]⟩
    · refine .inr ⟨rfl, ?_⟩
      push_cast at h
      linarith [h.1]
  · rintro (⟨rfl, h⟩ | ⟨rfl, h⟩)
    · rw [abs_lt]
      constructor <;> linarith
    · rw [abs_lt]
      push_cast
      constructor <;> linarith

/-- Rounding the complement of a remainder does not move it across a precision of at most one
half. -/
lemma roundOff_one_sub_fract_lt_iff {s p : ℚ} (hs : Representable s) (h0 : 0 ≤ s)
    (hp : Representable p) (hhalf : p ≤ 1 / 2) :
    roundOff (1 - Int.fract s) < p ↔ 1 - Int.fract s < p := by
  constructor
  · intro h
    by_contra! hle
    exact absurd (hp.le_roundOff hle) (not_le.mpr h)
  · intro h
    have hrep := (hs.fract h0).one_sub (by linarith) (Int.fract_lt_one s).le
    rwa [hrep.roundOff_eq]

namespace Bracket

variable {seed k : ℤ} {t : ℚ}

/-- The computed distances from the bounds of a cell are those of the rounded product from two
neighbouring integers. -/
lemma gaps_cell (hs : 0 < seed) (hle : seed ≤ 2 ^ 53) (hk : |k| ≤ 2 ^ 53) (hk' : |k + 1| ≤ 2 ^ 53) :
    (cell seed k).below t = roundOff (roundOff (seed * t) - k) ∧
      (cell seed k).above t = roundOff (k + 1 - roundOff (seed * t)) := by
  refine ⟨roundedGap_eq hs hle hk, ?_⟩
  rw [above, roundedGap_eq hs hle hk', ← roundOff_neg, neg_sub]
  simp only [cell]
  push_cast
  rfl

/-- In the cell of the rounded product they are its remainder and the complement of it. -/
lemma gaps_cell_floor {s : ℚ} (hs : 0 < seed) (hle : seed ≤ 2 ^ 53) (heq : roundOff (seed * t) = s)
    (h0 : 0 ≤ s) (h1 : s ≤ 2 ^ 52) : (cell seed ⌊s⌋).below t = Int.fract s ∧
      (cell seed ⌊s⌋).above t = roundOff (1 - Int.fract s) := by
  have hrep : Representable s := heq ▸ representable_roundOff _
  have hfloor : 0 ≤ ⌊s⌋ := Int.floor_nonneg.mpr h0
  have hfloor' : ⌊s⌋ ≤ 2 ^ 52 := by
    exact_mod_cast (Int.floor_le s).trans h1
  obtain ⟨hbelow, habove⟩ := gaps_cell (t := t) hs hle
    (by rw [abs_of_nonneg hfloor]; omega : |⌊s⌋| ≤ 2 ^ 53) (by rw [abs_of_nonneg] <;> omega)
  have hcomplement : (⌊s⌋ : ℚ) + 1 - s = 1 - Int.fract s := by
    rw [Int.fract]
    ring
  rw [heq] at hbelow habove
  rw [hcomplement] at habove
  exact ⟨hbelow.trans (hrep.fract h0).roundOff_eq, habove⟩

end Bracket

lemma toRat_eq_div_seed_iff {k : ℤ} {a : Bound ℤ} (ha : a.denom = 2310) :
    a.toRat = (k : ℚ) / 2310 ↔ k = a.num := by
  rw [Bound.toRat, ha, Int.cast_ofNat, div_left_inj' (by norm_num), Int.cast_inj, eq_comm]

namespace Query.Course

variable {q : Query ℤ} {v p : ℚ} {m k : ℤ} {x : Binary64} {n : ℕ} {c : Bracket ℤ} {o : Outcome ℤ}
  {r : Approximant}

lemma gaps_first (q : Query ℤ) (v : ℚ) :
    (Bracket.cell 2310 (q.cellNumber v)).below (q.remainder v) =
        Int.fract (roundOff (q.remainder v * 2310)) ∧
      (Bracket.cell 2310 (q.cellNumber v)).above (q.remainder v) =
        roundOff (1 - Int.fract (roundOff (q.remainder v * 2310))) :=
  Bracket.gaps_cell_floor (by norm_num) (by norm_num) (by rw [Int.cast_ofNat, mul_comm])
    (roundOff_nonneg (mul_nonneg (q.remainder_nonneg v) (by norm_num)))
    ((q.roundOff_remainder_mul_le v).trans (by norm_num))

/-- The search ends at its first bracket, with the answer `k / 2310`, exactly if the rounded product
is nearer to `k` than the precision. -/
lemma hits_first_iff (h : q.Course v p m x n c o r) (hhalf : p ≤ 1 / 2) :
    (n = 0 ∧ o.overflowed = false ∧ o.bracket.high.toRat = k / 2310) ↔
      |roundOff (q.remainder v * 2310) - k| < p := by
  have hstep := h.start.step_eq
  obtain ⟨hbelow, habove⟩ := gaps_first q v
  have hproduct : 0 ≤ roundOff (q.remainder v * 2310) :=
    roundOff_nonneg (mul_nonneg (q.remainder_nonneg v) (by norm_num))
  have hcomplement := roundOff_one_sub_fract_lt_iff (representable_roundOff (q.remainder v * 2310))
    hproduct h.admissible.precision.representable hhalf
  rw [abs_sub_intCast_lt_iff hhalf]
  constructor
  · rintro ⟨rfl, hover, hanswer⟩
    have hc := h.reaches
    cases hc
    cases h.stages.ends with
    | hitHigh hhit =>
      rw [hhit] at hstep
      have hlt := Bracket.above_lt_of_exactStep_eq_hitHigh (Except.ok.inj hstep).symm
      rw [habove, hcomplement] at hlt
      exact .inr ⟨(toRat_eq_div_seed_iff rfl).mp hanswer, hlt⟩
    | hitLow hhit =>
      rw [hhit] at hstep
      have hlt := Bracket.below_lt_of_exactStep_eq_hitLow (Except.ok.inj hstep).symm
      rw [hbelow] at hlt
      exact .inl ⟨(toRat_eq_div_seed_iff rfl).mp hanswer, hlt⟩
    | blocked => cases hover
  · rintro (⟨rfl, hlt⟩ | ⟨rfl, hlt⟩)
    · have habove' : ¬(Bracket.cell 2310 (q.cellNumber v)).above (q.remainder v) < p := by
        rw [habove, hcomplement]
        linarith
      rw [Bracket.exactStep, if_neg habove', if_pos (hbelow ▸ hlt)] at hstep
      obtain ⟨rfl, rfl⟩ := h.reaches.eq_of_ends (i := 0) (.hitLow hstep)
      rw [← Bracket.Ends.unique (.hitLow hstep) h.stages.ends]
      exact ⟨rfl, rfl, (toRat_eq_div_seed_iff rfl).mpr rfl⟩
    · rw [Bracket.exactStep, if_pos (by rwa [habove, hcomplement])] at hstep
      obtain ⟨rfl, rfl⟩ := h.reaches.eq_of_ends (i := 0) (.hitHigh hstep)
      rw [← Bracket.Ends.unique (.hitHigh hstep) h.stages.ends]
      exact ⟨rfl, rfl, (toRat_eq_div_seed_iff rfl).mpr rfl⟩

end Query.Course

/-! ## The law of the lattice -/

/-- The integer, in parts of the seed, that the remainder of the double `v` stands for if `v` stands
for `num / denom`. -/
def latticeNumber (num denom : ℤ) (v : ℚ) : ℤ := |num| * (2310 / denom) - 2310 * ⌊|v|⌋

lemma latticeNumber_div (num : ℤ) {denom : ℤ} (hdenom : 0 < denom) (hdvd : denom ∣ 2310) (v : ℚ) :
    (latticeNumber num denom v : ℚ) / 2310 = |(num / denom : ℚ)| - ⌊|v|⌋ := by
  obtain ⟨e, he⟩ := hdvd
  have hpos : (0 : ℚ) < denom := by exact_mod_cast hdenom
  have he' : (2310 : ℚ) = denom * e := by exact_mod_cast he
  have hscale : |(num / denom : ℚ)| * 2310 = |(num : ℚ)| * e := by
    rw [abs_div, abs_of_pos hpos, he']
    field_simp
  rw [latticeNumber, he, Int.mul_ediv_cancel_left e hdenom.ne', ← he, div_eq_iff (by norm_num),
    sub_mul, hscale]
  push_cast
  ring

lemma abs_latticeNumber_sub_le (num : ℤ) {denom : ℤ} (hdenom : 0 < denom) (hdvd : denom ∣ 2310)
    (v : ℚ) : |(latticeNumber num denom v : ℚ) - Int.fract |v| * 2310| ≤
      2310 * |v - num / denom| := by
  have hlattice := latticeNumber_div num hdenom hdvd v
  rw [div_eq_iff (by norm_num)] at hlattice
  have heq : (latticeNumber num denom v : ℚ) - Int.fract |v| * 2310 =
      2310 * (|(num / denom : ℚ)| - |v|) := by
    rw [hlattice, Int.fract]
    ring
  rw [heq, abs_mul, abs_of_pos (by norm_num : (0 : ℚ) < 2310), abs_sub_comm v]
  exact mul_le_mul_of_nonneg_left (abs_abs_sub_abs_le _ _) (by norm_num)

/-- How far the rounded product of remainder and seed is from the lattice number. -/
def latticeDistance (num denom : ℤ) (v : ℚ) : ℚ :=
  |roundOff (Int.fract |v| * 2310) - latticeNumber num denom v|

/-- Rounding at most doubles the distance: where the double is near enough to the quotient, the
lattice number is a small integer, and the rounded product is as near to the exact one. -/
lemma latticeDistance_lt {num denom : ℤ} {v p : ℚ} (hdenom : 0 < denom) (hdvd : denom ∣ 2310)
    (hhalf : p ≤ 1 / 2) (hnear : 4620 * |v - num / denom| < p) :
    latticeDistance num denom v < p := by
  have hdist := abs_latticeNumber_sub_le num hdenom hdvd v
  have hrep : Representable (latticeNumber num denom v : ℚ) := by
    refine representable_intCast ?_
    have hbounds := abs_le.mp (hdist.trans (by linarith : _ ≤ (1 : ℚ)))
    have hfract := Int.fract_nonneg |v|
    have hfract' := Int.fract_lt_one |v|
    have hle : |(latticeNumber num denom v : ℚ)| ≤ 2 ^ 53 := by
      rw [abs_le]
      constructor <;> linarith [hbounds.1, hbounds.2]
    exact_mod_cast hle
  have hround := abs_roundOff_sub_le_abs (Int.fract |v| * 2310) hrep
  calc latticeDistance num denom v
      ≤ |roundOff (Int.fract |v| * 2310) - Int.fract |v| * 2310| +
          |Int.fract |v| * 2310 - latticeNumber num denom v| := abs_sub_le _ _ _
    _ ≤ 2310 * |v - num / denom| + 2310 * |v - num / denom| := by
        rw [abs_sub_comm (Int.fract |v| * 2310)]
        exact add_le_add (hround.trans hdist) hdist
    _ < p := by linarith

/-- The search for the double nearest to `num / denom` ends before its first refinement, and finds
the quotient in lowest terms. -/
structure HitsAtOnce (s : Settings) (strict : Bool) (precision : Value) (num denom : ℤ) : Prop where
  exists_search : ∃ r, search s strict { value := .double (quotient num denom), precision } =
    .ok ⟨r, []⟩ ∧ r.iterations = 0 ∧ r.overflowed = false
  pair_eq : nearbyPair s strict { value := .double (quotient num denom), precision } =
    .ok ⟨lowestTerms num denom, []⟩

section

variable {flag strict : Bool} {num denom : ℤ} {y : Binary64} {v p : ℚ} {r : Reported Approximant}

lemma denotes_quotient_of_search (hr : search { warnOnOverflow := .boolean flag } strict
      { value := .double (quotient num denom), precision := .double y } = .ok r) :
    (quotient num denom).Denotes (roundOff (num / denom)) ∧
      |roundOff (num / denom : ℚ)| < (0x7fffffffffffffff : ℤ) := by
  have hs : Settings.Standard { warnOnOverflow := .boolean flag } := ⟨rfl, rfl⟩
  have htyped : ({ value := .double (quotient num denom), precision := .double y } :
      Arguments).Typed 0x7fffffffffffffff :=
    ⟨⟨_, .double _⟩, ⟨_, .double _⟩, .default rfl, by norm_num, .inl rfl⟩
  by_cases hrefused : ({ value := .double (quotient num denom), precision := .double y } :
      Arguments).Refused (.rational leastPrecision) 0x7fffffffffffffff
  · obtain ⟨fault, hfault, -⟩ := exists_query_eq_error hs isNumber_leastPrecision
      ⟨_, Value.shown_double _⟩ htyped hrefused
    rw [search, hfault, Except.bind_error] at hr
    cases hr
  · obtain ⟨v, p, policy, ha⟩ := htyped.exists_accepted hrefused
    obtain ⟨x, hx, hden⟩ := ha.value
    rw [← Except.ok.inj hx] at hden
    rcases lt_or_ge |roundOff (num / denom : ℚ)| overflowValue with hlt | hge
    · have hquotient : (quotient num denom).Denotes (roundOff (num / denom)) := rounded_of_lt _ hlt
      refine ⟨hquotient, ?_⟩
      rw [hquotient.unique hden]
      exact ha.abs_value_lt
    · have hquotient : quotient num denom = .infinity _ := rounded_of_le _ hge
      obtain ⟨z, hz, -⟩ := hden
      rw [hquotient] at hz
      cases hz

lemma Query.Course.denom_eq_of_first {q : Query ℤ} {m : ℤ} {x : Binary64} {c : Bracket ℤ}
    {o : Outcome ℤ} {r : Approximant} (h : q.Course v p m x 0 c o r) : r.fraction.denom = 2310 := by
  have hc := h.reaches
  cases hc
  rw [h.returns.fraction.denom_eq]
  exact (h.stages.forall_bounds (P := fun a => a.denom = 2310) rfl rfl).1

/-- Where the double is below the ceiling, the rounded product decides. -/
lemma hitsAtOnce_iff_of_lt (hdenom : 0 < denom) (hdvd : denom ∣ 2310) (hy : y.Denotes p)
    (hleast : leastPrecision ≤ p) (hhalf : p ≤ 1 / 2)
    (hx : (quotient num denom).Denotes (roundOff (num / denom)))
    (hlt : |roundOff (num / denom : ℚ)| < (0x7fffffffffffffff : ℤ)) :
    HitsAtOnce { warnOnOverflow := .boolean flag } strict (.double y) num denom ↔
      latticeDistance num denom (roundOff (num / denom)) < p := by
  have ha := accepted_of_denotes hx hy hleast hlt
  have herr := abs_roundOff_div_sub_le num hdenom
    ((Int.le_of_dvd (by norm_num) hdvd).trans (by norm_num))
  have hlattice := latticeNumber_div num hdenom hdvd (roundOff (num / denom))
  constructor
  · rintro ⟨⟨r, hr, hiterations, hover⟩, hpair⟩
    obtain ⟨q, t, n, c, o, hpolicy, h⟩ := ha.exists_course hr
    obtain rfl : n = 0 := by
      rw [h.two_pow_mul_lt.1] at hiterations
      exact_mod_cast hiterations
    rw [nearbyPair, nearbyFraction, hr] at hpair
    have hterms : r.fraction.lowestTerms = lowestTerms num denom :=
      (Reported.mk.inj (Except.ok.inj hpair)).1
    rw [Fraction.lowestTerms_eq_iff (by rw [h.denom_eq_of_first]; norm_num) hdenom,
      h.toRat_eq_iff hpolicy herr, ← hlattice] at hterms
    rw [latticeDistance, ← h.admissible.remainder_eq hpolicy, ← h.hits_first_iff hhalf]
    exact ⟨rfl, h.returns.overflowed_eq ▸ hover, hterms⟩
  · intro hnear
    obtain ⟨r, hr⟩ := ha.exists_search flag
    obtain ⟨q, t, n, c, o, hpolicy, h⟩ := ha.exists_course hr
    rw [latticeDistance, ← h.admissible.remainder_eq hpolicy, ← h.hits_first_iff hhalf] at hnear
    obtain ⟨rfl, hover, hanswer⟩ := hnear
    rw [hlattice, ← h.toRat_eq_iff hpolicy herr,
      ← Fraction.lowestTerms_eq_iff (by rw [h.denom_eq_of_first]; norm_num) hdenom] at hanswer
    have hsearch := search_eq_ok_of_not_overflowed rfl hr
      (h.returns.overflowed_eq.trans hover) strict
    refine ⟨⟨_, hsearch, h.two_pow_mul_lt.1, h.returns.overflowed_eq.trans hover⟩, ?_⟩
    rw [nearbyPair, nearbyFraction, hsearch, ← hanswer]
    rfl

/-- The condition in full. -/
lemma hitsAtOnce_iff (hdenom : 0 < denom) (hdvd : denom ∣ 2310) (hy : y.Denotes p)
    (hleast : leastPrecision ≤ p) (hhalf : p ≤ 1 / 2) :
    HitsAtOnce { warnOnOverflow := .boolean flag } strict (.double y) num denom ↔
      |roundOff (num / denom : ℚ)| < (0x7fffffffffffffff : ℤ) ∧
        latticeDistance num denom (roundOff (num / denom)) < p := by
  constructor
  · intro h
    obtain ⟨r, hr, -, -⟩ := h.exists_search
    obtain ⟨hx, hlt⟩ := denotes_quotient_of_search hr
    exact ⟨hlt, (hitsAtOnce_iff_of_lt hdenom hdvd hy hleast hhalf hx hlt).mp h⟩
  · rintro ⟨hlt, hnear⟩
    have hx : (quotient num denom).Denotes (roundOff (num / denom)) := by
      refine rounded_of_lt _ (hlt.trans ?_)
      exact lt_of_lt_of_le (by norm_num) le_overflowValue
    exact (hitsAtOnce_iff_of_lt hdenom hdvd hy hleast hhalf hx hlt).mpr hnear

end

/-- When a quotient on the lattice of the seed is hit at once by the search for its double, with the
precision `p`. -/
structure LatticeLaw (s : Settings) (strict : Bool) (precision : Value) (num denom : ℤ) (p : ℚ) :
    Prop where
  /-- It is hit exactly if the double is below the ceiling and the rounded product of its remainder
  with the seed is nearer than the precision to the integer that it stands for. -/
  hitsAtOnce_iff : HitsAtOnce s strict precision num denom ↔
    |roundOff (num / denom : ℚ)| < (0x7fffffffffffffff : ℤ) ∧
      latticeDistance num denom (roundOff (num / denom)) < p
  /-- So it is if the double is near enough to the quotient. -/
  hitsAtOnce_of_near : |roundOff (num / denom : ℚ)| < (0x7fffffffffffffff : ℤ) →
    4620 * |roundOff (num / denom : ℚ) - num / denom| < p → HitsAtOnce s strict precision num denom
  /-- So it is if the quotient is small against the precision. -/
  hitsAtOnce_of_small : 4620 * |(num / denom : ℚ)| < 2 ^ 53 * p →
    HitsAtOnce s strict precision num denom

/-- **Which quotients on the lattice of the seed are hit at once.** -/
theorem latticeLaw_of_dvd {flag strict : Bool} {num denom : ℤ} {y : Binary64} {p : ℚ}
    (hdenom : 0 < denom) (hdvd : denom ∣ 2310) (hy : y.Denotes p) (hleast : leastPrecision ≤ p)
    (hhalf : p ≤ 1 / 2) :
    LatticeLaw { warnOnOverflow := .boolean flag } strict (.double y) num denom p := by
  refine ⟨hitsAtOnce_iff hdenom hdvd hy hleast hhalf, ?_, ?_⟩
  · intro hlt hnear
    exact (hitsAtOnce_iff hdenom hdvd hy hleast hhalf).mpr
      ⟨hlt, latticeDistance_lt hdenom hdvd hhalf hnear⟩
  · intro hsmall
    have herr := abs_roundOff_div_sub_le num hdenom
      ((Int.le_of_dvd (by norm_num) hdvd).trans (by norm_num))
    have hlt : |roundOff (num / denom : ℚ)| < (0x7fffffffffffffff : ℤ) := by
      refine (abs_roundOff_le (representable_two_pow 53) (by linarith)).trans_lt ?_
      norm_num
    exact (hitsAtOnce_iff hdenom hdvd hy hleast hhalf).mpr
      ⟨hlt, latticeDistance_lt hdenom hdvd hhalf (by linarith)⟩

/-- The exact value of the default precision. -/
def exactDefaultPrecision : ℚ := 3961408125713217 / 2 ^ 95

lemma denotes_defaultPrecision : defaultPrecision.Denotes exactDefaultPrecision :=
  denotes_of_toExtended (by decide +kernel)

lemma leastPrecision_le_defaultPrecision : leastPrecision ≤ exactDefaultPrecision :=
  denotes_defaultPrecision.representable.roundOff_le (by norm_num [exactDefaultPrecision])

/-- One tenth is small enough for the default precision. -/
theorem latticeLaw_one_tenth :
    ((10 : ℤ) ∣ 2310 ∧ defaultPrecision.Denotes exactDefaultPrecision ∧
      leastPrecision ≤ exactDefaultPrecision ∧ exactDefaultPrecision ≤ 1 / 2) ∧
      HitsAtOnce {} false (.double defaultPrecision) 1 10 := by
  have hdvd : (10 : ℤ) ∣ 2310 := by decide
  have hhalf : exactDefaultPrecision ≤ 1 / 2 := by norm_num [exactDefaultPrecision]
  refine ⟨⟨hdvd, denotes_defaultPrecision, leastPrecision_le_defaultPrecision, hhalf⟩, ?_⟩
  refine (latticeLaw_of_dvd (by norm_num) hdvd denotes_defaultPrecision
    leastPrecision_le_defaultPrecision hhalf).hitsAtOnce_of_small ?_
  norm_num [exactDefaultPrecision, abs_of_pos]

/-- Four thirds are not: the double is nearer to them than the default precision, but the search
makes a refinement, and its answer is another fraction. -/
theorem four_thirds_not_hit :
    ((3 : ℤ) ∣ 2310 ∧ leastPrecision ≤ exactDefaultPrecision ∧ exactDefaultPrecision ≤ 1 / 2 ∧
      |roundOff ((4 : ℤ) / (3 : ℤ) : ℚ) - (4 : ℤ) / (3 : ℤ)| < exactDefaultPrecision) ∧
      ¬HitsAtOnce {} false (.double defaultPrecision) 4 3 ∧
      (∃ r, search {} false { value := .double (quotient 4 3) } = .ok r ∧
        r.value.iterations = 1) ∧
      ∃ t, nearbyPair {} false { value := .double (quotient 4 3) } = .ok t ∧
        t.value = (4515327751401133, 3386495813550850) := by
  have herr := abs_roundOff_div_sub_le 4 (n := 3) (by norm_num) (by norm_num)
  have hsmall : |((4 : ℤ) / (3 : ℤ) : ℚ)| / 2 ^ 53 < exactDefaultPrecision := by
    norm_num [exactDefaultPrecision, abs_of_pos]
  have hpair := Except.exists_of_toOption_map_eq_some
    (x := nearbyPair {} false { value := .double (quotient 4 3) })
    (f := (·.value)) (b := (4515327751401133, 3386495813550850)) (by decide +kernel)
  obtain ⟨r, hr, hiterations⟩ := Except.exists_of_toOption_map_eq_some
    (x := search {} false { value := .double (quotient 4 3) })
    (f := (·.value.iterations)) (b := 1) (by decide +kernel)
  refine ⟨⟨by decide, leastPrecision_le_defaultPrecision, by norm_num [exactDefaultPrecision],
    herr.trans_lt hsmall⟩, ?_, ⟨r, hr, hiterations⟩, hpair⟩
  rintro ⟨⟨r', hr', hnone, -⟩, -⟩
  rw [hr] at hr'
  rw [Except.ok.inj hr', hnone] at hiterations
  cases hiterations

end Mediant
