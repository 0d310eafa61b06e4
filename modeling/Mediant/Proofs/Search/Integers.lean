import Mediant.Proofs.LowestTerms
import Mediant.Proofs.Search.Checks
import Mediant.Proofs.Search.Opening
import Mediant.Rationalization

/-!
# Integers

An integer is rounded to a double before it is searched.  What is left of it, `roundedInteger`, is
an integer again: a double that is none is far below `2 ^ 53`, and all integers up to there are
doubles.  It has no remainder, so the search hits the lower bound of the first cell, before the
ceiling is looked at, and the pair is the rounded integer over one.

`KeptInteger` says this for every integer and all arguments: a call fails only where the checks of
its arguments do.  The integer itself comes back if it is a double (`exact_iff`), and not
otherwise; `2 ^ 53 + 1` is the first that does not.
-/

namespace Mediant

open Binary64

/-! ## Rounding an integer -/

/-- The integer that a double nearest to an integer is. -/
def roundedInteger (n : ℤ) : ℤ := ⌊roundOff n⌋

lemma cast_roundedInteger (n : ℤ) : (roundedInteger n : ℚ) = roundOff n := by
  rcases (representable_roundOff n).eq_intCast_or_abs_le with ⟨m, hm⟩ | hsmall
  · rw [roundedInteger, hm, Int.floor_intCast]
  · have hle : |n| ≤ 2 ^ 53 := by
      by_contra hlarge
      have habs : (2 ^ 53 : ℚ) ≤ |(n : ℚ)| := by
        exact_mod_cast (not_le.mp hlarge).le
      have hround := (representable_two_pow 53).le_roundOff habs
      rw [← abs_roundOff_eq] at hround
      norm_num at hround hsmall
      linarith
    rw [roundedInteger, (representable_intCast hle).roundOff_eq, Int.floor_intCast]

/-- An integer is rounded to itself if it is the value of a double. -/
lemma roundedInteger_eq_iff {n : ℤ} : roundedInteger n = n ↔ Representable (n : ℚ) := by
  rw [← roundOff_eq_self_iff, ← cast_roundedInteger, Int.cast_inj]

lemma Value.IsInteger.denotes_roundedInteger {v : Value} {n : ℤ} {x : Binary64}
    (h : v.IsInteger n) (hx : v.toDouble = .ok x) : x.Denotes (roundedInteger n) := by
  rw [cast_roundedInteger]
  cases h with
  | integer n => exact denotes_of_toDouble_eq_ok hx
  | boolean b => exact denotes_of_toDouble_eq_ok hx

/-! ## The search of an integer -/

namespace Bracket

/-- At the lower end of the first cell the search hits the lower bound. -/
lemma ends_cell_zero {goal : Goal} {p : ℚ} (htarget : goal.target.Denotes 0)
    (hp : goal.precision.Denotes p) (hpos : 0 < p) (hle : p ≤ 1) (n : ℕ) :
    (cell (2310 : ℤ) 0).Ends goal n ⟨(cell 2310 0).swap, n, false⟩ := by
  have hlow : (cell (2310 : ℤ) 0).low.Sized := ⟨by decide, by decide, by decide⟩
  have hhigh : (cell (2310 : ℤ) 0).high.Sized := ⟨by decide, by decide, by decide⟩
  have hgaplow : (cell 2310 0).low.roundedGap 0 = 0 := by
    simp [Bound.roundedGap, cell]
  have hgaphigh : -(cell 2310 0).high.roundedGap 0 = 1 := by
    simp [Bound.roundedGap, cell]
  obtain ⟨below, hbelow, hbelowden⟩ := hlow.gapBelow_eq htarget le_rfl zero_le_one
  obtain ⟨above, habove, haboveden⟩ := hhigh.gapAbove_eq htarget le_rfl zero_le_one
  rw [hgaplow] at hbelowden
  rw [hgaphigh] at haboveden
  refine .hitLow (step_eq_ok_iff.mpr ⟨below, above, hbelow, habove, .inr (.inl ⟨?_, ?_, rfl⟩)⟩)
  · rw [haboveden.lt hp]
    exact decide_eq_false (not_lt.mpr hle)
  · rw [hbelowden.lt hp]
    exact decide_eq_true hpos

end Bracket

namespace Query.Posed

variable {q : Query ℤ} {k : ℤ} {p : ℚ}

lemma exists_operand_eq (q : Query ℤ) (k : ℤ) : ∃ m : ℤ, q.operand k = m := by
  rw [operand]
  split
  · exact ⟨|k|, (Int.cast_abs ..).symm⟩
  · exact ⟨k, rfl⟩

/-- The refinement of an integer ends where it starts, at the integer itself. -/
lemma refine_of_intCast (h : q.Posed k p) (hle : p ≤ 1) :
    q.refine = .ok (⌊q.operand k⌋, ⟨(Bracket.cell 2310 0).swap, 0, false⟩) := by
  obtain ⟨x, hsplit, hx⟩ := h.exists_split_eq
  have hcell := h.cell hx
  obtain ⟨m, hm⟩ := exists_operand_eq q k
  have hremainder : q.remainder k = 0 := by
    rw [remainder, hm, Int.fract_intCast, roundOff_zero]
  have hnumber : q.cellNumber k = 0 := by
    rw [cellNumber, hremainder, zero_mul, roundOff_zero, Int.floor_zero]
  rw [hremainder] at hx
  rw [hnumber] at hcell
  refine refine_eq_ok hsplit hcell ?_
  rw [h.seed_eq]
  exact (Bracket.ends_cell_zero hx h.precision h.precision_pos hle 0).run_eq

lemma restores_intCast (h : q.Posed k p) {f : Fraction}
    (hf : q.Restores ⌊q.operand k⌋ ⟨0, 2310⟩ f) : f.lowestTerms = (k, 1) := by
  have hvalue : f.toRat = k := by
    obtain ⟨m, hm⟩ := exists_operand_eq q k
    rw [hf.toRat_eq, hm, Int.floor_intCast, ← hm, Bound.toRat, Int.cast_zero, zero_div, add_zero,
      h.sign_mul_operand]
  rw [f.lowestTerms_eq_num_den, hvalue, Rat.num_intCast, Rat.den_intCast]
  rfl

end Query.Posed

/-! ## The pair of an integer -/

variable {s : Settings} {strict : Bool} {a : Arguments} {n : ℤ} {y : Binary64} {p : ℚ}

/-- A search fails where the checks of its arguments do. -/
lemma nearbyPair_of_query_eq_error {fault : Fault} (hquery : a.query s = .error fault) :
    nearbyPair s strict a = .error fault := by
  rw [nearbyPair, nearbyFraction, search, hquery]
  rfl

lemma rationalize_of_isInteger {v : Value} (hv : v.IsInteger n) :
    rationalize s strict a v = rationalizeScalar s strict a v := by
  cases hv <;> rfl

section

variable (hseed : s.seed = .integer 2310)
  (hleast : s.leastPrecision = .double (quotient 1 1000000000000000))
  (hy : a.precision.toDouble = .ok y) (hp : y.Denotes p) (hle : p ≤ 1)

include hseed hleast hy hp hle

/-- An integer whose search passes the checks has itself over one as its pair, up to rounding. -/
lemma nearbyPair_of_query_eq_ok {q : Query Value} {bound : Value} (hn : a.value.IsInteger n)
    (hquery : a.query s = .ok (q, bound)) :
    nearbyPair s strict a = .ok ⟨(roundedInteger n, 1), []⟩ := by
  have hprecision : q.precision.Denotes p := by
    rw [toDouble_precision_of_query_eq_ok hquery] at hy
    rwa [Except.ok.inj hy]
  obtain ⟨p', hp', hleastp⟩ := exists_denotes_precision hleast hquery
  have hposed : (q.withSeed 2310).Posed (roundedInteger n) p :=
    ⟨hn.denotes_roundedInteger (value_of_query_eq_ok hquery), hprecision,
      hprecision.unique hp' ▸ leastPrecision_pos.trans_le hleastp, rfl⟩
  have hrefine := hposed.refine_of_intCast hle
  obtain ⟨r, hresult⟩ : ∃ r, (q.withSeed (2310 : ℤ)).result
      ⌊(q.withSeed 2310).operand (roundedInteger n)⌋
      ⟨(Bracket.cell 2310 0).swap, 0, false⟩ = .ok r :=
    Query.exists_result_eq_ok (by decide) (by decide)
  have hterms := hposed.restores_intCast (Query.returns_of_result_eq_ok hresult).fraction
  rw [nearbyPair_eq_ok_iff]
  refine ⟨⟨r, []⟩, (search_eq_ok_iff hseed).mpr
    ⟨q, bound, hquery, _, _, hrefine, rfl, hresult⟩, ?_⟩
  rw [hterms]

/-- Nothing but the checks stands between an integer and its pair. -/
lemma nearbyPair_of_isInteger (hn : a.value.IsInteger n) :
    nearbyPair s strict a = (a.query s).map fun _ => ⟨(roundedInteger n, 1), []⟩ := by
  cases hquery : a.query s with
  | error fault => exact nearbyPair_of_query_eq_error hquery
  | ok query => exact nearbyPair_of_query_eq_ok hseed hleast hy hp hle hn hquery

lemma value_of_nearbyPair_eq_ok (hn : a.value.IsInteger n) {t : Reported (ℤ × ℤ)}
    (ht : nearbyPair s strict a = .ok t) : t.value = (roundedInteger n, 1) := by
  rw [nearbyPair_of_isInteger hseed hleast hy hp hle hn] at ht
  cases hquery : a.query s with
  | error fault =>
    rw [hquery] at ht
    cases ht
  | ok query =>
    rw [hquery] at ht
    cases ht
    rfl

lemma rationalizeScalar_of_isInteger {v : Value} (hv : v.IsInteger n) :
    rationalizeScalar s strict a v = (({ a with value := v } : Arguments).query s).map fun _ =>
      ⟨.pair (roundedInteger n) 1, []⟩ := by
  have hpair : nearbyPair s strict { a with value := v } = _ :=
    nearbyPair_of_isInteger hseed hleast hy hp hle hv
  rw [rationalizeScalar, hpair]
  cases ({ a with value := v } : Arguments).query s <;> rfl

end

/-! ## The law -/

/-- What comes back for an integer: the rounded integer over one, whenever the arguments pass their
checks, and no warning. -/
structure KeptInteger (s : Settings) (strict : Bool) (a : Arguments) (n : ℤ) : Prop where
  /-- The rounded integer is the value of the nearest double. -/
  rounded : (roundedInteger n : ℚ) = roundOff n
  pair_eq : nearbyPair s strict a = (a.query s).map fun _ => ⟨(roundedInteger n, 1), []⟩
  rationalize_eq : rationalize s strict a a.value =
    (a.query s).map fun _ => ⟨.pair (roundedInteger n) 1, []⟩
  /-- An integer out of an array is treated as the plain integer. -/
  rationalizeEntry_eq : rationalize s strict a (.entry (.integer n)) =
    (({ a with value := .integer n } : Arguments).query s).map fun _ =>
      ⟨.pair (roundedInteger n) 1, []⟩
  /-- The integer itself comes back if it is the value of a double, and not otherwise. -/
  exact_iff {t : Reported (ℤ × ℤ)} : nearbyPair s strict a = .ok t →
    (t.value = (n, 1) ↔ Representable (n : ℚ))
  /-- All integers up to `2 ^ 53` come back. -/
  exact_of_abs_le {t : Reported (ℤ × ℤ)} : |n| ≤ 2 ^ 53 → nearbyPair s strict a = .ok t →
    t.value = (n, 1)
  /-- Arguments of the intended sorts pass, under any ceiling above the seed and the integer. -/
  exists_pair {least : Extended} {v u : ℚ} {m : ℤ} {policy : Splitting} : s.Standard →
    s.leastPrecision.IsNumber least → a.Checked least v u m policy →
      nearbyPair s strict a = .ok ⟨(roundedInteger n, 1), []⟩

/-- **An integer comes back as itself, up to the rounding to a double**, with either policy, any
ceiling and any precision up to one. -/
theorem keptInteger_of_isInteger {warn ceiling : Value} (hn : a.value.IsInteger n)
    (hy : a.precision.toDouble = .ok y) (hp : y.Denotes p) (hle : p ≤ 1) :
    KeptInteger { warnOnOverflow := warn, ceiling := ceiling } strict a n := by
  refine ⟨cast_roundedInteger n, nearbyPair_of_isInteger rfl rfl hy hp hle hn, ?_,
    rationalizeScalar_of_isInteger rfl rfl hy hp hle (.integer n), ?_, ?_, ?_⟩
  · rw [rationalize_of_isInteger hn]
    exact rationalizeScalar_of_isInteger rfl rfl hy hp hle hn
  · intro t ht
    rw [value_of_nearbyPair_eq_ok rfl rfl hy hp hle hn ht, ← roundedInteger_eq_iff, Prod.mk.injEq,
      and_iff_left rfl]
  · intro t hsmall ht
    rw [value_of_nearbyPair_eq_ok rfl rfl hy hp hle hn ht,
      roundedInteger_eq_iff.mpr (representable_intCast hsmall)]
  · intro least v u m policy hs hleast hchecked
    obtain ⟨_, _, -, -, -, hquery⟩ := exists_query_eq_ok hs hleast hchecked
    exact nearbyPair_of_query_eq_ok rfl rfl hy hp hle hn hquery

/-- Minus three, floored, with a precision of `2 ^ (-40)` and a ceiling far beyond all doubles. -/
theorem keptInteger_negThree :
    (Value.integer (-3)).IsInteger (-3) ∧
      (Value.double (ofBits 0x3D70000000000000)).toDouble = .ok (ofBits 0x3D70000000000000) ∧
      (ofBits 0x3D70000000000000).Denotes (1 / 2 ^ 40) ∧ (1 / 2 ^ 40 : ℚ) ≤ 1 ∧
      KeptInteger {} true
        ⟨.integer (-3), .double (ofBits 0x3D70000000000000), .integer (10 ^ 400), .policy .floor⟩
        (-3) ∧
      ∃ t, nearbyPair {} true
        ⟨.integer (-3), .double (ofBits 0x3D70000000000000), .integer (10 ^ 400), .policy .floor⟩ =
          .ok t ∧ t.value = (-3, 1) := by
  have hp : (ofBits 0x3D70000000000000).Denotes (1 / 2 ^ 40) :=
    denotes_of_toExtended (by decide +kernel)
  have hpair := Except.exists_of_toOption_map_eq_some
    (x := nearbyPair {} true
      ⟨.integer (-3), .double (ofBits 0x3D70000000000000), .integer (10 ^ 400), .policy .floor⟩)
    (f := (·.value)) (b := (-3, 1)) (by decide +kernel)
  exact ⟨.integer (-3), rfl, hp, by norm_num,
    keptInteger_of_isInteger (.integer (-3)) rfl hp (by norm_num), hpair⟩

/-- The first integer that is no double comes back as its neighbour. -/
theorem pow_fiftyThree_succ_not_kept :
    ∃ t, nearbyPair {} false { value := .integer (2 ^ 53 + 1) } = .ok t ∧
      t.value = (2 ^ 53, 1) ∧ t.value ≠ (2 ^ 53 + 1, 1) := by
  obtain ⟨t, ht, hvalue⟩ := Except.exists_of_toOption_map_eq_some
    (x := nearbyPair {} false { value := .integer (2 ^ 53 + 1) }) (f := (·.value))
    (b := (2 ^ 53, 1)) (by decide +kernel)
  refine ⟨t, ht, hvalue, ?_⟩
  rw [hvalue]
  decide

end Mediant
