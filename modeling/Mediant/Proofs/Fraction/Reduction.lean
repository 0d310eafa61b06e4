import Mediant.Proofs.Fraction.Equality
import Mediant.Proofs.Search.Checks
import Mediant.Value.Arithmetic

/-!
# The unique lowest terms

`InLowestTerms` says what it is for a pair to be the lowest terms of two integers: the denominator
is positive, the two have no common factor, and they are in the same ratio.  At most one pair is
that, numerator and denominator of the rational number; the quotients by the greatest common divisor
are that, with the sign where it belongs.  So lowest terms can be compared in place of cross
products, a common factor of either sign makes no difference, and reducing again changes nothing.

`UniquelyReduced` collects this for two integers or truth values.  A denominator of zero is the only
reason not to have lowest terms; the fault that says so shows the pair, and where the numerator is
too long to be shown, the fault that says this takes its place.
-/

namespace Mediant

/-! ## Pairs in lowest terms -/

/-- The pair is in lowest terms, and in the same ratio as the two integers. -/
structure InLowestTerms (num denom : ℤ) (t : ℤ × ℤ) : Prop where
  denom_pos : 0 < t.2
  coprime : Int.gcd t.1 t.2 = 1
  same_ratio : t.1 * denom = num * t.2

variable {num denom : ℤ} {t : ℤ × ℤ}

lemma InLowestTerms.eq_num_den (h : InLowestTerms num denom t) (hdenom : denom ≠ 0) :
    t = (((num : ℚ) / denom).num, (((num : ℚ) / denom).den : ℤ)) := by
  have hratio : (num : ℚ) / denom = t.1 / t.2 := by
    rw [div_eq_div_iff (by exact_mod_cast hdenom) (by exact_mod_cast h.denom_pos.ne')]
    exact_mod_cast h.same_ratio.symm
  rw [hratio, Rat.num_div_eq_of_coprime h.denom_pos h.coprime,
    Rat.den_div_eq_of_coprime h.denom_pos h.coprime]

lemma inLowestTerms_num_den (num : ℤ) (hdenom : denom ≠ 0) :
    InLowestTerms num denom (((num : ℚ) / denom).num, (((num : ℚ) / denom).den : ℤ)) := by
  refine ⟨Int.natCast_pos.mpr (Rat.den_pos _), (Rat.reduced _), ?_⟩
  have hratio := Rat.num_div_den ((num : ℚ) / denom)
  rw [div_eq_div_iff (by exact_mod_cast Rat.den_nz _) (by exact_mod_cast hdenom)] at hratio
  exact_mod_cast hratio

lemma inLowestTerms_lowestTerms (num : ℤ) (hdenom : denom ≠ 0) :
    InLowestTerms num denom (lowestTerms num denom) := by
  rw [lowestTerms_eq_num_den num hdenom]
  exact inLowestTerms_num_den num hdenom

lemma InLowestTerms.eq_lowestTerms (h : InLowestTerms num denom t) (hdenom : denom ≠ 0) :
    t = lowestTerms num denom := by
  rw [lowestTerms_eq_num_den num hdenom]
  exact h.eq_num_den hdenom

lemma lowestTerms_eq_lowestTerms_iff {num' denom' : ℤ} (hdenom : denom ≠ 0) (hdenom' : denom' ≠ 0) :
    lowestTerms num denom = lowestTerms num' denom' ↔ num * denom' = num' * denom :=
  (Fraction.lowestTerms_inj (f := ⟨num, denom, hdenom⟩) (g := ⟨num', denom', hdenom'⟩)).trans
    Fraction.toRat_eq_toRat_iff

lemma lowestTerms_mul_mul (num : ℤ) (hdenom : denom ≠ 0) {k : ℤ} (hk : k ≠ 0) :
    lowestTerms (num * k) (denom * k) = lowestTerms num denom :=
  (lowestTerms_eq_lowestTerms_iff (mul_ne_zero hdenom hk) hdenom).mpr (by ring)

lemma lowestTerms_lowestTerms (num : ℤ) (hdenom : denom ≠ 0) :
    lowestTerms (lowestTerms num denom).1 (lowestTerms num denom).2 = lowestTerms num denom := by
  have hterms := inLowestTerms_lowestTerms num hdenom
  exact (lowestTerms_eq_lowestTerms_iff hterms.denom_pos.ne' hdenom).mpr hterms.same_ratio

/-- The greatest common divisor times the lowest terms are the two integers, up to a common sign. -/
lemma lowestTerms_mul_gcd (num : ℤ) (hdenom : denom ≠ 0) :
    (lowestTerms num denom).1 * Int.gcd num denom = denom.sign * num ∧
      (lowestTerms num denom).2 * Int.gcd num denom = denom.sign * denom := by
  rcases lt_or_gt_of_ne hdenom with hneg | hpos
  · rw [← lowestTerms_neg_neg num hneg, lowestTerms_eq_div _ (Int.neg_pos_of_neg hneg),
      Int.sign_eq_neg_one_of_neg hneg, neg_one_mul, neg_one_mul, Int.gcd_neg, Int.neg_gcd]
    exact ⟨Int.ediv_mul_cancel (Int.dvd_neg.mpr (Int.gcd_dvd_left ..)),
      Int.ediv_mul_cancel (Int.dvd_neg.mpr (Int.gcd_dvd_right ..))⟩
  · rw [lowestTerms_eq_div num hpos, Int.sign_eq_one_of_pos hpos, one_mul, one_mul]
    exact ⟨Int.ediv_mul_cancel (Int.gcd_dvd_left ..), Int.ediv_mul_cancel (Int.gcd_dvd_right ..)⟩

/-! ## Values -/

namespace Value

variable {v w : Value}

lemma IsInteger.integer?_eq {n : ℤ} (h : v.IsInteger n) : v.integer? = some n := by
  cases h <;> rfl

lemma IsInteger.greatestCommonDivisor_eq (hv : v.IsInteger num) (hw : w.IsInteger denom) :
    v.greatestCommonDivisor w =
      if num = 0 ∧ denom = 0 then .error .gcdOfZeros else .ok (.integer (Int.gcd num denom)) := by
  rw [Value.greatestCommonDivisor, hv.integer?_eq, hw.integer?_eq]
  simp only [Mediant.greatestCommonDivisor, euclid_eq_gcd]
  split
  · rfl
  · rfl

/-- A denominator of zero is refused with a fault that shows the pair. -/
lemma IsInteger.lowestTerms_of_zero (hw : w.IsInteger 0) :
    v.lowestTerms w =
      (v.shown >>= fun num => w.shown >>= fun denom => .error (.irreducible num denom)) := by
  have hzero : w.equals (.integer 0) = .ok true := by
    rw [hw.isRational.equals_iff (.integer 0)]
  rw [Value.lowestTerms, hzero]
  rfl

lemma IsInteger.exists_lowestTerms_eq_error (hv : v.IsInteger num) (hw : w.IsInteger 0)
    (hnum : ¬TooLong num) : ∃ text text', v.shown = .ok text ∧ w.shown = .ok text' ∧
      v.lowestTerms w = .error (.irreducible text text') := by
  obtain ⟨text, htext⟩ := hv.exists_shown_eq_ok hnum
  obtain ⟨text', htext'⟩ := hw.exists_shown_eq_ok (not_tooLong_of_abs_le (by norm_num))
  refine ⟨text, text', htext, htext', ?_⟩
  rw [hw.lowestTerms_of_zero, htext, htext', Except.bind_ok, Except.bind_ok]

lemma IsInteger.lowestTerms_eq_tooLong (hv : v.IsInteger num) (hw : w.IsInteger 0)
    (hnum : TooLong num) : v.lowestTerms w = .error .integerTooLong := by
  rw [hw.lowestTerms_of_zero, hv.shown_eq_error hnum, Except.bind_error]

lemma IsInteger.lowestTerms_eq (hv : v.IsInteger num) (hw : w.IsInteger denom)
    (hdenom : denom ≠ 0) :
    v.lowestTerms w = .ok (.integer (Mediant.lowestTerms num denom).1,
      .integer (Mediant.lowestTerms num denom).2) := by
  have hequals : ∀ {u : Value} {n : ℤ}, u.IsInteger n →
      u.equals (.integer 0) = .ok (decide (n = 0)) := by
    intro u n hu
    rw [hu.isRational.equals_eq (.integer 0)]
    exact congrArg Except.ok (decide_eq_decide.mpr Int.cast_inj)
  rw [Value.lowestTerms, hequals hv, hequals hw, decide_eq_false hdenom, hv.integer?_eq,
    hw.integer?_eq]
  by_cases hnum : num = 0
  · rw [hnum, decide_eq_true rfl, Mediant.lowestTerms, if_pos rfl]
    rfl
  · rw [decide_eq_false hnum]
    rfl

/-- The two ways in which a pair is refused. -/
lemma IsInteger.lowestTerms_eq_error (hv : v.IsInteger num) (hw : w.IsInteger denom)
    {fault : Fault} (h : v.lowestTerms w = .error fault) :
    denom = 0 ∧ (TooLong num ∧ fault = .integerTooLong ∨ ¬TooLong num ∧ ∃ text text',
      v.shown = .ok text ∧ w.shown = .ok text' ∧ fault = .irreducible text text') := by
  by_cases hdenom : denom = 0
  · subst hdenom
    refine ⟨rfl, ?_⟩
    by_cases hnum : TooLong num
    · rw [hv.lowestTerms_eq_tooLong hw hnum] at h
      exact .inl ⟨hnum, (Except.error.inj h).symm⟩
    · obtain ⟨text, text', htext, htext', hpair⟩ := hv.exists_lowestTerms_eq_error hw hnum
      rw [hpair] at h
      exact .inr ⟨hnum, text, text', htext, htext', (Except.error.inj h).symm⟩
  · rw [hv.lowestTerms_eq hw hdenom] at h
    cases h

lemma IsInteger.exists_lowestTerms_eq_error_iff (hv : v.IsInteger num) (hw : w.IsInteger denom) :
    (∃ fault, v.lowestTerms w = .error fault) ↔ denom = 0 := by
  constructor
  · rintro ⟨fault, hfault⟩
    exact (hv.lowestTerms_eq_error hw hfault).1
  · rintro rfl
    by_cases hnum : TooLong num
    · exact ⟨_, hv.lowestTerms_eq_tooLong hw hnum⟩
    · obtain ⟨_, _, -, -, h⟩ := hv.exists_lowestTerms_eq_error hw hnum
      exact ⟨_, h⟩

lemma IsInteger.exists_zeroDivision_iff (hv : v.IsInteger num) (hw : w.IsInteger denom) :
    (∃ fault, v.lowestTerms w = .error fault ∧ fault.kind = .zeroDivision) ↔
      denom = 0 ∧ ¬TooLong num := by
  constructor
  · rintro ⟨fault, hfault, hkind⟩
    obtain ⟨hdenom, ⟨-, rfl⟩ | ⟨hnum, -⟩⟩ := hv.lowestTerms_eq_error hw hfault
    · cases hkind
    · exact ⟨hdenom, hnum⟩
  · rintro ⟨rfl, hnum⟩
    obtain ⟨_, _, -, -, h⟩ := hv.exists_lowestTerms_eq_error hw hnum
    exact ⟨_, h, rfl⟩

lemma IsInteger.lowestTerms_eq_tooLong_iff (hv : v.IsInteger num) (hw : w.IsInteger denom) :
    v.lowestTerms w = .error .integerTooLong ↔ denom = 0 ∧ TooLong num := by
  constructor
  · intro hfault
    obtain ⟨hdenom, ⟨hnum, -⟩ | ⟨-, _, _, -, -, h⟩⟩ := hv.lowestTerms_eq_error hw hfault
    · exact ⟨hdenom, hnum⟩
    · cases h
  · rintro ⟨rfl, hnum⟩
    exact hv.lowestTerms_eq_tooLong hw hnum

lemma IsInteger.lowestTerms_of_eq_ok (hv : v.IsInteger num) (hw : w.IsInteger denom)
    {x y : Value} (h : v.lowestTerms w = .ok (x, y)) : x.lowestTerms y = .ok (x, y) := by
  by_cases hdenom : denom = 0
  · obtain ⟨fault, hfault⟩ := (hv.exists_lowestTerms_eq_error_iff hw).mpr hdenom
    rw [hfault] at h
    cases h
  · rw [hv.lowestTerms_eq hw hdenom] at h
    cases h
    rw [(IsInteger.integer _).lowestTerms_eq (.integer _) (lowestTerms_denom_pos num hdenom).ne',
      lowestTerms_lowestTerms num hdenom]

end Value

/-! ## The law -/

/-- What the lowest terms of a pair of integers are. -/
structure UniquelyReduced (v w : Value) (num denom : ℤ) : Prop where
  /-- A pair is refused if its denominator is zero, and only then. -/
  refused_iff : (∃ fault, v.lowestTerms w = .error fault) ↔ denom = 0
  /-- It is refused as a division by zero if its numerator can be shown. -/
  zeroDivision_iff : (∃ fault, v.lowestTerms w = .error fault ∧ fault.kind = .zeroDivision) ↔
    denom = 0 ∧ ¬TooLong num
  /-- The fault then shows the pair. -/
  fault_eq {fault : Fault} : v.lowestTerms w = .error fault → ¬TooLong num →
    ∃ text text', v.shown = .ok text ∧ w.shown = .ok text' ∧ fault = .irreducible text text'
  /-- The only other fault is that the numerator cannot be shown. -/
  tooLong_iff : v.lowestTerms w = .error .integerTooLong ↔ denom = 0 ∧ TooLong num
  /-- Every other pair has a single pair of lowest terms, and gets it. -/
  exists_unique : denom ≠ 0 → ∃ t, v.lowestTerms w = .ok (.integer t.1, .integer t.2) ∧
    InLowestTerms num denom t ∧ ∀ t', InLowestTerms num denom t' → t' = t
  /-- Pairs have the same lowest terms if their cross products are the same. -/
  eq_iff {v' w' : Value} {num' denom' : ℤ} :
    denom ≠ 0 → v'.IsInteger num' → w'.IsInteger denom' → denom' ≠ 0 →
      (v.lowestTerms w = v'.lowestTerms w' ↔ num * denom' = num' * denom)
  /-- A common factor of either sign makes no difference. -/
  scale {k : ℤ} : denom ≠ 0 → k ≠ 0 →
    (Value.integer (num * k)).lowestTerms (.integer (denom * k)) = v.lowestTerms w
  /-- Lowest terms are their own lowest terms. -/
  idempotent {x y : Value} : v.lowestTerms w = .ok (x, y) → x.lowestTerms y = .ok (x, y)
  /-- The greatest common divisor by which a pair is divided exists, and it divides evenly; a
  negative denominator gives its sign away. -/
  divisor : denom ≠ 0 → ∃ (g : ℕ) (t : ℤ × ℤ), v.greatestCommonDivisor w = .ok (.integer g) ∧
    0 < g ∧ v.lowestTerms w = .ok (.integer t.1, .integer t.2) ∧
      t.1 * g = denom.sign * num ∧ t.2 * g = denom.sign * denom
  /-- A fraction in lowest terms has the lowest terms of its fields, and stays as it is. -/
  fraction {f : Fraction} : f.num = num → f.denom = denom →
    v.lowestTerms w = .ok (.integer f.reduced.num, .integer f.reduced.denom) ∧
      f.reduced.reduced = f.reduced

/-- **Lowest terms are unique**, and every pair of integers over a nonzero denominator has them. -/
theorem uniquelyReduced_of_isInteger {v w : Value} (hv : v.IsInteger num)
    (hw : w.IsInteger denom) : UniquelyReduced v w num denom := by
  constructor
  · exact hv.exists_lowestTerms_eq_error_iff hw
  · exact hv.exists_zeroDivision_iff hw
  · intro fault hfault hnum
    obtain ⟨-, ⟨hlong, -⟩ | ⟨-, htexts⟩⟩ := hv.lowestTerms_eq_error hw hfault
    · exact absurd hlong hnum
    · exact htexts
  · exact hv.lowestTerms_eq_tooLong_iff hw
  · intro hdenom
    exact ⟨_, hv.lowestTerms_eq hw hdenom, inLowestTerms_lowestTerms num hdenom,
      fun t' ht' => ht'.eq_lowestTerms hdenom⟩
  · intro v' w' num' denom' hdenom hv' hw' hdenom'
    rw [hv.lowestTerms_eq hw hdenom, hv'.lowestTerms_eq hw' hdenom', Except.ok.injEq,
      Prod.mk.injEq, Value.integer.injEq, Value.integer.injEq, ← Prod.ext_iff]
    exact lowestTerms_eq_lowestTerms_iff hdenom hdenom'
  · intro k hdenom hk
    rw [hv.lowestTerms_eq hw hdenom,
      (Value.IsInteger.integer _).lowestTerms_eq (.integer _) (mul_ne_zero hdenom hk),
      lowestTerms_mul_mul num hdenom hk]
  · intro x y hterms
    exact hv.lowestTerms_of_eq_ok hw hterms
  · intro hdenom
    refine ⟨Int.gcd num denom, lowestTerms num denom, ?_,
      Int.gcd_pos_of_ne_zero_right num hdenom, hv.lowestTerms_eq hw hdenom,
      lowestTerms_mul_gcd num hdenom⟩
    rw [hv.greatestCommonDivisor_eq hw, if_neg fun hzero => hdenom hzero.2]
  · rintro f rfl rfl
    refine ⟨hv.lowestTerms_eq hw f.denom_ne_zero, ?_⟩
    have hterms : f.reduced.lowestTerms = f.lowestTerms :=
      lowestTerms_lowestTerms f.num f.denom_ne_zero
    simp only [Fraction.reduced, Fraction.mk.injEq]
    exact Prod.mk.inj hterms

/-- Six over minus four is minus three over two. -/
theorem uniquelyReduced_six_negFour :
    (Value.integer 6).IsInteger 6 ∧ (Value.integer (-4)).IsInteger (-4) ∧
      UniquelyReduced (.integer 6) (.integer (-4)) 6 (-4) ∧
      (Value.integer 6).lowestTerms (.integer (-4)) = .ok (.integer (-3), .integer 2) := by
  have hsix : (Value.integer 6).IsInteger 6 := .integer 6
  have hfour : (Value.integer (-4)).IsInteger (-4) := .integer (-4)
  have hterms : InLowestTerms 6 (-4) (-3, 2) := ⟨by decide, by decide, by decide⟩
  refine ⟨hsix, hfour, uniquelyReduced_of_isInteger hsix hfour, ?_⟩
  rw [hsix.lowestTerms_eq hfour (by decide), ← hterms.eq_lowestTerms (by decide)]

/-- Over zero, an integer of more than 4300 digits is refused, but not as a division by zero. -/
theorem refusal_not_zeroDivision :
    (Value.integer (10 ^ 4300)).IsInteger (10 ^ 4300) ∧ (Value.integer 0).IsInteger 0 ∧
      ¬∃ fault, (Value.integer (10 ^ 4300)).lowestTerms (.integer 0) = .error fault ∧
        fault.kind = .zeroDivision := by
  refine ⟨.integer _, .integer 0, ?_⟩
  rintro ⟨fault, hfault, hkind⟩
  have hterms := (Value.IsInteger.integer (10 ^ 4300)).lowestTerms_eq_tooLong (.integer 0)
    (le_abs_self _)
  rw [hterms] at hfault
  rw [← Except.error.inj hfault] at hkind
  cases hkind

end Mediant
