import Mediant.Proofs.Bracket.Exact
import Mediant.Proofs.Fraction.Rounded
import Mediant.Proofs.Search.Termination

/-!
# What a stopped search reports

With truncation and a ceiling of at most `2 ^ 53` every bracket on the way is exact, so a search
that the ceiling stopped has its value strictly between the two fractions that it reports.  Their
distance is then an honest bound on the error, in exact arithmetic as well as in the doubles by
which a caller would check it.

`HonestReport` collects what this means of a result, and `StrictlyBracketed` adds what it means of
the brackets on the way.
-/

namespace Mediant

open Binary64

/-! ## Fractions as doubles -/

namespace Fraction

variable {f : Fraction} {x : Binary64} {v : ℚ}

lemma exists_value_eq (h : |f.toRat| ≤ 2 ^ 190) :
    ∃ y, f.value = .ok y ∧ y.Denotes (roundOff f.toRat) :=
  exists_value_eq_of_lt (abs_roundOff_lt_overflowValue h)

lemma holdsDouble_eq (h : |f.toRat| ≤ 2 ^ 190) (hx : x.Denotes v) (r : Relation) :
    f.holdsDouble r x = .ok (decide (r.Holds (roundOff f.toRat) v)) :=
  holdsDouble_eq_of_lt (abs_roundOff_lt_overflowValue h) hx r

lemma fraction_atMost_double (h : |f.toRat| ≤ 2 ^ 190) (hx : x.Denotes v) (hle : f.toRat ≤ v) :
    (Value.fraction f).holds .atMost (.double x) = .ok true := by
  rw [Value.fraction_holds_double, holdsDouble_eq h hx]
  exact congrArg Except.ok (decide_eq_true (hx.representable.roundOff_le hle))

lemma double_atMost_fraction (h : |f.toRat| ≤ 2 ^ 190) (hx : x.Denotes v) (hle : v ≤ f.toRat) :
    (Value.double x).holds .atMost (.fraction f) = .ok true := by
  rw [Value.double_holds_fraction, holdsDouble_eq h hx]
  exact congrArg Except.ok (decide_eq_true (hx.representable.le_roundOff hle))

end Fraction

/-! ## The report -/

/-- The value of a stopped search is strictly between the two fractions, which bounds the error, and
the doubles confirm both. -/
structure HonestReport (x : Binary64) (v : ℚ) (r : Approximant) : Prop where
  between : 0 ≤ v → r.low.toRat < v ∧ v < r.fraction.toRat
  between_mirrored : v < 0 → r.fraction.toRat < v ∧ v < r.low.toRat
  abs_fraction_sub_lt : |r.fraction.toRat - v| < |r.fraction.toRat - r.low.toRat|
  distance_eq : |r.fraction.toRat - r.low.toRat| = 2310 / (r.fraction.denom * r.low.denom)
  le_width : ∃ value width, r.fraction.value = .ok value ∧ r.width = .ok width ∧
    (value.sub x).abs.le width = true
  compared : 0 ≤ v → (Value.fraction r.low).holds .atMost (.double x) = .ok true ∧
    (Value.double x).holds .atMost (.fraction r.fraction) = .ok true
  compared_mirrored : v < 0 → (Value.fraction r.fraction).holds .atMost (.double x) = .ok true ∧
    (Value.double x).holds .atMost (.fraction r.low) = .ok true

/-- The width of a bracket in doubles is no less than the distance of a representable number
inside it from one of its ends. -/
lemma abs_roundOff_sub_le_of_between {low v high : ℚ} (hv : Representable v) (hlow : low ≤ v)
    (hhigh : v ≤ high) :
    |roundOff (roundOff high - v)| ≤ |roundOff (roundOff high - roundOff low)| := by
  have hle := hv.roundOff_le hlow
  have hge := hv.le_roundOff hhigh
  rw [abs_roundOff_eq, abs_roundOff_eq, abs_of_nonneg (sub_nonneg.mpr hge),
    abs_of_nonneg (sub_nonneg.mpr (hle.trans hge))]
  exact roundOff_mono (sub_le_sub_left hle _)

/-- The same for the ends exchanged. -/
lemma abs_roundOff_sub_le_of_between' {low v high : ℚ} (hv : Representable v) (hlow : low ≤ v)
    (hhigh : v ≤ high) :
    |roundOff (roundOff low - v)| ≤ |roundOff (roundOff low - roundOff high)| := by
  have h := abs_roundOff_sub_le_of_between hv.neg (neg_le_neg hhigh) (neg_le_neg hlow)
  have hneg : ∀ a b : ℚ, |roundOff (-a - -b)| = |roundOff (a - b)| := fun a b => by
    rw [← neg_sub', roundOff_neg, abs_neg]
  rwa [roundOff_neg, roundOff_neg, hneg, hneg] at h

/-- In doubles, the error of a fraction is at most the width. -/
lemma Approximant.exists_width {x : Binary64} {v : ℚ} {r : Approximant} (hx : x.Denotes v)
    (hv : |v| ≤ 2 ^ 100) (hfraction : |r.fraction.toRat| ≤ 2 ^ 100) (hlow : |r.low.toRat| ≤ 2 ^ 100)
    (h : |roundOff (roundOff r.fraction.toRat - v)| ≤
      |roundOff (roundOff r.fraction.toRat - roundOff r.low.toRat)|) :
    ∃ value width, r.fraction.value = .ok value ∧ r.width = .ok width ∧
      (value.sub x).abs.le width = true := by
  obtain ⟨y, hy, hyden⟩ := Fraction.exists_value_eq (hfraction.trans (by norm_num))
  obtain ⟨z, hz, hzden⟩ := Fraction.exists_value_eq (hlow.trans (by norm_num))
  have hfraction' := abs_roundOff_le (representable_two_pow 100) hfraction
  have hlow' := abs_roundOff_le (representable_two_pow 100) hlow
  have hrange : ∀ {a b : ℚ}, |a| ≤ 2 ^ 100 → |b| ≤ 2 ^ 100 → |roundOff (a - b)| < overflowValue :=
    fun {a b} ha hb => abs_roundOff_lt_overflowValue ((abs_sub a b).trans (by linarith))
  refine ⟨y, (y.sub z).abs, hy, ?_, ?_⟩
  · rw [width, hy, Except.bind_ok, hz, Except.bind_ok, Except.pure_eq]
  · have herror := (hyden.sub hx (hrange hfraction' hv)).abs
    have hwidth := (hyden.sub hzden (hrange hfraction' hlow')).abs
    rw [herror.le hwidth]
    exact decide_eq_true h

namespace Query

variable {q : Query ℤ} {v p : ℚ} {m : ℤ} {x : Binary64} {n : ℕ} {c : Bracket ℤ} {o : Outcome ℤ}
  {r : Approximant}

/-- With truncation the last cell is not used. -/
lemma Admissible.cellNumber_lt (h : q.Admissible v p m) (hpolicy : q.policy = .truncate) :
    q.cellNumber v < 2310 := by
  have hrep : Representable |v| := by
    have hoperand : q.operand v = |v| := if_pos hpolicy
    rw [← hoperand]
    exact h.denotes_operand.representable
  have hle := (hrep.fract (abs_nonneg v)).le_of_lt_one (Int.fract_lt_one _)
  have hnonneg : 0 ≤ Int.fract |v| * 2310 := mul_nonneg (Int.fract_nonneg _) (by norm_num)
  have herr := abs_roundOff_sub_le (Int.fract |v| * 2310)
  rw [abs_of_nonneg hnonneg, abs_le] at herr
  have htiny := tiny_le
  rw [cellNumber, h.remainder_eq hpolicy, Int.floor_lt]
  push_cast
  linarith [herr.2]

/-- With truncation and a ceiling of at most `2 ^ 53`, every bracket on the way is exact. -/
lemma Admissible.exact (h : q.Admissible v p m) (hpolicy : q.policy = .truncate)
    (hm : m ≤ 2 ^ 53) (hx : x.Denotes (q.remainder v))
    (hreach : (Bracket.cell 2310 (q.cellNumber v)).Reaches (q.goal x) n c) : c.Exact 2310 m :=
  (Bracket.exact_cell (by norm_num) h.seed_lt (q.cellNumber_nonneg v)
    (h.cellNumber_lt hpolicy)).reached hm (h.start hx) hreach

namespace Course

lemma between (h : q.Course v p m x n c o r) (hpolicy : q.policy = .truncate) (hm : m ≤ 2 ^ 53)
    (hover : r.overflowed = true) :
    o.bracket = c ∧ ⌊|v|⌋ + c.low.toRat < |v| ∧ |v| < ⌊|v|⌋ + c.high.toRat := by
  rw [h.returns.overflowed_eq] at hover
  have hexact := h.admissible.exact hpolicy hm h.target h.reaches
  have hsplit := Int.floor_add_fract |v|
  cases h.stages.ends with
  | hitHigh => cases hover
  | hitLow => cases hover
  | blocked hblocked =>
    have hbetween := hexact.between hm h.last (by rw [hblocked]; nofun) (by rw [hblocked]; nofun)
    rw [h.admissible.remainder_eq hpolicy] at hbetween
    exact ⟨rfl, by linarith [hbetween.1], by linarith [hbetween.2]⟩

/-- The two fractions of a stopped search, with the sign and the integer part taken off. -/
lemma fractions_eq (h : q.Course v p m x n c o r) (hpolicy : q.policy = .truncate) (hm : m ≤ 2 ^ 53)
    (hover : r.overflowed = true) :
    r.fraction.toRat = q.sign * (⌊|v|⌋ + c.high.toRat) ∧
      r.low.toRat = q.sign * (⌊|v|⌋ + c.low.toRat) := by
  have hoperand : q.operand v = |v| := if_pos hpolicy
  have hfraction := h.returns.fraction.toRat_eq
  have hlow := h.returns.low.toRat_eq
  rw [(h.between hpolicy hm hover).1, hoperand] at hfraction hlow
  exact ⟨hfraction, hlow⟩

/-- The value of a stopped search is between the fractions, whose order follows its sign. -/
lemma stopped_cases (h : q.Course v p m x n c o r) (hpolicy : q.policy = .truncate)
    (hm : m ≤ 2 ^ 53) (hover : r.overflowed = true) :
    (0 ≤ v ∧ r.low.toRat < v ∧ v < r.fraction.toRat) ∨
      (v < 0 ∧ r.fraction.toRat < v ∧ v < r.low.toRat) := by
  obtain ⟨-, hbelow, habove⟩ := h.between hpolicy hm hover
  obtain ⟨hfraction, hlow⟩ := h.fractions_eq hpolicy hm hover
  have hexact := h.admissible.exact hpolicy hm h.target h.reaches
  have hfloor : (0 : ℚ) ≤ ⌊|v|⌋ := by exact_mod_cast Int.floor_nonneg.mpr (abs_nonneg v)
  have hnonneg : 0 ≤ ⌊|v|⌋ + c.low.toRat := add_nonneg hfloor hexact.low_nonneg
  have hoperand : q.operand v = |v| := if_pos hpolicy
  have hvalue := h.admissible.sign_mul_operand
  rw [hoperand] at hvalue
  rcases q.sign_cases with hs | hs
  · rw [hs, Int.cast_one, one_mul] at hvalue hfraction hlow
    exact .inl ⟨by linarith [abs_nonneg v], by linarith, by linarith⟩
  · rw [hs, Int.cast_neg, Int.cast_one, neg_one_mul] at hvalue hfraction hlow
    exact .inr ⟨by linarith, by linarith, by linarith⟩

/-- Up to the sign, both fractions are between zero and a little more than the ceiling. -/
lemma abs_fractions_le (h : q.Course v p m x n c o r) (hpolicy : q.policy = .truncate)
    (hm : m ≤ 2 ^ 53) (hover : r.overflowed = true) :
    |v| ≤ 2 ^ 100 ∧ |r.fraction.toRat| ≤ 2 ^ 100 ∧ |r.low.toRat| ≤ 2 ^ 100 := by
  obtain ⟨-, hbelow, habove⟩ := h.between hpolicy hm hover
  obtain ⟨hfraction, hlow⟩ := h.fractions_eq hpolicy hm hover
  have hexact := h.admissible.exact hpolicy hm h.target h.reaches
  have hfloor : (0 : ℚ) ≤ ⌊|v|⌋ := by exact_mod_cast Int.floor_nonneg.mpr (abs_nonneg v)
  have hnonneg : 0 ≤ ⌊|v|⌋ + c.low.toRat := add_nonneg hfloor hexact.low_nonneg
  have hceiling : |v| ≤ 2 ^ 53 := h.admissible.abs_value_lt.le.trans (by exact_mod_cast hm)
  have hle : ⌊|v|⌋ + c.high.toRat ≤ 2 ^ 54 := by
    linarith [Int.floor_le |v|, hexact.high_le_one]
  have hsign : |(q.sign : ℚ)| = 1 := by exact_mod_cast q.abs_sign
  refine ⟨hceiling.trans (by norm_num), ?_, ?_⟩
  · rw [hfraction, abs_mul, hsign, one_mul, abs_of_nonneg (by linarith)]
    exact hle.trans (by norm_num)
  · rw [hlow, abs_mul, hsign, one_mul, abs_of_nonneg hnonneg]
    exact (by linarith : ⌊|v|⌋ + c.low.toRat ≤ 2 ^ 54).trans (by norm_num)

/-- A stopped search reports honestly how far it has come. -/
lemma honestReport (h : q.Course v p m x n c o r) (hpolicy : q.policy = .truncate)
    (hm : m ≤ 2 ^ 53) (hover : r.overflowed = true) : HonestReport q.value v r := by
  have hx := h.admissible.value
  have hdistance := h.distance_eq
  obtain ⟨hv, hfraction, hlow⟩ := h.abs_fractions_le hpolicy hm hover
  have hwide : ∀ {f : Fraction}, |f.toRat| ≤ 2 ^ 100 → |f.toRat| ≤ 2 ^ 190 :=
    fun hf => hf.trans (by norm_num)
  rcases h.stopped_cases hpolicy hm hover with ⟨hpos, hbelow, habove⟩ | ⟨hneg, habove, hbelow⟩
  · have hnear : |r.fraction.toRat - v| < |r.fraction.toRat - r.low.toRat| := by
      rw [abs_of_pos (sub_pos.mpr habove), abs_of_pos (sub_pos.mpr (hbelow.trans habove))]
      linarith
    have hrounded := abs_roundOff_sub_le_of_between hx.representable hbelow.le habove.le
    exact {
      between := fun _ => ⟨hbelow, habove⟩
      between_mirrored := fun h => absurd h (not_lt.mpr hpos)
      abs_fraction_sub_lt := hnear
      distance_eq := hdistance
      le_width := Approximant.exists_width hx hv hfraction hlow hrounded
      compared := fun _ => ⟨Fraction.fraction_atMost_double (hwide hlow) hx hbelow.le,
        Fraction.double_atMost_fraction (hwide hfraction) hx habove.le⟩
      compared_mirrored := fun h => absurd h (not_lt.mpr hpos) }
  · have hnear : |r.fraction.toRat - v| < |r.fraction.toRat - r.low.toRat| := by
      rw [abs_of_neg (sub_neg.mpr habove), abs_of_neg (sub_neg.mpr (habove.trans hbelow))]
      linarith
    have hrounded := abs_roundOff_sub_le_of_between' hx.representable habove.le hbelow.le
    exact {
      between := fun h => absurd hneg (not_lt.mpr h)
      between_mirrored := fun _ => ⟨habove, hbelow⟩
      abs_fraction_sub_lt := hnear
      distance_eq := hdistance
      le_width := Approximant.exists_width hx hv hfraction hlow hrounded
      compared := fun h => absurd hneg (not_lt.mpr h)
      compared_mirrored := fun _ => ⟨Fraction.fraction_atMost_double (hwide hfraction) hx habove.le,
        Fraction.double_atMost_fraction (hwide hlow) hx hbelow.le⟩ }

end Course
end Query

/-! ## Along the run -/

/-- A bracket on the way, for a target and a ceiling: where a step refines or is blocked, the target
is strictly between the bounds, and the denominators of a refinement are below the ceiling. -/
structure Bracket.Strict (goal : Goal) (t : ℚ) (m : ℤ) (c : Bracket ℤ) : Prop where
  blocked : c.step goal = .ok .blocked → c.low.toRat < t ∧ t < c.high.toRat
  refined {d : Bracket ℤ} : c.step goal = .ok (.refined d) →
    (c.low.toRat < t ∧ t < c.high.toRat) ∧ d.low.denom < m ∧ d.high.denom < m

/-- A search that keeps its value strictly between the bounds. -/
structure StrictlyBracketed (s : Settings) (a : Arguments) (v : ℚ) (m : ℤ) : Prop where
  exists_search : ∃ r, search s false a = .ok r
  /-- The remainder is that of the absolute value, exactly, and every bracket on the way holds it
  strictly. -/
  strict : ∃ q bound remainder k, a.query s = .ok (q, bound) ∧
    (q.withSeed (2310 : ℤ)).split = .ok (⌊|v|⌋, remainder) ∧ remainder.Denotes (Int.fract |v|) ∧
    (q.withSeed (2310 : ℤ)).Cell remainder k ∧
    ∀ n c, (Bracket.cell 2310 k).Reaches (q.goal remainder) n c →
      c.Strict (q.goal remainder) (Int.fract |v|) m
  /-- A stopped search reports honestly how far it has come. -/
  honest {strict : Bool} {r : Reported Approximant} : search s strict a = .ok r →
    r.value.overflowed = true → ∃ x, a.value.toDouble = .ok x ∧ HonestReport x v r.value

/-- **With truncation and a ceiling of at most `2 ^ 53` a search brackets its value strictly.** -/
theorem strictlyBracketed_of_accepted {flag : Bool} {a : Arguments} {v p : ℚ} {m : ℤ}
    (ha : a.Accepted (.rational leastPrecision) v p m .truncate) (hm : m ≤ 2 ^ 53) :
    StrictlyBracketed { warnOnOverflow := .boolean flag } a v m := by
  have hs : Settings.Standard { warnOnOverflow := .boolean flag } := ⟨rfl, rfl⟩
  have hpos := leastPrecision_pos.trans_le ha.leastPrecision_le
  refine ⟨exists_search_of_accepted hs rfl isNumber_leastPrecision ha hpos, ?_, ?_⟩
  · obtain ⟨q, hquery, hq, hpolicy, -⟩ :=
      exists_admissible hs isNumber_leastPrecision ha hpos
    obtain ⟨x, hsplit, hx⟩ := hq.exists_split_eq
    have hoperand : (q.withSeed (2310 : ℤ)).operand v = |v| := if_pos hpolicy
    have hremainder := hq.remainder_eq hpolicy
    refine ⟨q, _, x, _, hquery, hoperand ▸ hsplit, hremainder ▸ hx, hq.cell hx, ?_⟩
    intro n c hreach
    have hexact := hq.exact hpolicy hm hx hreach
    have hstart : Bracket.Start 2310 _ p m (q.goal x) c := (hq.start hx).reached hreach
    rw [← hremainder]
    constructor
    · intro hblocked
      exact hexact.between hm hstart (by rw [hblocked]; nofun) (by rw [hblocked]; nofun)
    · intro d hrefined
      have hd := hq.exact hpolicy hm hx (hreach.step hrefined)
      exact ⟨hexact.between hm hstart (by rw [hrefined]; nofun) (by rw [hrefined]; nofun),
        hd.low_denom_lt, hd.high_denom_lt⟩
  · intro strict r hr hover
    obtain ⟨q, t, n, c, o, hpolicy, hv, h⟩ := exists_course hs isNumber_leastPrecision ha hpos hr
    exact ⟨q.value, hv, h.honestReport hpolicy hm hover⟩

/-- A ceiling of a hundred thousand stops the search for the double nearest to `-π`. -/
theorem strictlyBracketed_negPi :
    (Arguments.negPi 100000 .truncate).Accepted (.rational leastPrecision) negPi (1 / 2 ^ 40)
        100000 .truncate ∧ (100000 : ℤ) ≤ 2 ^ 53 ∧
      StrictlyBracketed { warnOnOverflow := .boolean true } (.negPi 100000 .truncate) negPi
        100000 ∧
      ∃ r, search {} false (.negPi 100000 .truncate) = .ok r ∧ r.value.overflowed = true := by
  have ha := accepted_negPi 100000 .truncate (by norm_num) (by norm_num)
  refine ⟨ha, by norm_num, strictlyBracketed_of_accepted ha (by norm_num), ?_⟩
  exact Except.exists_of_toOption_map_eq_some (x := search {} false (.negPi 100000 .truncate))
    (f := (·.value.overflowed)) (b := true) (by decide +kernel)

end Mediant
