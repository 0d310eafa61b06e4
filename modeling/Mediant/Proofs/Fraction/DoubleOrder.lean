import Mediant.Proofs.Fraction.Rounded
import Mediant.Proofs.Rounding.Range

/-!
# Fractions in order with doubles

Next to a fraction or an integer a fraction is ordered by cross products, that is exactly.  Next to
a double it is ordered by its value, which is rounded.  Rounding keeps the order and fixes the
doubles, so it can move a fraction onto the double it is compared with but never past it: a strict
relation can get lost that way and a weak one can be gained (`Relation.holds_roundOff_iff`).  A
fraction whose value is out of the range of doubles cannot be compared with any.

`RoundedOrder` says for which fractions and doubles the answers are exact.
-/

namespace Mediant

open Binary64

variable {f : Fraction} {x : Binary64} {q v : ℚ}

/-! ## Order through rounding -/

namespace Binary64

/-- Rounding moves no number past a representable one. -/
lemma Representable.roundOff_lt_iff (hv : Representable v) :
    roundOff q < v ↔ q < v ∧ roundOff q ≠ v := by
  constructor
  · intro h
    exact ⟨hv.lt_of_roundOff_lt h, h.ne⟩
  · rintro ⟨hlt, hne⟩
    exact lt_of_le_of_ne (hv.roundOff_le hlt.le) hne

lemma Representable.lt_roundOff_iff (hv : Representable v) :
    v < roundOff q ↔ v < q ∧ roundOff q ≠ v := by
  constructor
  · intro h
    exact ⟨hv.lt_of_lt_roundOff h, h.ne'⟩
  · rintro ⟨hlt, hne⟩
    exact lt_of_le_of_ne (hv.le_roundOff hlt.le) hne.symm

lemma roundOff_ne_of_apart (h : |q| / 2 ^ 53 + tiny < |q - v|) : roundOff q ≠ v := by
  rintro rfl
  rw [abs_sub_comm] at h
  exact absurd h (not_lt.mpr (abs_roundOff_sub_le q))

end Binary64

namespace Relation

/-- Rounding spoils none of the relations to a representable number exactly if it does not move the
number onto it. -/
lemma holds_roundOff_iff (hv : Representable v) :
    (∀ r : Relation, r.Holds (roundOff q) v ↔ r.Holds q v) ↔ (roundOff q = v → q = v) := by
  constructor
  · intro h heq
    exact le_antisymm ((h .atMost).mp heq.le) ((h .atLeast).mp heq.ge)
  · intro h r
    have hless : roundOff q < v ↔ q < v := by
      rw [hv.roundOff_lt_iff]
      exact and_iff_left_of_imp fun hlt heq => hlt.ne (h heq)
    have hmore : v < roundOff q ↔ v < q := by
      rw [hv.lt_roundOff_iff]
      exact and_iff_left_of_imp fun hlt heq => hlt.ne' (h heq)
    cases r with
    | less => exact hless
    | atMost => exact not_lt.symm.trans ((not_congr hmore).trans not_lt)
    | more => exact hmore
    | atLeast => exact not_lt.symm.trans ((not_congr hless).trans not_lt)

end Relation

/-! ## Fractions and doubles -/

namespace Value

/-- On both sides of the double, the fraction is ordered against it as `p` is against `v`. -/
def OrderedAs (f : Fraction) (x : Binary64) (p v : ℚ) : Prop :=
  ∀ r : Relation, (Value.fraction f).holds r (.double x) = .ok (decide (r.Holds p v)) ∧
    (Value.double x).holds r (.fraction f) = .ok (decide (r.Holds v p))

/-- What the order of a fraction and a double says about the numbers. -/
structure RoundedOrder (f : Fraction) (x : Binary64) (v : ℚ) : Prop where
  /-- In the place of the fraction stands its value, the double nearest to it. -/
  rounded : |f.toRat| < 2 ^ 1024 - 2 ^ 970 → OrderedAs f x (roundOff f.toRat) v
  /-- There is no answer from the middle between the greatest double and `2 ^ 1024` on. -/
  out_of_range : 2 ^ 1024 - 2 ^ 970 ≤ |f.toRat| → ∀ r : Relation,
    (Value.fraction f).holds r (.double x) = .error .quotientTooLarge ∧
      (Value.double x).holds r (.fraction f) = .error .quotientTooLarge
  /-- The fraction is said to be less if it is, and is not rounded to the double. -/
  less_iff : |f.toRat| < 2 ^ 1024 - 2 ^ 970 →
    ((Value.fraction f).holds .less (.double x) = .ok true ↔
      f.toRat < v ∧ roundOff f.toRat ≠ v)
  /-- The fraction is said to be more if it is, and is not rounded to the double. -/
  more_iff : |f.toRat| < 2 ^ 1024 - 2 ^ 970 →
    ((Value.fraction f).holds .more (.double x) = .ok true ↔
      v < f.toRat ∧ roundOff f.toRat ≠ v)
  /-- All answers are exact if and only if there are any and the fraction is not rounded to a double
  that it differs from. -/
  exact_iff : OrderedAs f x f.toRat v ↔
    |f.toRat| < 2 ^ 1024 - 2 ^ 970 ∧ (roundOff f.toRat = v → f.toRat = v)
  /-- That is the condition under which a double with an integral value can take the place of the
  integer. -/
  integer_iff {n : ℤ} : v = n →
    ((∀ r, (Value.fraction f).holds r (.double x) = (Value.fraction f).holds r (.integer n) ∧
        (Value.double x).holds r (.fraction f) = (Value.integer n).holds r (.fraction f)) ↔
      |f.toRat| < 2 ^ 1024 - 2 ^ 970 ∧ (roundOff f.toRat = v → f.toRat = v))
  /-- All answers are exact if the two are further apart than rounding reaches. -/
  exact_of_apart : |f.toRat| < 2 ^ 1024 - 2 ^ 970 →
    |f.toRat| / 2 ^ 53 + tiny < |f.toRat - v| → OrderedAs f x f.toRat v

lemma orderedAs_roundOff (h : |f.toRat| < 2 ^ 1024 - 2 ^ 970) (hx : x.Denotes v) :
    OrderedAs f x (roundOff f.toRat) v := by
  intro r
  rw [← threshold_eq, ← abs_roundOff_lt_iff] at h
  rw [fraction_holds_double, double_holds_fraction, Fraction.holdsDouble_eq_of_lt h hx,
    Fraction.holdsDouble_eq_of_lt h hx]
  simp only [Relation.holds_flip_iff, and_self]

lemma holds_eq_error_of_le (h : 2 ^ 1024 - 2 ^ 970 ≤ |f.toRat|) (x : Binary64) (r : Relation) :
    (Value.fraction f).holds r (.double x) = .error .quotientTooLarge ∧
      (Value.double x).holds r (.fraction f) = .error .quotientTooLarge := by
  rw [← threshold_eq, ← not_lt, ← abs_roundOff_lt_iff, not_lt] at h
  rw [fraction_holds_double, double_holds_fraction]
  exact ⟨Fraction.holdsDouble_eq_error h r x, Fraction.holdsDouble_eq_error h r.flip x⟩

/-- Two numbers order a fraction and a double in the same way if they stand in the same
relations. -/
lemma OrderedAs.iff {p : ℚ} (h : OrderedAs f x p v) :
    OrderedAs f x q v ↔ ∀ r : Relation, r.Holds p v ↔ r.Holds q v := by
  constructor
  · intro hq r
    have heq := (h r).1.symm.trans (hq r).1
    rwa [Except.ok.injEq, decide_eq_decide] at heq
  · intro hiff r
    have hflip : r.Holds v p ↔ r.Holds v q := by
      rw [← r.holds_flip_iff, hiff, r.holds_flip_iff]
    rw [(h r).1, (h r).2, decide_eq_decide.mpr (hiff r), decide_eq_decide.mpr hflip]
    exact ⟨rfl, rfl⟩

/-- The answers are exact exactly if there are any and the fraction is not moved onto the double. -/
lemma orderedAs_toRat_iff (hx : x.Denotes v) : OrderedAs f x f.toRat v ↔
    |f.toRat| < 2 ^ 1024 - 2 ^ 970 ∧ (roundOff f.toRat = v → f.toRat = v) := by
  by_cases h : |f.toRat| < 2 ^ 1024 - 2 ^ 970
  · rw [(orderedAs_roundOff h hx).iff, Relation.holds_roundOff_iff hx.representable]
    exact (and_iff_right h).symm
  · refine iff_of_false (fun hexact => ?_) (fun hboth => h hboth.1)
    have herror := (holds_eq_error_of_le (not_lt.mp h) x .less).1
    rw [(hexact .less).1] at herror
    cases herror

/-- **Against a double a fraction is ordered by its rounded value**, so the answers are exact if and
only if that value exists and is the double only where the fraction itself is. -/
theorem roundedOrder_of_denotes (f : Fraction) (hx : x.Denotes v) : RoundedOrder f x v := by
  constructor
  · intro h
    exact orderedAs_roundOff h hx
  · intro h r
    exact holds_eq_error_of_le h x r
  · intro h
    rw [((orderedAs_roundOff h hx) .less).1, Except.ok.injEq, decide_eq_true_iff]
    exact hx.representable.roundOff_lt_iff
  · intro h
    rw [((orderedAs_roundOff h hx) .more).1, Except.ok.injEq, decide_eq_true_iff]
    exact hx.representable.lt_roundOff_iff
  · exact orderedAs_toRat_iff hx
  · intro n hn
    rw [← orderedAs_toRat_iff hx, OrderedAs]
    simp only [(IsRational.fraction f).holds_eq (.integer n),
      (IsRational.integer n).holds_eq (.fraction f), hn]
  · intro h hapart
    exact (orderedAs_toRat_iff hx).mpr ⟨h, fun heq => absurd heq (roundOff_ne_of_apart hapart)⟩

/-- The double `2 ^ 53` next to the integer above it. -/
theorem roundedOrder_pow_fiftyThree :
    (ofBits 0x4340000000000000).Denotes (2 ^ 53) ∧
      RoundedOrder ⟨2 ^ 53 + 1, 1, by decide⟩ (ofBits 0x4340000000000000) (2 ^ 53) := by
  have hden : (ofBits 0x4340000000000000).Denotes (2 ^ 53) :=
    denotes_of_toExtended (by decide +kernel)
  exact ⟨hden, roundedOrder_of_denotes _ hden⟩

/-- The integer above the double `2 ^ 53` is rounded onto it: it is more, but only next to the
integer `2 ^ 53` is that the answer.  Next to `2 ^ 1024` there is no answer at all. -/
theorem pow_fiftyThree_succ_not_more :
    (ofBits 0x4340000000000000).Denotes (2 ^ 53) ∧
      (2 ^ 53 : ℚ) < (⟨2 ^ 53 + 1, 1, by decide⟩ : Fraction).toRat ∧
      (Value.fraction ⟨2 ^ 53 + 1, 1, by decide⟩).holds .more
        (.double (ofBits 0x4340000000000000)) = .ok false ∧
      (Value.fraction ⟨2 ^ 53 + 1, 1, by decide⟩).holds .more (.integer (2 ^ 53)) = .ok true ∧
      (Value.fraction ⟨2 ^ 1024, 1, by decide⟩).holds .more
        (.double (ofBits 0x4340000000000000)) = .error .quotientTooLarge := by
  have hden : (ofBits 0x4340000000000000).Denotes (2 ^ 53) :=
    denotes_of_toExtended (by decide +kernel)
  have hnumber : (⟨2 ^ 53 + 1, 1, by decide⟩ : Fraction).toRat = 2 ^ 53 + 1 := by
    norm_num [Fraction.toRat]
  have hmore : (2 ^ 53 : ℚ) < (⟨2 ^ 53 + 1, 1, by decide⟩ : Fraction).toRat := by
    rw [hnumber]
    norm_num
  refine ⟨hden, hmore, ?_, ?_, ?_⟩
  · obtain ⟨y, hy, hvalue⟩ := Except.exists_of_toOption_map_eq_some (f := toExtended)
      (x := (⟨2 ^ 53 + 1, 1, by decide⟩ : Fraction).value) (b := .rational (2 ^ 53))
      (by decide +kernel)
    rw [fraction_holds_double, Fraction.holdsDouble, hy, Except.bind_ok, hvalue, hden.toExtended,
      Relation.holdsExact_rational]
    exact congrArg Except.ok (decide_eq_false (lt_irrefl _))
  · rw [(IsRational.fraction _).holds_iff (.integer _)]
    exact_mod_cast hmore
  · refine (holds_eq_error_of_le ?_ _ _).1
    have hpos : (0 : ℚ) ≤ 2 ^ 970 := by positivity
    have hlarge : (⟨2 ^ 1024, 1, by decide⟩ : Fraction).toRat = 2 ^ 1024 := by
      rw [Fraction.toRat, Int.cast_pow, Int.cast_ofNat, Int.cast_one, div_one]
    rw [hlarge, abs_of_pos (by positivity)]
    exact sub_le_self _ hpos

end Value
end Mediant
