import Mediant.Proofs.Faults
import Mediant.Proofs.LowestTerms
import Mediant.Value.Comparison

/-!
# Fractions and integers in the order of the rational numbers

Fractions are ordered by cross products and compared for equality by lowest terms, two computations
that share nothing but the lowest terms themselves.  Since these are numerator and denominator of
the rational number, both say what the rational numbers say, whatever the signs of the denominators
are and however far the fractions can be reduced.  Integers and truth values take part on either
side.

`IsRational.holds_eq` and `IsRational.equals_eq` are the two facts.  All laws of a total order
follow from them.
-/

namespace Mediant

/-! ## Relations between rational numbers -/

namespace Relation

/-- Whether two rational numbers stand in the relation. -/
def Holds : Relation → ℚ → ℚ → Prop
  | less, p, q => p < q
  | atMost, p, q => p ≤ q
  | more, p, q => q < p
  | atLeast, p, q => q ≤ p

instance : (r : Relation) → (p q : ℚ) → Decidable (r.Holds p q)
  | less, p, q => inferInstanceAs (Decidable (p < q))
  | atMost, p, q => inferInstanceAs (Decidable (p ≤ q))
  | more, p, q => inferInstanceAs (Decidable (q < p))
  | atLeast, p, q => inferInstanceAs (Decidable (q ≤ p))

variable {p q t : ℚ}

lemma holds_flip_iff (r : Relation) : r.flip.Holds p q ↔ r.Holds q p := by
  cases r <;> rfl

lemma Holds.trans {r : Relation} (hpq : r.Holds p q) (hqt : r.Holds q t) : r.Holds p t := by
  cases r with
  | less => exact lt_trans hpq hqt
  | atMost => exact le_trans hpq hqt
  | more => exact lt_trans hqt hpq
  | atLeast => exact le_trans hqt hpq

lemma holdsExact_rational (r : Relation) (p q : ℚ) :
    r.holdsExact (.rational p) (.rational q) = decide (r.Holds p q) := by
  cases r with
  | less => exact Extended.lt_rational p q
  | atMost => exact Extended.le_rational p q
  | more => exact Extended.lt_rational q p
  | atLeast => exact Extended.le_rational q p

lemma holdsInt_cross (r : Relation) (p q : ℚ) :
    r.holdsInt (p.num * q.den) (q.num * p.den) = decide (r.Holds p q) := by
  cases r with
  | less => exact decide_eq_decide.mpr (Rat.lt_iff p q).symm
  | atMost => exact decide_eq_decide.mpr (Rat.le_iff p q).symm
  | more => exact decide_eq_decide.mpr (Rat.lt_iff q p).symm
  | atLeast => exact decide_eq_decide.mpr (Rat.le_iff q p).symm

end Relation

/-! ## Fractions -/

namespace Fraction

lemma equals_eq (f g : Fraction) : f.equals g = decide (f.toRat = g.toRat) :=
  decide_eq_decide.mpr lowestTerms_inj

lemma holds_eq (f g : Fraction) (r : Relation) :
    f.holds r g = decide (r.Holds f.toRat g.toRat) := by
  rw [holds, cross, f.lowestTerms_eq_num_den, g.lowestTerms_eq_num_den]
  exact r.holdsInt_cross f.toRat g.toRat

end Fraction

/-! ## Values -/

namespace Value

/-- The value is a fraction, an integer or a truth value, and stands for the given rational
number. -/
inductive IsRational : Value → ℚ → Prop
  | fraction (f : Fraction) : IsRational (.fraction f) f.toRat
  | integer (n : ℤ) : IsRational (.integer n) n
  | boolean (b : Bool) : IsRational (.boolean b) b.toInt

variable {v w u : Value} {p q t : ℚ}

lemma isRational_fraction {f : Fraction} (h : f.toRat = q) : IsRational (.fraction f) q := by
  rw [← h]
  exact .fraction f

/-- Fractions, integers and truth values are ordered as rational numbers. -/
theorem IsRational.holds_eq (hv : v.IsRational p) (hw : w.IsRational q) (r : Relation) :
    v.holds r w = .ok (decide (r.Holds p q)) := by
  -- next to a fraction an integer is a fraction over one, and on the left the relation is flipped
  cases hv <;> cases hw <;>
    simp only [holds, holdsSimple, settled, Except.bind_ok, holdsSettled, holdsFraction, facing,
      number?, double?, integer?, Option.map_some, Extended.ofInt, Fraction.holds_eq,
      Fraction.toRat_ofInt, Relation.holdsExact_rational, Relation.holds_flip_iff]

/-- Fractions, integers and truth values are equal if they are the same rational number. -/
theorem IsRational.equals_eq (hv : v.IsRational p) (hw : w.IsRational q) :
    v.equals w = .ok (decide (p = q)) := by
  cases hv <;> cases hw <;>
    simp only [equals, equalsSimple, settled, Except.bind_ok, equalsSettled, equalsFraction, facing,
      number?, double?, integer?, Option.map_some, Extended.ofInt, Fraction.equals_eq,
      Fraction.toRat_ofInt, Extended.eq_rational, eq_comm]

lemma IsRational.holds_iff (hv : v.IsRational p) (hw : w.IsRational q) {r : Relation} :
    v.holds r w = .ok true ↔ r.Holds p q := by
  rw [hv.holds_eq hw, Except.ok.injEq, decide_eq_true_iff]

lemma IsRational.equals_iff (hv : v.IsRational p) (hw : w.IsRational q) :
    v.equals w = .ok true ↔ p = q := by
  rw [hv.equals_eq hw, Except.ok.injEq, decide_eq_true_iff]

/-! ## The order -/

/-- Two values are compared as two rational numbers are. -/
structure ComparedAs (v w : Value) (p q : ℚ) : Prop where
  less : v.holds .less w = .ok (decide (p < q))
  atMost : v.holds .atMost w = .ok (decide (p ≤ q))
  more : v.holds .more w = .ok (decide (q < p))
  atLeast : v.holds .atLeast w = .ok (decide (q ≤ p))
  equal : v.equals w = .ok (decide (p = q))

/-- The comparisons among three values are those of a total order. -/
structure TotallyOrdered (v w u : Value) : Prop where
  /-- Exactly one of less, equal and more. -/
  trichotomy :
    (v.holds .less w = .ok true ∧ v.equals w = .ok false ∧ v.holds .more w = .ok false) ∨
    (v.holds .less w = .ok false ∧ v.equals w = .ok true ∧ v.holds .more w = .ok false) ∨
    (v.holds .less w = .ok false ∧ v.equals w = .ok false ∧ v.holds .more w = .ok true)
  /-- The sides can be exchanged. -/
  mirrored (r : Relation) : w.holds r.flip v = v.holds r w
  equals_symm : w.equals v = v.equals w
  trans (r : Relation) :
    v.holds r w = .ok true → w.holds r u = .ok true → v.holds r u = .ok true
  equals_trans : v.equals w = .ok true → w.equals u = .ok true → v.equals u = .ok true
  less_of_less_of_atMost :
    v.holds .less w = .ok true → w.holds .atMost u = .ok true → v.holds .less u = .ok true
  less_of_atMost_of_less :
    v.holds .atMost w = .ok true → w.holds .less u = .ok true → v.holds .less u = .ok true
  atMost_iff : v.holds .atMost w = .ok true ↔ v.holds .less w = .ok true ∨ v.equals w = .ok true
  atLeast_iff : v.holds .atLeast w = .ok true ↔ v.holds .more w = .ok true ∨ v.equals w = .ok true
  /-- Equal values stand in the same relations. -/
  congr (r : Relation) : v.equals w = .ok true → v.holds r u = w.holds r u

lemma IsRational.comparedAs (hv : v.IsRational p) (hw : w.IsRational q) : ComparedAs v w p q :=
  ⟨hv.holds_eq hw .less, hv.holds_eq hw .atMost, hv.holds_eq hw .more, hv.holds_eq hw .atLeast,
    hv.equals_eq hw⟩

lemma ComparedAs.trichotomy (h : ComparedAs v w p q) :
    (v.holds .less w = .ok true ∧ v.equals w = .ok false ∧ v.holds .more w = .ok false) ∨
    (v.holds .less w = .ok false ∧ v.equals w = .ok true ∧ v.holds .more w = .ok false) ∨
    (v.holds .less w = .ok false ∧ v.equals w = .ok false ∧ v.holds .more w = .ok true) := by
  rw [h.less, h.equal, h.more]
  rcases lt_trichotomy p q with hlt | heq | hgt
  · left
    rw [decide_eq_true hlt, decide_eq_false hlt.ne, decide_eq_false hlt.not_gt]
    exact ⟨rfl, rfl, rfl⟩
  · right; left
    rw [decide_eq_true heq, decide_eq_false heq.not_lt, decide_eq_false heq.not_gt]
    exact ⟨rfl, rfl, rfl⟩
  · right; right
    rw [decide_eq_true hgt, decide_eq_false hgt.not_gt, decide_eq_false hgt.ne']
    exact ⟨rfl, rfl, rfl⟩

/-- **Fractions and integers are ordered as the rational numbers that they are**, on whichever side
they stand, and this order is total. -/
theorem totallyOrdered_of_isRational (hv : v.IsRational p) (hw : w.IsRational q)
    (hu : u.IsRational t) : ComparedAs v w p q ∧ TotallyOrdered v w u := by
  have hcompared := hv.comparedAs hw
  refine ⟨hcompared, ?_⟩
  constructor
  · exact hcompared.trichotomy
  · intro r
    rw [hw.holds_eq hv, hv.holds_eq hw]
    simp only [Relation.holds_flip_iff]
  · rw [hw.equals_eq hv, hv.equals_eq hw]
    simp only [eq_comm]
  · intro r hvw hwu
    rw [hv.holds_iff hw] at hvw
    rw [hw.holds_iff hu] at hwu
    exact (hv.holds_iff hu).mpr (hvw.trans hwu)
  · intro hvw hwu
    rw [hv.equals_iff hw] at hvw
    rw [hw.equals_iff hu] at hwu
    exact (hv.equals_iff hu).mpr (hvw.trans hwu)
  · intro hvw hwu
    rw [hv.holds_iff hw] at hvw
    rw [hw.holds_iff hu] at hwu
    exact (hv.holds_iff hu).mpr (lt_of_lt_of_le hvw hwu)
  · intro hvw hwu
    rw [hv.holds_iff hw] at hvw
    rw [hw.holds_iff hu] at hwu
    exact (hv.holds_iff hu).mpr (lt_of_le_of_lt hvw hwu)
  · rw [hv.holds_iff hw, hv.holds_iff hw, hv.equals_iff hw]
    exact le_iff_lt_or_eq
  · rw [hv.holds_iff hw, hv.holds_iff hw, hv.equals_iff hw]
    exact le_iff_lt_or_eq.trans (or_congr_right eq_comm)
  · intro r hvw
    rw [hv.equals_iff hw] at hvw
    rw [hv.holds_eq hu, hw.holds_eq hu, hvw]

/-- Minus one half with a negative denominator, the integer zero, and three sixths. -/
theorem halves_around_zero :
    (Value.fraction ⟨2, -4, by decide⟩).IsRational (-1 / 2) ∧ (Value.integer 0).IsRational 0 ∧
      (Value.fraction ⟨-3, -6, by decide⟩).IsRational (1 / 2) ∧
      ComparedAs (.fraction ⟨2, -4, by decide⟩) (.integer 0) (-1 / 2) 0 ∧
      TotallyOrdered (.fraction ⟨2, -4, by decide⟩) (.integer 0)
        (.fraction ⟨-3, -6, by decide⟩) := by
  have hbelow : (Value.fraction ⟨2, -4, by decide⟩).IsRational (-1 / 2) :=
    isRational_fraction (by norm_num [Fraction.toRat])
  have hzero : (Value.integer 0).IsRational 0 := by
    exact_mod_cast IsRational.integer 0
  have habove : (Value.fraction ⟨-3, -6, by decide⟩).IsRational (1 / 2) :=
    isRational_fraction (by norm_num [Fraction.toRat])
  exact ⟨hbelow, hzero, habove, totallyOrdered_of_isRational hbelow hzero habove⟩

end Value
end Mediant
