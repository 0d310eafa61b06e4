import Mediant.Proofs.Bracket.Step
import Mediant.Proofs.LowestTerms
import Mediant.Proofs.Search.Checks
import Mediant.Proofs.Search.Stages

/-!
# The two fractions of a result

The answer of a search and the other bound of its last bracket are neighbours: the difference of
the two is the seed over the product of their denominators, exactly, and both lie in the cell of
the lattice in which the search began.  None of this depends on what the doubles are that decide
the direction and the length of a step; it needs only that no step adds a negative number of copies.

`Neighbours` states these facts about a result, and `neighbours_of_search` proves them of every
search that returns.
-/

namespace Mediant

open Binary64

/-! ## Along a run -/

namespace Bracket

variable {goal : Goal} {p : ℚ} {seed : ℤ} {b c d : Bracket ℤ} {n : ℕ}

/-- A refinement of a regular bracket is regular and lies within it. -/
lemma Regular.of_refined (hs : 0 < seed) (hp : goal.precision.Denotes p) (hpos : 0 < p)
    (hc : c.Regular seed) (h : c.step goal = .ok (.refined d)) : d.Regular seed ∧ d.Within c := by
  obtain ⟨k, hk, rfl | rfl⟩ := exists_refine_of_step_eq_refined hp hpos h
  · exact ⟨hc.refineHigh hs hk, hc.refineHigh_within hs hk⟩
  · exact ⟨hc.refineLow hs hk, hc.refineLow_within hs hk⟩

lemma Regular.reached (hs : 0 < seed) (hp : goal.precision.Denotes p) (hpos : 0 < p)
    (hb : b.Regular seed) (h : b.Reaches goal n c) : c.Regular seed ∧ c.Within b := by
  induction h with
  | start => exact ⟨hb, .refl b⟩
  | step _ hstep ih =>
    obtain ⟨hreg, hwithin⟩ := ih.1.of_refined hs hp hpos hstep
    exact ⟨hreg, hwithin.trans ih.2⟩

lemma determinant_swap (b : Bracket ℤ) : b.swap.determinant = -b.determinant := by
  simp only [determinant, swap]
  ring

end Bracket

/-! ## Results -/

/-- The bound lies in a closed cell of the lattice. -/
def Bound.InCell (seed k : ℤ) (x : Bound ℤ) : Prop :=
  (k / seed : ℚ) ≤ x.toRat ∧ x.toRat ≤ (k + 1) / seed

/-- Within a cell, both bounds lie in the cell. -/
lemma Bracket.Regular.inCell {seed k : ℤ} {c : Bracket ℤ} (h : c.Regular seed) (hs : 0 < seed)
    (hwithin : c.Within (.cell seed k)) : c.low.InCell seed k ∧ c.high.InCell seed k := by
  have hlt := (h.low_lt_high hs).le
  have hlow : (k / seed : ℚ) ≤ c.low.toRat := hwithin.low_le
  have hhigh : c.high.toRat ≤ ((k + 1 : ℤ) / seed : ℚ) := hwithin.le_high
  rw [Int.cast_add, Int.cast_one] at hhigh
  exact ⟨⟨hlow, hlt.trans hhigh⟩, hlow.trans hlt, hhigh⟩

lemma gcd_dvd_of_determinant {a b c d n : ℤ} (h : |a * d - c * b| = n) :
    (Int.gcd a b : ℤ) ∣ n ∧ (Int.gcd c d : ℤ) ∣ n := by
  rw [← h, dvd_abs, dvd_abs]
  exact ⟨dvd_sub ((Int.gcd_dvd_left ..).mul_right d) ((Int.gcd_dvd_right ..).mul_left c),
    dvd_sub ((Int.gcd_dvd_right ..).mul_left a) ((Int.gcd_dvd_left ..).mul_right b)⟩

/-- The two fractions of a result are neighbours on the lattice of the seed. -/
structure Neighbours (s : Settings) (strict : Bool) (a : Arguments) (r : Reported Approximant) :
    Prop where
  fraction_denom : 2310 ≤ r.value.fraction.denom
  low_denom : 2310 ≤ r.value.low.denom
  determinant : |r.value.fraction.num * r.value.low.denom -
    r.value.low.num * r.value.fraction.denom| = 2310
  fraction_gcd : (Int.gcd r.value.fraction.num r.value.fraction.denom : ℤ) ∣ 2310
  low_gcd : (Int.gcd r.value.low.num r.value.low.denom : ℤ) ∣ 2310
  /-- In lowest terms the denominator is divided by a divisor of the seed. -/
  pair : ∃ g : ℤ, g ∣ 2310 ∧ nearbyPair s strict a =
    .ok ⟨(r.value.fraction.num / g, r.value.fraction.denom / g), r.warnings⟩
  /-- Without sign and integer part, both fractions lie in the cell of the remainder, and each
  bracket on the way lies within the one before. -/
  stages : ∃ q bound, a.query s = .ok (q, bound) ∧ ∃ integer remainder k n c o,
    (q.withSeed 2310).Stages integer remainder k n c o ∧
    (q.withSeed 2310).Returns integer o r.value ∧
    o.bracket.high.InCell 2310 k ∧ o.bracket.low.InCell 2310 k ∧
    ∀ i d e, (Bracket.cell 2310 k).Reaches (q.goal remainder) i d →
      d.step (q.goal remainder) = .ok (.refined e) → e.Within d

namespace Query

variable {q : Query ℤ} {integer k : ℤ} {remainder : Binary64} {n : ℕ} {c : Bracket ℤ}
  {o : Outcome ℤ} {r : Approximant}

lemma Returns.determinant_eq (h : q.Returns integer o r) :
    r.fraction.num * r.low.denom - r.low.num * r.fraction.denom =
      q.sign * o.bracket.determinant := by
  rw [h.fraction.num_eq, h.fraction.denom_eq, h.low.num_eq, h.low.denom_eq, Bracket.determinant]
  ring

end Query

/-- **Every search that returns, returns neighbours.** -/
theorem neighbours_of_search {warn ceiling : Value} {strict : Bool} {a : Arguments}
    {r : Reported Approximant}
    (h : search { warnOnOverflow := warn, ceiling := ceiling } strict a = .ok r) :
    Neighbours { warnOnOverflow := warn, ceiling := ceiling } strict a r := by
  obtain ⟨q, bound, hquery, integer, o, hrefine, hreturns⟩ := exists_query_of_search_eq_ok rfl h
  obtain ⟨p, hp, hple⟩ := exists_denotes_precision rfl hquery
  have hpos := leastPrecision_pos.trans_le hple
  obtain ⟨remainder, k, n, c, hstages⟩ := Query.exists_stages_of_refine_eq_ok hrefine
  have hcell := Bracket.regular_cell 2310 k
  obtain ⟨hreg, hwithin⟩ := hcell.reached (by norm_num) hp hpos hstages.reaches
  obtain ⟨hlow, hhigh⟩ := hreg.inCell (by norm_num) hwithin
  have hcells := hstages.forall_bounds hlow hhigh
  have hdet : |o.bracket.determinant| = 2310 := by
    rcases hstages.bracket_eq with ho | ho
    · rw [ho, hreg.determinant_eq]
      rfl
    · rw [ho, Bracket.determinant_swap, hreg.determinant_eq]
      rfl
  have hneighbours : |r.value.fraction.num * r.value.low.denom -
      r.value.low.num * r.value.fraction.denom| = 2310 := by
    rw [hreturns.determinant_eq, abs_mul, Query.abs_sign, one_mul, hdet]
  have hdenoms : 2310 ≤ o.bracket.high.denom ∧ 2310 ≤ o.bracket.low.denom :=
    hstages.forall_bounds (P := fun x => 2310 ≤ x.denom) hreg.seed_le_low hreg.seed_le_high
  rw [← hreturns.fraction.denom_eq, ← hreturns.low.denom_eq] at hdenoms
  obtain ⟨hgcd, hgcdlow⟩ := gcd_dvd_of_determinant hneighbours
  refine ⟨hdenoms.1, hdenoms.2, hneighbours, hgcd, hgcdlow, ⟨_, hgcd, ?_⟩, q, bound, hquery,
    integer, remainder, k, n, c, o, hstages, hreturns, hcells.1, hcells.2, ?_⟩
  · rw [nearbyPair, nearbyFraction, h, ← Fraction.lowestTerms_eq (by omega)]
    rfl
  · intro i d e hd he
    have hreg := (hcell.reached (by norm_num) hp hpos hd).1
    exact (hreg.of_refined (by norm_num) hp hpos he).2

/-- The search for the double nearest to `-π`, floored, returns neighbours after nine
refinements. -/
theorem neighbours_of_search_negPi :
    ∃ r, search {} false (.negPi 1000000000000 .floor) = .ok r ∧ r.value.iterations = 9 ∧
      Neighbours {} false (.negPi 1000000000000 .floor) r := by
  obtain ⟨r, hr, hiterations⟩ := Except.exists_of_toOption_map_eq_some
    (x := search {} false (.negPi 1000000000000 .floor)) (f := (·.value.iterations)) (b := 9)
    (by decide +kernel)
  exact ⟨r, hr, hiterations, neighbours_of_search hr⟩

end Mediant
