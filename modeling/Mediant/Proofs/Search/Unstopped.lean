import Mediant.Proofs.Bracket.Coarse
import Mediant.Proofs.Search.Termination

/-!
# Searches that no ceiling stops

With a precision of at least `10 ^ (-11)` no ceiling from `2 ^ 53` on stops a search, whatever the
value is, and nobody is warned.  Both denominators are at most `10000 / p` for the precision `p`, or
equal to the seed.

The ceiling may be of any size here, beyond the range of doubles too.  The search is compared with
the one under the ceiling `2 ^ 53`, which refines the same cell and is not stopped; a value from
`2 ^ 53` on would be refused there, but its refinement can still be run.
-/

namespace Mediant

open Binary64

namespace Query

variable {q : Query ℤ} {v p : ℚ}

/-- The refinement of a query with a coarse precision is not stopped. -/
theorem Posed.exists_unstopped (h : q.Posed v p) (hp : coarsePrecision ≤ p)
    (hceiling : (Extended.rational ((2 ^ 53 : ℤ) : ℚ)).le q.ceiling = true) :
    ∃ integer o, q.refine = .ok (integer, o) ∧ o.Unstopped (max 2310 (10000 / p)) := by
  obtain ⟨x, hsplit, hx⟩ := h.exists_split_eq
  have hstart := h.start (m := 2 ^ 53) hx (by norm_num) (by norm_num)
  obtain ⟨o, hrun, ho⟩ := hstart.exists_unstopped hp (by norm_num)
  have htight : (q.goal x).Tightens ⟨x, q.precision, .rational ((2 ^ 53 : ℤ) : ℚ)⟩ := by
    refine ⟨rfl, ?_, hceiling⟩
    exact (h.precision.le h.precision).trans (decide_eq_true le_rfl)
  have hrun' := htight.run_eq rfl hrun ho.overflowed_eq
  rw [← h.seed_eq] at hrun'
  exact ⟨_, o, refine_eq_ok hsplit (h.cell hx) hrun', ho⟩

end Query

/-- **No ceiling from `2 ^ 53` on stops a search with a precision of at least `10 ^ (-11)`.**  Its
denominators are small, and every caller gets the same result, without a warning. -/
theorem exists_search_of_coarse {warn : Value} {a : Arguments} {v p : ℚ} {m : ℤ}
    {policy : Splitting} (ha : a.Checked (.rational leastPrecision) v p m policy)
    (hp : coarsePrecision ≤ p) (hm : 2 ^ 53 ≤ m) :
    ∃ r : Approximant, (∀ strict, search { warnOnOverflow := warn } strict a = .ok ⟨r, []⟩) ∧
      r.overflowed = false ∧ (r.fraction.denom : ℚ) ≤ max 2310 (10000 / p) ∧
      (r.low.denom : ℚ) ≤ max 2310 (10000 / p) := by
  obtain ⟨x, y, -, hx, hy, hquery⟩ :=
    exists_query_eq_ok (s := { warnOnOverflow := warn }) ⟨rfl, rfl⟩ isNumber_leastPrecision ha
  have hposed : Query.Posed ⟨x, y, .rational m, (2310 : ℤ), policy⟩ v p :=
    ⟨hx, hy, coarsePrecision_pos.trans_le hp, rfl⟩
  have hceiling : (Extended.rational ((2 ^ 53 : ℤ) : ℚ)).le (.rational m) = true := by
    rw [Extended.le_rational]
    exact decide_eq_true (by exact_mod_cast hm)
  obtain ⟨integer, o, hrefine, ho⟩ := hposed.exists_unstopped hp hceiling
  obtain ⟨r, hr⟩ : ∃ r, Query.result ⟨x, y, .rational m, (2310 : ℤ), policy⟩ integer o = .ok r :=
    Query.exists_result_eq_ok ho.sized.high.denom_ne_zero ho.sized.low.denom_ne_zero
  have hreturns := Query.returns_of_result_eq_ok hr
  refine ⟨r, ?_, ?_, ?_, ?_⟩
  · intro strict
    refine (search_eq_ok_iff rfl).mpr ⟨_, _, hquery, integer, o, hrefine, ?_, hr⟩
    rw [overflowWarnings, ho.overflowed_eq]
    rfl
  · rw [hreturns.overflowed_eq, ho.overflowed_eq]
  · rw [hreturns.fraction.denom_eq]
    exact ho.denoms.high
  · rw [hreturns.low.denom_eq]
    exact ho.denoms.low

/-- The arguments of a search for the double nearest to `-π`, floored, with a precision of
`2 ^ (-30)` and a ceiling far beyond 64 bits. -/
def Arguments.coarseNegPi : Arguments :=
  { Arguments.negPi (10 ^ 30) .floor with precision := .double (.ofBits 0x3E10000000000000) }

theorem exists_search_negPi_of_coarse :
    Arguments.coarseNegPi.Checked (.rational leastPrecision) negPi (1 / 2 ^ 30) (10 ^ 30) .floor ∧
      coarsePrecision ≤ 1 / 2 ^ 30 ∧ (2 ^ 53 : ℤ) ≤ 10 ^ 30 ∧
      ∃ r : Approximant, (∀ strict, search {} strict Arguments.coarseNegPi = .ok ⟨r, []⟩) ∧
        r.overflowed = false ∧ (r.fraction.denom : ℚ) ≤ max 2310 (10000 / (1 / 2 ^ 30)) ∧
        (r.low.denom : ℚ) ≤ max 2310 (10000 / (1 / 2 ^ 30)) := by
  have hprecision : (ofBits 0x3E10000000000000).Denotes (1 / 2 ^ 30) :=
    denotes_of_toExtended (by decide +kernel)
  have hcoarse : coarsePrecision ≤ 1 / 2 ^ 30 := hprecision.representable.roundOff_le (by norm_num)
  have hleast : leastPrecision ≤ 1 / 2 ^ 30 := hprecision.representable.roundOff_le (by norm_num)
  have hvalue := accepted_negPi 2311 .floor (by norm_num) (by norm_num)
  have hlt : |negPi| < ((10 ^ 30 : ℤ) : ℚ) := hvalue.abs_value_lt.trans (by norm_num)
  have ha : Arguments.coarseNegPi.Checked (.rational leastPrecision) negPi (1 / 2 ^ 30) (10 ^ 30)
      .floor := by
    refine ⟨hvalue.value, ⟨_, rfl, hprecision⟩, ?_, .asked (.integer (10 ^ 30)), by norm_num, hlt,
      rfl⟩
    rw [Extended.lt_rational, decide_eq_false_iff_not, not_lt]
    exact hleast
  exact ⟨ha, hcoarse, by norm_num, exists_search_of_coarse ha hcoarse (by norm_num)⟩

end Mediant
