import Mediant.Proofs.Bracket.Ceiling
import Mediant.Proofs.Search.Termination

/-!
# How far a ceiling holds

No denominator of a search reaches the ceiling, neither in the result nor on the way, as long as the
ceiling is at most `2 ^ 54`.  A larger ceiling is guarded by an estimate that may be too small by a
few units in its last place.  Then a denominator can reach the ceiling, and also pass it, though by
less than one part in `2 ^ 50`; `denom_eq_ceiling` is a search whose answer does.

`UnderCeiling` states this of a search, through `Capped` for each denominator.
-/

namespace Mediant

open Binary64

namespace Query.Course

variable {q : Query ℤ} {v p : ℚ} {m : ℤ} {x : Binary64} {n : ℕ} {c : Bracket ℤ} {o : Outcome ℤ}
  {r : Approximant}

/-- The denominators of the two fractions are those of the last bracket. -/
lemma capped (h : q.Course v p m x n c o r) :
    Capped m r.fraction.denom ∧ Capped m r.low.denom := by
  obtain ⟨hlow, hhigh⟩ :=
    Bracket.capped_of_reached h.start (by norm_num) h.admissible.seed_lt h.reaches
  have hbounds := h.stages.forall_bounds (P := fun a => Capped m a.denom) hlow hhigh
  rw [h.returns.fraction.denom_eq, h.returns.low.denom_eq]
  exact hbounds

end Query.Course

/-- A search whose denominators are under the ceiling, from the first bracket to the result. -/
structure UnderCeiling (s : Settings) (a : Arguments) (m : ℤ) : Prop where
  exists_search : ∃ r, search s false a = .ok r
  result {strict : Bool} {r : Reported Approximant} : search s strict a = .ok r →
    Capped m r.value.fraction.denom ∧ Capped m r.value.low.denom
  /-- Beyond `2 ^ 54` they may exceed the ceiling, by some units in the last place of a double. -/
  result_le {strict : Bool} {r : Reported Approximant} : search s strict a = .ok r →
    r.value.fraction.denom ≤ m + 2 ^ 12 ∧ r.value.low.denom ≤ m + 2 ^ 12
  /-- So is every bracket that the refinement of the remainder's cell reaches. -/
  stages : ∃ q bound integer remainder k, a.query s = .ok (q, bound) ∧
    (q.withSeed (2310 : ℤ)).split = .ok (integer, remainder) ∧
    (q.withSeed (2310 : ℤ)).Cell remainder k ∧
    ∀ n c, (Bracket.cell 2310 k).Reaches (q.goal remainder) n c →
      Capped m c.low.denom ∧ Capped m c.high.denom

/-- **A ceiling of at most `2 ^ 54` bounds all denominators, and a larger one nearly does.** -/
theorem underCeiling_of_accepted {flag : Bool} {a : Arguments} {v p : ℚ} {m : ℤ}
    {policy : Splitting} (ha : a.Accepted (.rational leastPrecision) v p m policy) :
    UnderCeiling { warnOnOverflow := .boolean flag } a m := by
  have hs : Settings.Standard { warnOnOverflow := .boolean flag } := ⟨rfl, rfl⟩
  have hcapped : ∀ {strict r}, search { warnOnOverflow := .boolean flag } strict a = .ok r →
      Capped m r.value.fraction.denom ∧ Capped m r.value.low.denom := by
    intro strict r hr
    obtain ⟨q, t, n, c, o, -, h⟩ := ha.exists_course hr
    exact h.capped
  refine ⟨ha.exists_search flag, hcapped, ?_, ?_⟩
  · intro strict r hr
    obtain ⟨hfraction, hlow⟩ := hcapped hr
    exact ⟨hfraction.le_add ha.ceiling_le, hlow.le_add ha.ceiling_le⟩
  · obtain ⟨q, hquery, hq, -, -⟩ := exists_admissible hs isNumber_leastPrecision ha
      (leastPrecision_pos.trans_le ha.leastPrecision_le)
    obtain ⟨x, hsplit, hx⟩ := hq.exists_split_eq
    refine ⟨q, _, _, x, _, hquery, hsplit, hq.cell hx, ?_⟩
    intro n c hreach
    exact Bracket.capped_of_reached (hq.start hx) (by norm_num) hq.seed_lt hreach

/-- A ceiling of a hundred thousand stops the search for the double nearest to `-π`, floored. -/
theorem underCeiling_negPi :
    (Arguments.negPi 100000 .floor).Accepted (.rational leastPrecision) negPi (1 / 2 ^ 40)
        100000 .floor ∧
      UnderCeiling { warnOnOverflow := .boolean true } (.negPi 100000 .floor) 100000 ∧
      ∃ r, search {} false (.negPi 100000 .floor) = .ok r ∧ r.value.overflowed = true := by
  have ha := accepted_negPi 100000 .floor (by norm_num) (by norm_num)
  refine ⟨ha, underCeiling_of_accepted ha, ?_⟩
  exact Except.exists_of_toOption_map_eq_some (x := search {} false (.negPi 100000 .floor))
    (f := (·.value.overflowed)) (b := true) (by decide +kernel)

/-- The double nearest to `1.3 * 10 ^ (-13)`, with the default precision, under a ceiling that is a
multiple of the seed beyond `2 ^ 54`. -/
def Arguments.nearCeiling : Arguments where
  value := .double (quotient 13 100000000000000)
  ceiling := .integer 30030769230769230

/-- A denominator can be as large as the ceiling.  The last refinement makes it: its estimate is the
double next below the denominator. -/
theorem denom_eq_ceiling : ∃ r, search {} false .nearCeiling = .ok r ∧
    r.value.overflowed = false ∧ r.value.fraction.denom = 30030769230769230 := by
  obtain ⟨r, hr, hfields⟩ := Except.exists_of_toOption_map_eq_some
    (x := search {} false .nearCeiling)
    (f := fun r => (r.value.overflowed, r.value.fraction.denom))
    (b := (false, 30030769230769230)) (by decide +kernel)
  obtain ⟨hover, hdenom⟩ := Prod.mk.inj hfields
  exact ⟨r, hr, hover, hdenom⟩

end Mediant
