import Mediant.Proofs.Bracket.Tightening
import Mediant.Proofs.Search.Termination

/-!
# Where a search stops

For one value and one policy all searches make the same refinements, one after the other.  Precision
and ceiling only decide after how many of them a search stops: with a finer precision and a higher
ceiling it stops no earlier.

If only the ceiling is raised, a search that was not stopped by it returns what it returned before;
if only the precision is refined, a search that was stopped does.  And where a search makes more
refinements than another one, both its denominators exceed both denominators of the other.

`StopsLater` states this of two searches.
-/

namespace Mediant

open Binary64

/-! ## Results of one refinement -/

namespace Query

variable {q q' : Query ℤ} {integer : ℤ} {o : Outcome ℤ} {r r' : Approximant}

lemma Restores.unique {a : Bound ℤ} {f f' : Fraction} (hsign : q'.sign = q.sign)
    (h : q.Restores integer a f) (h' : q'.Restores integer a f') : f' = f := by
  have hnum : f'.num = f.num := by rw [h.num_eq, h'.num_eq, hsign]
  have hdenom : f'.denom = f.denom := by rw [h.denom_eq, h'.denom_eq]
  cases f
  cases f'
  simp_all

lemma Returns.unique (hsign : q'.sign = q.sign) (h : q.Returns integer o r)
    (h' : q'.Returns integer o r') : r' = r := by
  have hfraction := h.fraction.unique hsign h'.fraction
  have hlow := h.low.unique hsign h'.low
  have hiterations : r'.iterations = r.iterations := by rw [h.iterations_eq, h'.iterations_eq]
  have hoverflowed : r'.overflowed = r.overflowed := by rw [h.overflowed_eq, h'.overflowed_eq]
  cases r
  cases r'
  simp_all

/-- The larger and the smaller denominator of a result are those of the last bracket. -/
lemma Course.denoms_eq {v p : ℚ} {m : ℤ} {x : Binary64} {n : ℕ} {c : Bracket ℤ}
    (h : q.Course v p m x n c o r) :
    max r.fraction.denom r.low.denom = max c.low.denom c.high.denom ∧
      min r.fraction.denom r.low.denom = min c.low.denom c.high.denom := by
  rw [h.returns.fraction.denom_eq, h.returns.low.denom_eq]
  rcases h.stages.bracket_eq with ho | ho <;> rw [ho]
  · exact ⟨max_comm _ _, min_comm _ _⟩
  · exact ⟨rfl, rfl⟩

end Query

/-! ## Two searches for one value -/

namespace Query

/-- The query for the same value with another precision and another ceiling. -/
def withBounds (q : Query ℤ) (precision : Binary64) (ceiling : Extended) : Query ℤ :=
  { q with precision, ceiling }

/-- Queries for one value on one lattice, with one policy, differ in their bounds only. -/
lemma eq_withBounds {q q' : Query ℤ} (hvalue : q'.value = q.value) (hseed : q'.seed = q.seed)
    (hpolicy : q'.policy = q.policy) : q' = q.withBounds q'.precision q'.ceiling := by
  cases q
  cases q'
  simp_all [withBounds]

namespace Course

variable {q : Query ℤ} {y : Binary64} {e : Extended} {v p p' : ℚ} {m m' : ℤ} {x x' : Binary64}
  {n n' : ℕ} {c c' : Bracket ℤ} {o o' : Outcome ℤ} {r r' : Approximant}

lemma target_eq (h : q.Course v p m x n c o r)
    (h' : (q.withBounds y e).Course v p' m' x' n' c' o' r') : x' = x := by
  have hsplit : q.split = .ok (⌊q.operand v⌋, x') := h'.stages.split_eq
  rw [h.stages.split_eq] at hsplit
  exact (Prod.mk.inj (Except.ok.inj hsplit)).2.symm

lemma value_eq (h : q.Course v p m x n c o r)
    (h' : (q.withBounds y e).Course v p' m' x' n' c' o' r') (ho : o' = o) : r' = r := by
  subst ho
  have hsign : (q.withBounds y e).sign = q.sign := rfl
  exact h.returns.unique hsign h'.returns

lemma tightens (h : q.Course v p m x n c o r)
    (h' : (q.withBounds y e).Course v p' m' x' n' c' o' r') (hp : p' ≤ p) (hm : m ≤ m') :
    ((q.withBounds y e).goal x').Tightens (q.goal x) where
  target_eq := h.target_eq h'
  precision_le := by
    rw [Binary64.le, goal, goal, h'.admissible.precision.toExtended,
      h.admissible.precision.toExtended, Extended.le_rational]
    exact decide_eq_true hp
  ceiling_le := by
    rw [goal, goal, h.admissible.ceiling, h'.admissible.ceiling, Extended.le_rational]
    exact decide_eq_true (by exact_mod_cast hm)

/-- The search that asks for more goes on where the other one stops. -/
lemma exists_rest (h : q.Course v p m x n c o r)
    (h' : (q.withBounds y e).Course v p' m' x' n' c' o' r') (hp : p' ≤ p) (hm : m ≤ m') :
    ∃ j, n' = n + j ∧ c.Reaches ((q.withBounds y e).goal x') j c' :=
  (h.tightens h' hp hm).exists_reaches h.reaches h'.reaches h'.stages.ends

lemma iterations_le (h : q.Course v p m x n c o r)
    (h' : (q.withBounds y e).Course v p' m' x' n' c' o' r') (hp : p' ≤ p) (hm : m ≤ m') :
    r.iterations ≤ r'.iterations := by
  obtain ⟨j, rfl, -⟩ := h.exists_rest h' hp hm
  rw [h.two_pow_mul_lt.1, h'.two_pow_mul_lt.1]
  exact_mod_cast Nat.le_add_right n j

/-- A higher ceiling changes nothing for a search that was not stopped. -/
lemma value_eq_of_not_overflowed (h : q.Course v p m x n c o r)
    (h' : (q.withBounds y e).Course v p m' x' n' c' o' r') (hm : m ≤ m')
    (hover : r.overflowed = false) : r' = r := by
  have htight := h.tightens h' le_rfl hm
  have hprecision : ((q.withBounds y e).goal x').precision.toExtended =
      (q.goal x).precision.toExtended := by
    rw [goal, goal, h.admissible.precision.toExtended, h'.admissible.precision.toExtended]
  rw [h.returns.overflowed_eq] at hover
  have hends := htight.ends_of_not_overflowed hprecision h.stages.ends hover
  exact h.value_eq h' (htight.outcome_eq h.reaches hends h'.reaches h'.stages.ends)

/-- A finer precision changes nothing for a search that was stopped. -/
lemma value_eq_of_overflowed (h : q.Course v p m x n c o r)
    (h' : (q.withBounds y e).Course v p' m x' n' c' o' r') (hp : p' ≤ p)
    (hover : r.overflowed = true) : r' = r := by
  have htight := h.tightens h' hp le_rfl
  have hceiling : ((q.withBounds y e).goal x').ceiling = (q.goal x).ceiling := by
    rw [goal, goal, h.admissible.ceiling, h'.admissible.ceiling]
  rw [h.returns.overflowed_eq] at hover
  have hends := htight.ends_of_overflowed hceiling h.stages.ends hover
  exact h.value_eq h' (htight.outcome_eq h.reaches hends h'.reaches h'.stages.ends)

/-- More refinements make both denominators larger than both were. -/
lemma denoms_lt (h : q.Course v p m x n c o r)
    (h' : (q.withBounds y e).Course v p' m' x' n' c' o' r') (hp : p' ≤ p) (hm : m ≤ m')
    (hlt : r.iterations < r'.iterations) :
    max r.fraction.denom r.low.denom < min r'.fraction.denom r'.low.denom := by
  obtain ⟨j, rfl, hrest⟩ := h.exists_rest h' hp hm
  rw [h.two_pow_mul_lt.1, h'.two_pow_mul_lt.1] at hlt
  have hj : j ≠ 0 := by
    rintro rfl
    exact lt_irrefl _ hlt
  -- the last bracket of the first search is also one on the way of the second
  have hstart := h'.start.reached ((h.tightens h' hp hm).reaches h.reaches)
  rw [h.denoms_eq.1, h'.denoms_eq.2]
  exact hstart.denoms_lt hrest hj

end Course
end Query

/-! ## The law -/

/-- Of two searches for one value, the one with the precision `p'` and the ceiling `m'` stops later
than the one with `p` and `m`, if it does not return the same. -/
structure StopsLater (s : Settings) (a a' : Arguments) (p p' : ℚ) (m m' : ℤ) : Prop where
  exists_search : ∃ r, search s false a = .ok r
  exists_search' : ∃ r', search s false a' = .ok r'
  iterations_le {strict strict' : Bool} {r r' : Reported Approximant} :
    search s strict a = .ok r → search s strict' a' = .ok r' →
      r.value.iterations ≤ r'.value.iterations
  value_eq_of_not_overflowed {strict strict' : Bool} {r r' : Reported Approximant} :
    search s strict a = .ok r → search s strict' a' = .ok r' → p' = p →
      r.value.overflowed = false → r'.value = r.value
  value_eq_of_overflowed {strict strict' : Bool} {r r' : Reported Approximant} :
    search s strict a = .ok r → search s strict' a' = .ok r' → m' = m →
      r.value.overflowed = true → r'.value = r.value
  /-- Both denominators of the one that refines further are larger than both of the other. -/
  denoms_lt {strict strict' : Bool} {r r' : Reported Approximant} :
    search s strict a = .ok r → search s strict' a' = .ok r' →
      r.value.iterations < r'.value.iterations →
      max r.value.fraction.denom r.value.low.denom < min r'.value.fraction.denom r'.value.low.denom

/-- The courses of two searches for one value, the second in terms of the query of the first. -/
lemma exists_courses {flag strict strict' : Bool} {a a' : Arguments} {v p p' : ℚ} {m m' : ℤ}
    {policy : Splitting} {r r' : Reported Approximant} (hvalue : a'.value = a.value)
    (ha : a.Accepted (.rational leastPrecision) v p m policy)
    (ha' : a'.Accepted (.rational leastPrecision) v p' m' policy)
    (hr : search { warnOnOverflow := .boolean flag } strict a = .ok r)
    (hr' : search { warnOnOverflow := .boolean flag } strict' a' = .ok r') :
    ∃ q x n c o, Query.Course q v p m x n c o r.value ∧
      ∃ y e x' n' c' o', (q.withBounds y e).Course v p' m' x' n' c' o' r'.value := by
  have hpos : ∀ {b : Arguments} {p : ℚ} {m : ℤ},
      b.Accepted (.rational leastPrecision) v p m policy → 0 < p :=
    fun hb => leastPrecision_pos.trans_le hb.leastPrecision_le
  obtain ⟨q, x, n, c, o, hpolicy, hq, h⟩ :=
    exists_course ⟨rfl, rfl⟩ isNumber_leastPrecision ha (hpos ha) hr
  obtain ⟨q', x', n', c', o', hpolicy', hq', h'⟩ :=
    exists_course ⟨rfl, rfl⟩ isNumber_leastPrecision ha' (hpos ha') hr'
  rw [hvalue, hq] at hq'
  have hseed : q'.seed = q.seed := by rw [h.admissible.seed_eq, h'.admissible.seed_eq]
  have heq := Query.eq_withBounds (Except.ok.inj hq').symm hseed (hpolicy'.trans hpolicy.symm)
  rw [heq] at h'
  exact ⟨q, x, n, c, o, h, _, _, x', n', c', o', h'⟩

/-- **Precision and ceiling only decide where one common run stops.** -/
theorem stopsLater_of_accepted {flag : Bool} {a a' : Arguments} {v p p' : ℚ} {m m' : ℤ}
    {policy : Splitting} (ha : a.Accepted (.rational leastPrecision) v p m policy)
    (ha' : a'.Accepted (.rational leastPrecision) v p' m' policy) (hvalue : a'.value = a.value)
    (hp : p' ≤ p) (hm : m ≤ m') :
    StopsLater { warnOnOverflow := .boolean flag } a a' p p' m m' := by
  refine ⟨ha.exists_search flag, ha'.exists_search flag, ?_, ?_, ?_, ?_⟩
  · intro strict strict' r r' hr hr'
    obtain ⟨q, x, n, c, o, h, y, e, x', n', c', o', h'⟩ := exists_courses hvalue ha ha' hr hr'
    exact h.iterations_le h' hp hm
  · rintro strict strict' r r' hr hr' rfl hover
    obtain ⟨q, x, n, c, o, h, y, e, x', n', c', o', h'⟩ := exists_courses hvalue ha ha' hr hr'
    exact h.value_eq_of_not_overflowed h' hm hover
  · rintro strict strict' r r' hr hr' rfl hover
    obtain ⟨q, x, n, c, o, h, y, e, x', n', c', o', h'⟩ := exists_courses hvalue ha ha' hr hr'
    exact h.value_eq_of_overflowed h' hp hover
  · intro strict strict' r r' hr hr' hlt
    obtain ⟨q, x, n, c, o, h, y, e, x', n', c', o', h'⟩ := exists_courses hvalue ha ha' hr hr'
    exact h.denoms_lt h' hp hm hlt

/-- A ceiling of a hundred thousand stops the search for the double nearest to `-π` before one of
`10 ^ 12` would. -/
theorem stopsLater_negPi :
    (Arguments.negPi 100000 .truncate).Accepted (.rational leastPrecision) negPi (1 / 2 ^ 40)
        100000 .truncate ∧
      (Arguments.negPi 1000000000000 .truncate).Accepted (.rational leastPrecision) negPi
        (1 / 2 ^ 40) 1000000000000 .truncate ∧
      StopsLater { warnOnOverflow := .boolean true } (.negPi 100000 .truncate)
        (.negPi 1000000000000 .truncate) (1 / 2 ^ 40) (1 / 2 ^ 40) 100000 1000000000000 := by
  have ha := accepted_negPi 100000 .truncate (by norm_num) (by norm_num)
  have ha' := accepted_negPi 1000000000000 .truncate (by norm_num) (by norm_num)
  exact ⟨ha, ha', stopsLater_of_accepted ha ha' rfl le_rfl (by norm_num)⟩

end Mediant
