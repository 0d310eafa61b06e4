import Mediant.Approximation
import Mediant.Proofs.Bracket.Regular
import Mediant.Proofs.Bracket.Run
import Mediant.Proofs.Numbers

/-!
# The stages of a search

A search that returns has passed through a fixed sequence of stages: its arguments became a query,
the value was split, the remainder was found in a cell of the starting lattice, that cell was
refined to a last bracket, and the bounds of the last bracket were put back on the integer part.
`Query.Stages` and `Query.Restores` name what came out of each stage, and the lemmas here take a
search apart into them and put it together again.
-/

namespace Mediant

/-! ## The refinement -/

namespace Query

variable {q : Query ℤ} {integer k : ℤ} {remainder : Binary64} {n : ℕ} {c : Bracket ℤ}
  {o : Outcome ℤ}

/-- The number of the cell that holds a remainder, as computed in doubles. -/
def Cell (q : Query ℤ) (remainder : Binary64) (k : ℤ) : Prop :=
  ∃ d, Mediant.toDouble q.seed = .ok d ∧
    (remainder.mul d).toInteger Binary64.Finite.floor = .ok k

/-- What came out of the stages of a refinement: an integer part and a remainder, the cell of the
remainder, a last bracket after some number of refinements, and an outcome. -/
structure Stages (q : Query ℤ) (integer : ℤ) (remainder : Binary64) (k : ℤ) (n : ℕ)
    (c : Bracket ℤ) (o : Outcome ℤ) : Prop where
  split_eq : q.split = .ok (integer, remainder)
  cell : q.Cell remainder k
  reaches : (Bracket.cell q.seed k).Reaches (q.goal remainder) n c
  ends : c.Ends (q.goal remainder) n o

lemma start_eq_ok_iff {b : Bracket ℤ} :
    q.start remainder = .ok b ↔ ∃ k, q.Cell remainder k ∧ b = .cell q.seed k := by
  unfold start
  rw [Denominator.toDouble_int]
  constructor
  · intro h
    obtain ⟨d, hd, h⟩ := Except.bind_eq_ok.mp h
    obtain ⟨k, hk, h⟩ := Except.bind_eq_ok.mp h
    exact ⟨k, ⟨d, hd, hk⟩, (Except.ok.inj h).symm⟩
  · rintro ⟨k, ⟨d, hd, hk⟩, rfl⟩
    rw [hd, Except.bind_ok]
    dsimp only
    rw [hk, Except.bind_ok, Except.pure_eq]

lemma exists_stages_of_refine_eq_ok (h : q.refine = .ok (integer, o)) :
    ∃ remainder k n c, q.Stages integer remainder k n c o := by
  unfold refine at h
  obtain ⟨⟨i, x⟩, hsplit, h⟩ := Except.bind_eq_ok.mp h
  obtain ⟨b, hstart, h⟩ := Except.bind_eq_ok.mp h
  obtain ⟨o', hrun, h⟩ := Except.bind_eq_ok.mp h
  obtain ⟨rfl, rfl⟩ := Prod.mk.inj (Except.ok.inj h)
  obtain ⟨k, hcell, rfl⟩ := start_eq_ok_iff.mp hstart
  obtain ⟨n, c, hreach, hends⟩ := Bracket.exists_reaches_of_run_eq_ok hrun
  rw [Nat.zero_add] at hends
  exact ⟨x, k, n, c, hsplit, hcell, hreach, hends⟩

/-- The stages of a refinement, one after the other. -/
lemma refine_eq_ok (hsplit : q.split = .ok (integer, remainder)) (hcell : q.Cell remainder k)
    (hrun : (Bracket.cell q.seed k).run (q.goal remainder) 0 stepLimit = .ok o) :
    q.refine = .ok (integer, o) := by
  rw [refine, hsplit, Except.bind_ok]
  dsimp only
  rw [start_eq_ok_iff.mpr ⟨k, hcell, rfl⟩, Except.bind_ok, hrun, Except.bind_ok, Except.pure_eq]

/-- The last bracket, with the answer as its upper bound, is the outcome. -/
lemma Stages.bracket_eq (h : q.Stages integer remainder k n c o) :
    o.bracket = c ∨ o.bracket = c.swap := by
  cases h.ends with
  | hitHigh => exact .inl rfl
  | hitLow => exact .inr rfl
  | blocked => exact .inl rfl

/-- What holds of both bounds of the last bracket holds of both bounds of the outcome. -/
lemma Stages.forall_bounds {P : Bound ℤ → Prop} (h : q.Stages integer remainder k n c o)
    (hlow : P c.low) (hhigh : P c.high) : P o.bracket.high ∧ P o.bracket.low := by
  rcases h.bracket_eq with ho | ho
  · rw [ho]
    exact ⟨hhigh, hlow⟩
  · rw [ho]
    exact ⟨hlow, hhigh⟩

lemma Stages.iterations_eq (h : q.Stages integer remainder k n c o) : o.iterations = n := by
  cases h.ends <;> rfl

/-! ## The result -/

/-- The factor that puts the sign of the value back. -/
def sign (q : Query ℤ) : ℤ := if q.negated then -1 else 1

lemma sign_cases (q : Query ℤ) : q.sign = 1 ∨ q.sign = -1 := by
  unfold sign
  split
  · exact .inr rfl
  · exact .inl rfl

lemma abs_sign (q : Query ℤ) : |q.sign| = 1 := by
  rcases q.sign_cases with h | h <;> rw [h] <;> rfl

/-- A fraction is a bound with integer part and sign put back. -/
structure Restores (q : Query ℤ) (integer : ℤ) (a : Bound ℤ) (f : Fraction) : Prop where
  num_eq : f.num = q.sign * (a.num + a.denom * integer)
  denom_eq : f.denom = a.denom

lemma restore_eq_ok_iff {a : Bound ℤ} {f : Fraction} :
    q.restore integer a = .ok f ↔ q.Restores integer a f := by
  have hnum : (if q.negated then -(a.num + a.denom * integer) else a.num + a.denom * integer) =
      q.sign * (a.num + a.denom * integer) := by
    unfold sign
    split <;> ring
  rw [restore, Denominator.restore_int, hnum, Fraction.ofPair_eq_ok_iff]
  exact ⟨fun ⟨hn, hd⟩ => ⟨hn, hd⟩, fun ⟨hn, hd⟩ => ⟨hn, hd⟩⟩

lemma Restores.toRat_eq {a : Bound ℤ} {f : Fraction} (h : q.Restores integer a f) :
    f.toRat = q.sign * (integer + a.toRat) := by
  have hne : (a.denom : ℚ) ≠ 0 := by
    rw [← h.denom_eq]
    exact_mod_cast f.denom_ne_zero
  rw [Fraction.toRat, h.num_eq, h.denom_eq, Bound.toRat]
  push_cast
  field_simp
  ring

/-- What a search returns for an outcome. -/
structure Returns (q : Query ℤ) (integer : ℤ) (o : Outcome ℤ) (r : Approximant) : Prop where
  fraction : q.Restores integer o.bracket.high r.fraction
  low : q.Restores integer o.bracket.low r.low
  iterations_eq : r.iterations = o.iterations
  overflowed_eq : r.overflowed = o.overflowed

lemma returns_of_result_eq_ok {r : Approximant} (h : q.result integer o = .ok r) :
    q.Returns integer o r := by
  unfold result at h
  obtain ⟨f, hf, h⟩ := Except.bind_eq_ok.mp h
  obtain ⟨g, hg, h⟩ := Except.bind_eq_ok.mp h
  rw [← Except.ok.inj h]
  exact ⟨restore_eq_ok_iff.mp hf, restore_eq_ok_iff.mp hg, rfl, rfl⟩

lemma exists_result_eq_ok (hhigh : o.bracket.high.denom ≠ 0) (hlow : o.bracket.low.denom ≠ 0) :
    ∃ r, q.result integer o = .ok r := by
  have hrestore : ∀ a : Bound ℤ, a.denom ≠ 0 → ∃ f, q.restore integer a = .ok f := fun a ha =>
    ⟨⟨q.sign * (a.num + a.denom * integer), a.denom, ha⟩, restore_eq_ok_iff.mpr ⟨rfl, rfl⟩⟩
  obtain ⟨f, hf⟩ := hrestore _ hhigh
  obtain ⟨g, hg⟩ := hrestore _ hlow
  refine ⟨⟨f, g, o.iterations, o.overflowed⟩, ?_⟩
  rw [result, hf, Except.bind_ok, hg, Except.bind_ok, Except.pure_eq]

end Query

/-! ## The whole search -/

variable {s : Settings} {strict : Bool} {a : Arguments} {seed : ℤ} {r : Reported Approximant}

/-- A search that returned has passed through all stages, one after the other. -/
lemma search_eq_ok_iff (hseed : s.seed = .integer seed) : search s strict a = .ok r ↔
    ∃ q ceiling, a.query s = .ok (q, ceiling) ∧ ∃ integer o,
      (q.withSeed seed).refine = .ok (integer, o) ∧
      overflowWarnings s strict (q.withSeed seed) ceiling o = .ok r.warnings ∧
      (q.withSeed seed).result integer o = .ok r.value := by
  constructor
  · intro h
    unfold search at h
    obtain ⟨⟨q, ceiling⟩, hquery, h⟩ := Except.bind_eq_ok.mp h
    rw [hseed] at h
    change searchQuery s strict (q.withSeed seed) ceiling = .ok r at h
    unfold searchQuery at h
    obtain ⟨⟨integer, o⟩, hrefine, h⟩ := Except.bind_eq_ok.mp h
    obtain ⟨warnings, hwarnings, h⟩ := Except.bind_eq_ok.mp h
    obtain ⟨value, hresult, h⟩ := Except.bind_eq_ok.mp h
    rw [← Except.ok.inj h]
    exact ⟨q, ceiling, hquery, integer, o, hrefine, hwarnings, hresult⟩
  · rintro ⟨q, ceiling, hquery, integer, o, hrefine, hwarnings, hresult⟩
    rw [search, hquery, Except.bind_ok, hseed]
    change searchQuery s strict (q.withSeed seed) ceiling = _
    rw [searchQuery, hrefine, Except.bind_ok]
    dsimp only
    rw [hwarnings, Except.bind_ok, hresult, Except.bind_ok, Except.pure_eq]

lemma exists_query_of_search_eq_ok (hseed : s.seed = .integer seed)
    (h : search s strict a = .ok r) :
    ∃ q ceiling, a.query s = .ok (q, ceiling) ∧ ∃ integer o,
      (q.withSeed seed).refine = .ok (integer, o) ∧
      (q.withSeed seed).Returns integer o r.value := by
  obtain ⟨q, ceiling, hquery, integer, o, hrefine, -, hresult⟩ := (search_eq_ok_iff hseed).mp h
  exact ⟨q, ceiling, hquery, integer, o, hrefine, Query.returns_of_result_eq_ok hresult⟩

/-- A caller who is not strict gets at most one warning, where the flag for it is a truth value and
the ceiling can be shown. -/
lemma exists_overflowWarnings_eq_ok {δ : Type} {flag : Bool} {ceiling : Value}
    (hflag : s.warnOnOverflow = .boolean flag) (htext : ∃ text, ceiling.shown = .ok text)
    (q : Query δ) (o : Outcome δ) :
    ∃ warnings, overflowWarnings s false q ceiling o = .ok warnings := by
  obtain ⟨text, htext⟩ := htext
  unfold overflowWarnings
  rw [hflag, htext]
  cases o.overflowed <;> cases flag <;> exact ⟨_, rfl⟩

/-- A caller who is not strict gets the result of a refinement that returned. -/
lemma exists_search_eq_ok {q : Query Value} {ceiling : Value} {flag : Bool} {integer : ℤ}
    {o : Outcome ℤ} (hseed : s.seed = .integer seed) (hflag : s.warnOnOverflow = .boolean flag)
    (hquery : a.query s = .ok (q, ceiling)) (htext : ∃ text, ceiling.shown = .ok text)
    (hrefine : (q.withSeed seed).refine = .ok (integer, o))
    (hhigh : o.bracket.high.denom ≠ 0) (hlow : o.bracket.low.denom ≠ 0) :
    ∃ r, search s false a = .ok r := by
  obtain ⟨warnings, hwarnings⟩ :=
    exists_overflowWarnings_eq_ok hflag htext (q.withSeed seed) o
  obtain ⟨value, hresult⟩ : ∃ value, (q.withSeed seed).result integer o = .ok value :=
    Query.exists_result_eq_ok hhigh hlow
  exact ⟨⟨value, warnings⟩, (search_eq_ok_iff hseed).mpr
    ⟨q, ceiling, hquery, integer, o, hrefine, hwarnings, hresult⟩⟩

/-- A search that was not stopped has nothing to report, and a strict caller gets the same. -/
lemma search_eq_ok_of_not_overflowed (hseed : s.seed = .integer seed)
    (h : search s strict a = .ok r) (hover : r.value.overflowed = false) (strict' : Bool) :
    search s strict' a = .ok ⟨r.value, []⟩ := by
  obtain ⟨q, ceiling, hquery, integer, o, hrefine, -, hresult⟩ := (search_eq_ok_iff hseed).mp h
  rw [(Query.returns_of_result_eq_ok hresult).overflowed_eq] at hover
  have hwarnings : overflowWarnings s strict' (q.withSeed seed) ceiling o = .ok [] := by
    rw [overflowWarnings, hover]
    rfl
  exact (search_eq_ok_iff hseed).mpr
    ⟨q, ceiling, hquery, integer, o, hrefine, hwarnings, hresult⟩

/-- The pair of a search is its answer in lowest terms. -/
lemma nearbyPair_eq_ok_iff {t : Reported (ℤ × ℤ)} : nearbyPair s strict a = .ok t ↔
    ∃ r, search s strict a = .ok r ∧ t = ⟨r.value.fraction.lowestTerms, r.warnings⟩ := by
  unfold nearbyPair nearbyFraction
  cases search s strict a with
  | error fault => exact ⟨nofun, fun ⟨r, hr, _⟩ => nomatch hr⟩
  | ok r =>
    constructor
    · intro h
      exact ⟨r, rfl, (Except.ok.inj h).symm⟩
    · rintro ⟨r', hr', rfl⟩
      rw [← Except.ok.inj hr']
      rfl

end Mediant
