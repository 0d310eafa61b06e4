import Mediant.Proofs.Search.Checks
import Mediant.Proofs.Search.Opening

/-!
# Every search is refused or returns

For arguments of the intended sorts there is no third way: a search refuses them, or it returns a
result, and then after few refinements.  No division by zero, no infinity that would have to become
an integer, and no number out of range occurs on the way.  A refusal calls the arguments invalid,
with one exception: where its fault would have to show an integer of more than 4300 digits, the
search fails with the fault that says so.

`Query.Course` describes the way of a search to its result, and `exists_course` says that arguments
which pass the checks have one.  All later statements about results begin from it.
-/

namespace Mediant

open Binary64

/-! ## The course of a search -/

/-- The way of a query to its result, with a remainder that denotes what it should. -/
structure Query.Course (q : Query ℤ) (v p : ℚ) (m : ℤ) (x : Binary64) (n : ℕ) (c : Bracket ℤ)
    (o : Outcome ℤ) (r : Approximant) : Prop where
  admissible : q.Admissible v p m
  target : x.Denotes (q.remainder v)
  stages : q.Stages ⌊q.operand v⌋ x (q.cellNumber v) n c o
  returns : q.Returns ⌊q.operand v⌋ o r

namespace Query.Course

variable {q : Query ℤ} {v p : ℚ} {m : ℤ} {x : Binary64} {n : ℕ} {c d : Bracket ℤ} {o : Outcome ℤ}
  {r : Approximant}

lemma start (h : q.Course v p m x n c o r) :
    Bracket.Start 2310 (q.remainder v) p m (q.goal x) (.cell 2310 (q.cellNumber v)) :=
  h.admissible.start h.target

lemma reaches (h : q.Course v p m x n c o r) :
    (Bracket.cell 2310 (q.cellNumber v)).Reaches (q.goal x) n c := by
  rw [← h.admissible.seed_eq]
  exact h.stages.reaches

lemma last (h : q.Course v p m x n c o r) :
    Bracket.Start 2310 (q.remainder v) p m (q.goal x) c := h.start.reached h.reaches

lemma denoms_ge (h : q.Course v p m x n c o r) :
    2310 ≤ r.fraction.denom ∧ 2310 ≤ r.low.denom := by
  have hreg := h.last.bounded.toRegular
  rw [h.returns.fraction.denom_eq, h.returns.low.denom_eq]
  exact h.stages.forall_bounds (P := fun a => 2310 ≤ a.denom) hreg.seed_le_low hreg.seed_le_high

lemma denom_pos (h : q.Course v p m x n c o r) : 0 < r.fraction.denom :=
  lt_of_lt_of_le (by norm_num) h.denoms_ge.1

/-- The distance of the two fractions is that of neighbours on the lattice of the seed. -/
lemma distance_eq (h : q.Course v p m x n c o r) :
    |r.fraction.toRat - r.low.toRat| = 2310 / (r.fraction.denom * r.low.denom) := by
  have hreg := h.last.bounded.toRegular
  have hpos := sub_pos.mpr (hreg.low_lt_high h.last.seed_pos)
  have hsign : |(q.sign : ℚ)| = 1 := by exact_mod_cast q.abs_sign
  have hsub := hreg.high_sub_low h.last.seed_pos
  push_cast at hsub
  rw [h.returns.fraction.toRat_eq, h.returns.low.toRat_eq, ← mul_sub, abs_mul, hsign, one_mul,
    add_sub_add_left_eq_sub, h.returns.fraction.denom_eq, h.returns.low.denom_eq]
  rcases h.stages.bracket_eq with ho | ho <;> rw [ho]
  · rw [abs_of_pos hpos, hsub]
  · rw [Bracket.swap, abs_sub_comm, abs_of_pos hpos, hsub, mul_comm]

/-- The number of refinements is bounded by the ceiling. -/
lemma two_pow_mul_lt (h : q.Course v p m x n c o r) :
    r.iterations = n ∧ 2 ^ n * 2310 < 2 * m := by
  refine ⟨by rw [h.returns.iterations_eq, h.stages.iterations_eq], ?_⟩
  exact_mod_cast h.start.two_pow_mul_seed_lt h.reaches

end Query.Course

variable {s : Settings} {a : Arguments} {m : ℤ} {least : Extended} {v p : ℚ} {policy : Splitting}

lemma exists_admissible (hs : s.Standard) (hleast : s.leastPrecision.IsNumber least)
    (h : a.Accepted least v p m policy) (hpos : 0 < p) :
    ∃ q, a.query s = .ok (q, .integer m) ∧ (q.withSeed (2310 : ℤ)).Admissible v p m ∧
      q.policy = policy ∧ a.value.toDouble = .ok q.value := by
  obtain ⟨x, y, hv, hx, hy, hquery⟩ := exists_query_eq_ok hs hleast h.toChecked
  exact ⟨_, hquery, ⟨hx, hy, hpos, rfl, h.ceiling_le, rfl, h.seed_lt, h.abs_value_lt⟩, rfl, hv⟩

/-- A caller who is not strict gets a result for accepted arguments. -/
theorem exists_search_of_accepted {flag : Bool} (hs : s.Standard)
    (hflag : s.warnOnOverflow = .boolean flag) (hleast : s.leastPrecision.IsNumber least)
    (h : a.Accepted least v p m policy) (hpos : 0 < p) : ∃ r, search s false a = .ok r := by
  obtain ⟨q, hquery, hq, -, -⟩ := exists_admissible hs hleast h hpos
  obtain ⟨t, n, c, o, ht, hrefine, hstages⟩ := hq.exists_stages
  have hreach := hstages.reaches
  rw [hq.seed_eq] at hreach
  have hsized := ((hq.start ht).reached hreach).sized
  have hdenoms := hstages.forall_bounds (P := fun x => x.denom ≠ 0) hsized.low.denom_ne_zero
    hsized.high.denom_ne_zero
  have htext := (Value.IsInteger.integer m).exists_shown_eq_ok h.not_tooLong
  exact exists_search_eq_ok hs.seed_eq hflag hquery htext hrefine hdenoms.1 hdenoms.2

/-- The course of a result. -/
theorem exists_course {strict : Bool} {r : Reported Approximant} (hs : s.Standard)
    (hleast : s.leastPrecision.IsNumber least) (h : a.Accepted least v p m policy) (hpos : 0 < p)
    (hr : search s strict a = .ok r) :
    ∃ q t n c o, q.policy = policy ∧ a.value.toDouble = .ok q.value ∧
      Query.Course q v p m t n c o r.value := by
  obtain ⟨q, hquery, hq, hpolicy, hv⟩ := exists_admissible hs hleast h hpos
  obtain ⟨t, n, c, o, ht, hrefine, hstages⟩ := hq.exists_stages
  obtain ⟨q', bound, hquery', i, o', hrefine', hreturns⟩ :=
    exists_query_of_search_eq_ok hs.seed_eq hr
  rw [hquery] at hquery'
  obtain ⟨rfl, -⟩ := Prod.mk.inj (Except.ok.inj hquery')
  rw [hrefine] at hrefine'
  obtain ⟨rfl, rfl⟩ := Prod.mk.inj (Except.ok.inj hrefine')
  exact ⟨q.withSeed 2310, t, n, c, o, hpolicy, hv, hq, ht, hstages, hreturns⟩

/-! ## Under the least precision -/

lemma isNumber_leastPrecision : (Value.double (quotient 1 1000000000000000)).IsNumber
    (.rational leastPrecision) := by
  rw [← denotes_leastPrecision.toExtended]
  exact .double _

/-- With all settings but the flag for warnings as they are at first, accepted arguments lead to a
result. -/
lemma Arguments.Accepted.exists_search (h : a.Accepted (.rational leastPrecision) v p m policy)
    (flag : Bool) : ∃ r, search { warnOnOverflow := .boolean flag } false a = .ok r :=
  exists_search_of_accepted ⟨rfl, rfl⟩ rfl isNumber_leastPrecision h
    (leastPrecision_pos.trans_le h.leastPrecision_le)

lemma Arguments.Accepted.exists_course (h : a.Accepted (.rational leastPrecision) v p m policy)
    {flag strict : Bool} {r : Reported Approximant}
    (hr : search { warnOnOverflow := .boolean flag } strict a = .ok r) :
    ∃ q t n c o, q.policy = policy ∧ Query.Course q v p m t n c o r.value := by
  obtain ⟨q, t, n, c, o, hpolicy, -, hcourse⟩ := Mediant.exists_course ⟨rfl, rfl⟩
    isNumber_leastPrecision h (leastPrecision_pos.trans_le h.leastPrecision_le) hr
  exact ⟨q, t, n, c, o, hpolicy, hcourse⟩

/-! ## Refusal or result -/

/-- The search returns, and the ceiling bounds the number of its refinements. -/
def ReturnsWithin (s : Settings) (a : Arguments) (m : ℤ) : Prop :=
  ∃ r, search s false a = .ok r ∧ ∃ n : ℕ, r.value.iterations = n ∧ 2 ^ n * 2310 < 2 * m

/-- What becomes of a search for arguments of the intended sorts with the ceiling `m`. -/
structure RefusedOrReturned (flag : Bool) (a : Arguments) (m : ℤ) : Prop where
  /-- It is refused under exactly the stated conditions. -/
  refused_iff : (∃ fault, search { warnOnOverflow := .boolean flag } false a = .error fault) ↔
    a.Refused (.rational leastPrecision) m
  /-- The refusal calls the arguments invalid, if the fault can be written. -/
  invalid_iff : (∃ fault, search { warnOnOverflow := .boolean flag } false a = .error fault ∧
    fault.kind = .invalidInput) ↔ a.Refused (.rational leastPrecision) m ∧ ¬a.Unwritable m
  /-- The only other fault is that it cannot. -/
  tooLong_iff : (∃ fault, search { warnOnOverflow := .boolean flag } false a = .error fault ∧
    fault.kind ≠ .invalidInput) ↔ a.Unwritable m
  tooLong_eq : a.Unwritable m →
    search { warnOnOverflow := .boolean flag } false a = .error .integerTooLong
  /-- Else it returns. -/
  returned : ¬a.Refused (.rational leastPrecision) m →
    ReturnsWithin { warnOnOverflow := .boolean flag } a m
  /-- Under another least precision, too, it returns for every positive precision that is not
  refused. -/
  returned_of_least {least : Value} {bound : Extended} {y : Binary64} {p : ℚ} :
    least.IsNumber bound → a.precision.toDouble = .ok y → y.Denotes p → 0 < p →
    ¬a.Refused bound m →
    ReturnsWithin { warnOnOverflow := .boolean flag, leastPrecision := least } a m

/-- Accepted arguments with a positive precision lead to a result. -/
lemma returnsWithin_of_accepted {flag : Bool} (hs : s.Standard)
    (hflag : s.warnOnOverflow = .boolean flag) (hleast : s.leastPrecision.IsNumber least)
    (h : a.Accepted least v p m policy) (hpos : 0 < p) : ReturnsWithin s a m := by
  obtain ⟨r, hr⟩ := exists_search_of_accepted hs hflag hleast h hpos
  obtain ⟨q, t, n, c, o, -, -, hcourse⟩ := exists_course hs hleast h hpos hr
  exact ⟨r, hr, n, hcourse.two_pow_mul_lt⟩

/-- Refused arguments make a search fail. -/
lemma Arguments.Typed.exists_search_eq_error (ha : a.Typed m)
    (h : a.Refused (.rational leastPrecision) m) (flag : Bool) :
    ∃ fault, search { warnOnOverflow := .boolean flag } false a = .error fault ∧
      a.RefusedWith m fault := by
  obtain ⟨fault, hfault, hwith⟩ := exists_query_eq_error
    (s := { warnOnOverflow := .boolean flag }) ⟨rfl, rfl⟩ isNumber_leastPrecision
    ⟨_, Value.shown_double _⟩ ha h
  exact ⟨fault, by rw [search, hfault, Except.bind_error], hwith⟩

/-- Where the fault of refused arguments cannot be written, the search fails for that. -/
lemma Arguments.Typed.search_eq_of_unwritable (ha : a.Typed m) (h : a.Unwritable m)
    (flag : Bool) :
    search { warnOnOverflow := .boolean flag } false a = .error .integerTooLong := by
  obtain ⟨fault, hfault, hwith⟩ := ha.exists_search_eq_error h.refused flag
  cases hwith with
  | unwritable => exact hfault
  | invalid hwritable => exact absurd h hwritable

lemma Arguments.Typed.returnsWithin (ha : a.Typed m)
    (h : ¬a.Refused (.rational leastPrecision) m) (flag : Bool) :
    ReturnsWithin { warnOnOverflow := .boolean flag } a m := by
  obtain ⟨v, p, policy, hacc⟩ := ha.exists_accepted h
  exact returnsWithin_of_accepted ⟨rfl, rfl⟩ rfl isNumber_leastPrecision hacc
    (leastPrecision_pos.trans_le hacc.leastPrecision_le)

lemma Arguments.Typed.returnsWithin_of_least (ha : a.Typed m) {leastValue : Value} {y : Binary64}
    (hleast : leastValue.IsNumber least) (hp : a.precision.toDouble = .ok y) (hy : y.Denotes p)
    (hpos : 0 < p) (h : ¬a.Refused least m) (flag : Bool) :
    ReturnsWithin { warnOnOverflow := .boolean flag, leastPrecision := leastValue } a m := by
  obtain ⟨v, p', policy, hacc⟩ := ha.exists_accepted h
  obtain ⟨y', hp', hy'⟩ := hacc.precision
  rw [hp] at hp'
  rw [← Except.ok.inj hp'] at hy'
  exact returnsWithin_of_accepted ⟨rfl, rfl⟩ rfl hleast hacc (hy.unique hy' ▸ hpos)

/-- A fault is that of refused arguments. -/
lemma Arguments.Typed.refusedWith (ha : a.Typed m) {flag : Bool} {fault : Fault}
    (hfault : search { warnOnOverflow := .boolean flag } false a = .error fault) :
    a.Refused (.rational leastPrecision) m ∧ a.RefusedWith m fault := by
  have h : a.Refused (.rational leastPrecision) m := by
    by_contra h
    obtain ⟨r, hr, -⟩ := ha.returnsWithin h flag
    rw [hr] at hfault
    cases hfault
  obtain ⟨fault', hfault', hwith⟩ := ha.exists_search_eq_error h flag
  rw [hfault'] at hfault
  exact ⟨h, Except.error.inj hfault ▸ hwith⟩

/-- **Every search is refused or returns**, and a refusal calls the arguments invalid if it can be
written. -/
theorem refusedOrReturned_of_typed {flag : Bool} {a : Arguments} {m : ℤ} (ha : a.Typed m) :
    RefusedOrReturned flag a m := by
  refine ⟨⟨?_, ?_⟩, ⟨?_, ?_⟩, ⟨?_, ?_⟩, fun h => ha.search_eq_of_unwritable h flag,
    fun h => ha.returnsWithin h flag, ?_⟩
  · rintro ⟨fault, hfault⟩
    exact (ha.refusedWith hfault).1
  · intro h
    obtain ⟨fault, hfault, -⟩ := ha.exists_search_eq_error h flag
    exact ⟨fault, hfault⟩
  · rintro ⟨fault, hfault, hkind⟩
    refine ⟨(ha.refusedWith hfault).1, fun h => ?_⟩
    rw [ha.search_eq_of_unwritable h flag] at hfault
    rw [← Except.error.inj hfault] at hkind
    cases hkind
  · rintro ⟨h, hwritable⟩
    obtain ⟨fault, hfault, hwith⟩ := ha.exists_search_eq_error h flag
    cases hwith with
    | unwritable h => exact absurd h hwritable
    | invalid _ hkind => exact ⟨fault, hfault, hkind⟩
  · rintro ⟨fault, hfault, hkind⟩
    cases (ha.refusedWith hfault).2 with
    | unwritable h => exact h
    | invalid _ hinvalid => exact absurd hinvalid hkind
  · intro h
    exact ⟨_, ha.search_eq_of_unwritable h flag, nofun⟩
  · intro least bound y p hbound hp hy hpos h
    exact ha.returnsWithin_of_least hbound hp hy hpos h flag

/-- The double nearest to `-π` under a ceiling of a hundred thousand. -/
theorem refusedOrReturned_negPi :
    (Arguments.negPi 100000 .truncate).Typed 100000 ∧
      RefusedOrReturned true (.negPi 100000 .truncate) 100000 := by
  have ha : (Arguments.negPi 100000 .truncate).Typed 100000 :=
    ⟨⟨_, .double _⟩, ⟨_, .double _⟩, .asked (.integer _), by norm_num, .inr ⟨_, rfl⟩⟩
  exact ⟨ha, refusedOrReturned_of_typed ha⟩

/-- The first integer of more than 4300 digits, with all bounds at their defaults. -/
def Arguments.tooLong : Arguments := { value := .integer (10 ^ 4300) }

/-- It is refused, being beyond all doubles, but not as invalid: its refusal cannot be written. -/
theorem refusal_not_invalid :
    Arguments.tooLong.Typed 0x7fffffffffffffff ∧
      Arguments.tooLong.Refused (.rational leastPrecision) 0x7fffffffffffffff ∧
      ¬∃ fault, search {} false .tooLong = .error fault ∧ fault.kind = .invalidInput := by
  have ha : Arguments.tooLong.Typed 0x7fffffffffffffff :=
    ⟨⟨_, .integer _⟩, ⟨_, .double _⟩, .default rfl, by norm_num, .inl rfl⟩
  have hlong : TooLong (10 ^ 4300) := le_abs_self _
  have h : Arguments.tooLong.Unwritable 0x7fffffffffffffff :=
    .value (by norm_num) (.integer _) hlong
  refine ⟨ha, h.refused, ?_⟩
  rintro ⟨fault, hfault, hkind⟩
  have hsearch : search {} false .tooLong = .error .integerTooLong :=
    ha.search_eq_of_unwritable h true
  rw [hsearch] at hfault
  rw [← Except.error.inj hfault] at hkind
  cases hkind

end Mediant
