import Mediant.Proofs.LowestTerms
import Mediant.Proofs.Search.Termination

/-!
# Opposite values have opposite results

With truncation a negative value is searched as its absolute value, and the result is negated.  So
of a double other than zero and its opposite both are searched by one and the same refinement, and
what surrounds the refinement, the checks before and the fractions after it, treats them alike but
for the sign.  This holds under all settings, whatever kind of number the seed denominator is.

For a value that is not negative the two policies come to the same.

`SignAndPolicy` states both of one double.
-/

namespace Mediant

open Binary64

/-! ## Opposite numbers -/

/-- Faults of one kind, which may show different values. -/
def Fault.SameKind (e f : Fault) : Prop := e.kind = f.kind

namespace Fault.SameKind

lemma refl (e : Fault) : e.SameKind e := rfl

lemma kind_eq_iff {e f : Fault} (h : e.SameKind f) (kind : FaultKind) :
    e.kind = kind ↔ f.kind = kind := by
  rw [SameKind] at h
  rw [h]

end Fault.SameKind

namespace Binary64

variable {x : Binary64}

@[simp] lemma isFinite_neg (x : Binary64) : x.neg.isFinite = x.isFinite := by
  cases x <;> rfl

@[simp] lemma neg_abs_eq (x : Binary64) : x.neg.abs = x.abs := by
  cases x <;> rfl

lemma Finite.nearest_neg (x : Finite) : x.neg.nearest = -x.nearest := by
  obtain ⟨negative, significand, scale, _, _, _⟩ := x
  cases negative <;> simp [nearest, neg, magnitude]

lemma toNearest_neg (x : Binary64) :
    Except.Related Fault.SameKind (fun n m => m = -n) x.toNearest x.neg.toNearest := by
  cases x with
  | nan => exact .error rfl
  | infinity s => exact .error rfl
  | finite x => exact .ok x.nearest_neg

end Binary64

lemma Fraction.ofPair_neg (num denom : ℤ) : Except.Related Fault.SameKind (fun f g => g = f.neg)
    (ofPair num denom) (ofPair (-num) denom) := by
  unfold ofPair
  by_cases h : denom = 0
  · rw [dif_pos h, dif_pos h]
    -- both numerators have a text, or none
    have htext : Except.Related Fault.SameKind (fun _ _ => True)
        (integerText num) (integerText (-num)) := by
      rw [integerText, integerText, Decimal.isShort_neg]
      split
      · exact .ok trivial
      · exact .error rfl
    exact htext.bind fun _ _ _ => .bind_congr .refl fun _ _ => .error rfl
  · rw [dif_neg h, dif_neg h]
    exact .ok rfl

namespace Denominator

/-- A kind of denominators for which restoring a bound with the other sign gives the opposite
fraction. -/
def Symmetric (δ : Type) [Denominator δ] : Prop := ∀ (negated : Bool) (integer num : ℤ) (denom : δ),
  Except.Related Fault.SameKind (fun f g => g = f.neg) (restore negated integer num denom)
    (restore (!negated) integer num denom)

lemma symmetric_int : Symmetric ℤ := by
  intro negated integer num denom
  rw [restore_int, restore_int]
  cases negated with
  | false => exact Fraction.ofPair_neg _ _
  | true =>
    have h := Fraction.ofPair_neg (-(num + denom * integer)) denom
    rwa [Int.neg_neg] at h

lemma symmetric_binary64 : Symmetric Binary64 := by
  intro negated integer num denom
  refine .bind_congr .refl fun numerator _ => ?_
  have hnearest : Except.Related Fault.SameKind (fun n m => m = -n)
      (if negated then (numerator.add (denom.mul (.ofInt integer))).neg
        else numerator.add (denom.mul (.ofInt integer))).toNearest
      (if !negated then (numerator.add (denom.mul (.ofInt integer))).neg
        else numerator.add (denom.mul (.ofInt integer))).toNearest := by
    cases negated with
    | false => exact toNearest_neg _
    | true =>
      have h := toNearest_neg (numerator.add (denom.mul (.ofInt integer))).neg
      rwa [Binary64.neg_neg] at h
  refine hnearest.bind ?_
  rintro n _ rfl
  refine .bind_congr .refl fun d _ => ?_
  exact Fraction.ofPair_neg n d

end Denominator

/-! ## Opposite queries -/

/-- The result with both fractions negated. -/
def Approximant.neg (r : Approximant) : Approximant :=
  { r with fraction := r.fraction.neg, low := r.low.neg }

/-- The same warning about the opposite value. -/
def OverflowWarning.neg (w : OverflowWarning) : OverflowWarning := { w with value := w.value.neg }

/-- The report on the opposite value, with what is reported changed by `neg`. -/
def Reported.opposite {α : Type} (neg : α → α) (r : Reported α) : Reported α :=
  ⟨neg r.value, r.warnings.map OverflowWarning.neg⟩

namespace Query

variable {δ : Type} {q : Query δ} {v : ℚ}

/-- The same query for the opposite value. -/
def opposite (q : Query δ) : Query δ := { q with value := q.value.neg }

/-- Exactly one of two opposite values is searched as its absolute value. -/
lemma negated_opposite (hpolicy : q.policy = .truncate) (hx : q.value.Denotes v) (hv : v ≠ 0) :
    q.opposite.negated = !q.negated := by
  rw [negated, negated, opposite, hx.neg.lt (denotes_zero false), hx.lt (denotes_zero false),
    hpolicy]
  rcases lt_or_gt_of_ne hv with hneg | hpos
  · simp [hneg, hneg.le]
  · simp [hpos, hpos.le]

lemma split_opposite (hpolicy : q.policy = .truncate) (hx : q.value.Denotes v) (hv : v ≠ 0) :
    q.opposite.split = q.split := by
  have hoperand : (if q.opposite.negated then q.opposite.value.neg else q.opposite.value) =
      if q.negated then q.value.neg else q.value := by
    rw [negated_opposite hpolicy hx hv, opposite, Binary64.neg_neg]
    cases q.negated <;> rfl
  rw [split, split, hoperand]
  rfl

variable [Denominator δ]

lemma refine_opposite (hpolicy : q.policy = .truncate) (hx : q.value.Denotes v) (hv : v ≠ 0) :
    q.opposite.refine = q.refine := by
  rw [refine, refine, split_opposite hpolicy hx hv]
  rfl

lemma result_opposite (hδ : Denominator.Symmetric δ) (hpolicy : q.policy = .truncate)
    (hx : q.value.Denotes v) (hv : v ≠ 0) (integer : ℤ) (o : Outcome δ) :
    Except.Related Fault.SameKind (fun r t => t = r.neg) (q.result integer o)
      (q.opposite.result integer o) := by
  have hrestore : ∀ a : Bound δ, Except.Related Fault.SameKind (fun f g => g = f.neg)
      (q.restore integer a) (q.opposite.restore integer a) := by
    intro a
    rw [restore, restore, negated_opposite hpolicy hx hv]
    exact hδ q.negated integer a.num a.denom
  refine (hrestore o.bracket.high).bind ?_
  rintro fraction _ rfl
  refine (hrestore o.bracket.low).bind ?_
  rintro low _ rfl
  exact .ok rfl

end Query

section

variable {δ : Type} {s : Settings} {strict : Bool} {q : Query δ} {v : ℚ}

lemma overflowWarnings_opposite (q : Query δ) (ceiling : Value) (o : Outcome δ) :
    Except.Related Fault.SameKind (fun w w' => w' = w.map OverflowWarning.neg)
      (overflowWarnings s strict q ceiling o) (overflowWarnings s strict q.opposite ceiling o) := by
  unfold overflowWarnings
  cases o.overflowed with
  | false => exact .ok rfl
  | true =>
    refine .bind_congr .refl fun flag _ => ?_
    cases flag with
    | false => exact .ok rfl
    | true =>
      refine .bind_congr .refl fun text _ => ?_
      cases strict with
      | false => exact .ok rfl
      | true => exact .error rfl

lemma searchQuery_opposite [Denominator δ] (hδ : Denominator.Symmetric δ)
    (hpolicy : q.policy = .truncate) (hx : q.value.Denotes v) (hv : v ≠ 0) (ceiling : Value) :
    Except.Related Fault.SameKind (fun r t => t = r.opposite Approximant.neg)
      (searchQuery s strict q ceiling) (searchQuery s strict q.opposite ceiling) := by
  rw [searchQuery, searchQuery, Query.refine_opposite hpolicy hx hv]
  refine .bind_congr .refl fun parts _ => ?_
  obtain ⟨integer, o⟩ := parts
  refine (overflowWarnings_opposite q ceiling o).bind ?_
  rintro warnings _ rfl
  refine (Query.result_opposite hδ hpolicy hx hv integer o).bind ?_
  rintro r _ rfl
  exact .ok rfl

/-- Without a sign the policy of a query has no part in its answer. -/
lemma searchQuery_floor [Denominator δ] (hx : q.value.Denotes v) (hv : 0 ≤ v) (ceiling : Value) :
    searchQuery s strict { q with policy := .floor } ceiling =
      searchQuery s strict { q with policy := .truncate } ceiling := by
  have hnegated : ({ q with policy := .truncate } : Query δ).negated = false := by
    rw [Query.negated, hx.lt (denotes_zero false), decide_eq_false (not_lt.mpr hv), Bool.and_false]
  have hnegated' : ({ q with policy := .floor } : Query δ).negated = false := rfl
  have hsplit : ({ q with policy := .floor } : Query δ).split =
      ({ q with policy := .truncate } : Query δ).split := by
    rw [Query.split, Query.split, hnegated, hnegated', Splitting.split, Splitting.split]
    simp only [Bool.false_eq_true, if_false, Splitting.integerPart, hx.toInteger_floor,
      hx.toInteger_truncate hv]
  have hresult : ∀ (integer : ℤ) (o : Outcome δ),
      ({ q with policy := .floor } : Query δ).result integer o =
        ({ q with policy := .truncate } : Query δ).result integer o := by
    intro integer o
    rw [Query.result, Query.result]
    simp only [Query.restore, hnegated, hnegated']
  have hrefine : ({ q with policy := .floor } : Query δ).refine =
      ({ q with policy := .truncate } : Query δ).refine := by
    rw [Query.refine, Query.refine, hsplit]
    rfl
  rw [searchQuery, searchQuery, hrefine]
  simp only [hresult]
  rfl

end

/-! ## Opposite arguments -/

section

variable {s : Settings} {strict : Bool} {a : Arguments} {x : Binary64} {v : ℚ}

lemma orBeyondDoubles_related {α : Type} (x y : Binary64) (c : Except Fault α) :
    Except.Related Fault.SameKind Eq (orBeyondDoubles (.double x) c)
      (orBeyondDoubles (.double y) c) := by
  cases c with
  | ok d => exact .ok rfl
  | error fault =>
    simp only [orBeyondDoubles, Value.shown_double, Except.bind_ok]
    split
    · exact .error rfl
    · exact .error rfl

/-- The checks look at the absolute value only. -/
lemma checkInput_opposite (s : Settings) (x : Binary64) (precision ceiling : Value) :
    Except.Related Fault.SameKind (fun t t' => ∃ p, t = (x, p) ∧ t' = (x.neg, p))
      (checkInput s (.double x) precision ceiling)
      (checkInput s (.double x.neg) precision ceiling) := by
  rw [checkInput_eq, checkInput_eq, Value.toDouble, Value.toDouble, orBeyondDoubles,
    orBeyondDoubles, Except.bind_ok, Except.bind_ok, isFinite_neg, neg_abs_eq]
  refine (orBeyondDoubles_related _ _ _).bind ?_
  rintro p _ rfl
  split
  · exact .error rfl
  split
  · exact .bind_congr .refl fun _ _ => .error rfl
  refine .bind_congr .refl fun less _ => ?_
  split
  · exact .bind_congr .refl fun _ _ => .error rfl
  refine .bind_congr .refl fun beyond _ => ?_
  split
  · exact .bind_congr .refl fun _ _ => .error rfl
  · exact .ok ⟨p, rfl, rfl⟩

lemma query_opposite (hpolicy : resolvePolicy a.split = .ok .truncate) :
    Except.Related Fault.SameKind
      (fun t t' => t.1.value = x ∧ t.1.policy = .truncate ∧ t' = (t.1.opposite, t.2))
      (Arguments.query s { a with value := .double x })
      (Arguments.query s { a with value := .double x.neg }) := by
  rw [Arguments.query, Arguments.query]
  refine .bind_congr .refl fun ceiling _ => ?_
  refine (checkInput_opposite s x a.precision ceiling).bind ?_
  rintro _ _ ⟨p, rfl, rfl⟩
  dsimp only
  rw [hpolicy, Except.bind_ok, Except.bind_ok]
  refine .bind_congr .refl fun bound _ => ?_
  exact .ok ⟨rfl, rfl, rfl⟩

/-- Opposite values have opposite results, and faults of one kind. -/
lemma search_opposite (hx : x.Denotes v) (hv : v ≠ 0)
    (hpolicy : resolvePolicy a.split = .ok .truncate) :
    Except.Related Fault.SameKind (fun r t => t = r.opposite Approximant.neg)
      (search s strict { a with value := .double x })
      (search s strict { a with value := .double x.neg }) := by
  rw [search, search]
  refine (query_opposite hpolicy).bind ?_
  rintro ⟨q, ceiling⟩ _ ⟨rfl, hq, rfl⟩
  dsimp only
  -- the kind of the seed decides the kind of the denominators, for both alike
  cases s.seed.integer? with
  | some seed =>
    exact searchQuery_opposite (q := q.withSeed seed) Denominator.symmetric_int hq hx hv _
  | none =>
    cases s.seed.double? with
    | some seed =>
      exact searchQuery_opposite (q := q.withSeed seed) Denominator.symmetric_binary64 hq hx hv _
    | none => exact .error rfl

lemma query_floor (s : Settings) (a : Arguments) (x : Binary64) :
    Except.Related Eq
      (fun t t' => ∃ (q : Query Value) (ceiling : Value), q.value = x ∧
        t = ({ q with policy := .floor }, ceiling) ∧ t' = ({ q with policy := .truncate }, ceiling))
      (Arguments.query s { a with value := .double x, split := .policy .floor })
      (Arguments.query s { a with value := .double x, split := .policy .truncate }) := by
  rw [Arguments.query, Arguments.query]
  refine .bind_congr Eq.refl fun ceiling _ => ?_
  refine .bind_congr Eq.refl fun checked hcheck => ?_
  obtain ⟨y, p⟩ := checked
  obtain rfl : x = y := Except.ok.inj (of_checkInput_eq_ok hcheck).1
  dsimp only [resolvePolicy]
  rw [Except.bind_ok, Except.bind_ok]
  refine .bind_congr Eq.refl fun bound _ => ?_
  exact .ok ⟨⟨x, p, bound, s.seed, .floor⟩, ceiling, rfl, rfl, rfl⟩

/-- For a value that is not negative the policies come to the same. -/
lemma search_floor (hx : x.Denotes v) (hv : 0 ≤ v) :
    search s strict { a with value := .double x, split := .policy .floor } =
      search s strict { a with value := .double x, split := .policy .truncate } := by
  rw [search, search]
  refine Except.Related.eq ((query_floor s a x).bind ?_)
  rintro _ _ ⟨q, ceiling, rfl, rfl, rfl⟩
  dsimp only
  cases s.seed.integer? with
  | some seed =>
    exact .of_eq (searchQuery_floor (q := q.withSeed seed) hx hv ceiling)
  | none =>
    cases s.seed.double? with
    | some seed => exact .of_eq (searchQuery_floor (q := q.withSeed seed) hx hv ceiling)
    | none => exact .error rfl

end

/-! ## The law -/

/-- The search for the opposite of the double `x` mirrors the search for `x`. -/
structure Mirrored (s : Settings) (strict : Bool) (a : Arguments) (x : Binary64) : Prop where
  /-- The opposite value is refused where the value is, with a fault of the same kind: as invalid
  input, or for any other reason. -/
  fault_iff (kind : FaultKind) :
    (∃ fault, search s strict { a with value := .double x.neg } = .error fault ∧
        fault.kind = kind) ↔
      ∃ fault, search s strict { a with value := .double x } = .error fault ∧ fault.kind = kind
  /-- Its result is that of the value, with both fractions negated. -/
  search_eq {r : Reported Approximant} : search s strict { a with value := .double x } = .ok r →
    search s strict { a with value := .double x.neg } = .ok (r.opposite Approximant.neg)
  /-- Its pair has the opposite numerator and the same denominator. -/
  pair_eq {num denom : ℤ} {w : List OverflowWarning} :
    nearbyPair s strict { a with value := .double x } = .ok ⟨(num, denom), w⟩ →
      nearbyPair s strict { a with value := .double x.neg } =
        .ok ⟨(-num, denom), w.map OverflowWarning.neg⟩
  /-- Its reduced fraction is the negated one. -/
  reduced_eq {precision : Value} {f : Reported Fraction} :
    nearbyReduced s strict (.double x) precision = .ok f →
      nearbyReduced s strict (.double x.neg) precision = .ok (f.opposite Fraction.neg)
  /-- Under the first settings, for arguments of the intended sorts, there is no third case: both
  values are invalid, or both have a result.  Only a ceiling that is too long to be shown is
  refused otherwise, and then for both values alike. -/
  invalid_or_exists {flag : Bool} {m : ℤ} : s = { warnOnOverflow := .boolean flag } →
    strict = false → ({ a with value := .double x } : Arguments).Typed m →
      (∃ fault fault', search s strict { a with value := .double x } = .error fault ∧
          search s strict { a with value := .double x.neg } = .error fault' ∧
          ((fault.kind = .invalidInput ∧ fault'.kind = .invalidInput) ∨
            (m ≤ 2310 ∧ TooLong m ∧ fault = .integerTooLong ∧ fault' = .integerTooLong))) ∨
        ∃ r, search s strict { a with value := .double x } = .ok r ∧
          search s strict { a with value := .double x.neg } = .ok (r.opposite Approximant.neg)

/-- How sign and policy enter into the search for a double `x` with the value `v`. -/
structure SignAndPolicy (s : Settings) (strict : Bool) (a : Arguments) (x : Binary64) (v : ℚ) :
    Prop where
  /-- With truncation opposite values are mirrored. -/
  mirrored : v ≠ 0 → resolvePolicy a.split = .ok .truncate → Mirrored s strict a x
  /-- For a value that is not negative, flooring and truncation are the same. -/
  policies_agree : 0 ≤ v →
    search s strict { a with value := .double x, split := .policy .floor } =
      search s strict { a with value := .double x, split := .policy .truncate }

section

variable {s : Settings} {strict : Bool} {a : Arguments} {x : Binary64} {v : ℚ}

lemma nearbyFraction_opposite (hx : x.Denotes v) (hv : v ≠ 0)
    (hpolicy : resolvePolicy a.split = .ok .truncate) :
    Except.Related Fault.SameKind (fun f g => g = f.opposite Fraction.neg)
      (nearbyFraction s strict { a with value := .double x })
      (nearbyFraction s strict { a with value := .double x.neg }) := by
  refine (search_opposite hx hv hpolicy).map ?_
  rintro r _ rfl
  rfl

lemma nearbyPair_opposite (hx : x.Denotes v) (hv : v ≠ 0)
    (hpolicy : resolvePolicy a.split = .ok .truncate) :
    Except.Related Fault.SameKind (fun t t' => t' = t.opposite fun p => (-p.1, p.2))
      (nearbyPair s strict { a with value := .double x })
      (nearbyPair s strict { a with value := .double x.neg }) := by
  refine (nearbyFraction_opposite hx hv hpolicy).map ?_
  rintro f _ rfl
  rw [Reported.opposite, Reported.opposite, Reported.map, Reported.map, Fraction.lowestTerms_neg]

lemma nearbyReduced_opposite (hx : x.Denotes v) (hv : v ≠ 0) (precision : Value) :
    Except.Related Fault.SameKind (fun f g => g = f.opposite Fraction.neg)
      (nearbyReduced s strict (.double x) precision)
      (nearbyReduced s strict (.double x.neg) precision) := by
  refine (nearbyFraction_opposite (a := { value := .nothing, precision }) hx hv rfl).map ?_
  rintro f _ rfl
  rw [Reported.opposite, Reported.opposite, Reported.map, Reported.map, Fraction.reduced_neg]

/-- Under the first settings, arguments of the intended sorts are refused or lead to a result. -/
lemma Arguments.Typed.refused_or_exists {m : ℤ} (ha : a.Typed m) (flag : Bool) :
    (∃ fault, search { warnOnOverflow := .boolean flag } false a = .error fault ∧
        a.RefusedWith m fault) ∨
      ∃ r, search { warnOnOverflow := .boolean flag } false a = .ok r := by
  by_cases h : a.Refused (.rational leastPrecision) m
  · exact .inl (ha.exists_search_eq_error h flag)
  · obtain ⟨v, p, policy, hacc⟩ := ha.exists_accepted h
    exact .inr (hacc.exists_search flag)

/-- Of a double only the ceiling can be too long to be shown. -/
lemma Arguments.Unwritable.of_double {m : ℤ}
    (h : ({ a with value := .double x } : Arguments).Unwritable m) : m ≤ 2310 ∧ TooLong m := by
  cases h with
  | ceiling hle hlong => exact ⟨hle, hlong⟩
  | value _ hn => cases hn

lemma mirrored_of_ne_zero (hx : x.Denotes v) (hv : v ≠ 0)
    (hpolicy : resolvePolicy a.split = .ok .truncate) : Mirrored s strict a x := by
  have hsearch : Except.Related Fault.SameKind (fun r t => t = r.opposite Approximant.neg)
      (search s strict { a with value := .double x })
      (search s strict { a with value := .double x.neg }) := search_opposite hx hv hpolicy
  have hfaults : ∀ kind : FaultKind,
      (∃ fault, search s strict { a with value := .double x.neg } = .error fault ∧
          fault.kind = kind) ↔
        ∃ fault, search s strict { a with value := .double x } = .error fault ∧
          fault.kind = kind :=
    fun kind => (hsearch.exists_error_iff fun _ _ h => h.kind_eq_iff kind).symm
  have hresults : ∀ {r}, search s strict { a with value := .double x } = .ok r →
      search s strict { a with value := .double x.neg } = .ok (r.opposite Approximant.neg) := by
    intro r hr
    obtain ⟨_, hr', rfl⟩ := hsearch.exists_eq_ok hr
    exact hr'
  refine ⟨hfaults, hresults, ?_, ?_, ?_⟩
  · intro num denom w ht
    obtain ⟨_, ht', rfl⟩ := (nearbyPair_opposite hx hv hpolicy).exists_eq_ok ht
    exact ht'
  · intro precision f hf
    obtain ⟨_, hf', rfl⟩ := (nearbyReduced_opposite hx hv precision).exists_eq_ok hf
    exact hf'
  · rintro flag m rfl rfl ha
    have hceiling : ({ a with value := .double x.neg } : Arguments).Ceiling m := by
      cases ha.ceiling with
      | default h => exact .default h
      | asked h => exact .asked h
    have ha' : ({ a with value := .double x.neg } : Arguments).Typed m :=
      ⟨⟨_, .double _⟩, ha.precision, hceiling, ha.ceiling_le, ha.split⟩
    rcases ha.refused_or_exists flag with ⟨fault, hfault, hwith⟩ | ⟨r, hr⟩
    · left
      cases hwith with
      | unwritable h =>
        obtain ⟨hle, hlong⟩ := h.of_double
        exact ⟨_, _, hfault, ha'.search_eq_of_unwritable (.ceiling hle hlong) flag,
          .inr ⟨hle, hlong, rfl, rfl⟩⟩
      | invalid _ hkind =>
        obtain ⟨fault', hfault', hkind'⟩ := (hfaults .invalidInput).mpr ⟨fault, hfault, hkind⟩
        exact ⟨fault, fault', hfault, hfault', .inl ⟨hkind, hkind'⟩⟩
    · exact .inr ⟨r, hr, hresults hr⟩

/-- **Opposite values have opposite results** with truncation, and a value that is not negative has
the same result under both policies. -/
theorem signAndPolicy_of_denotes (hx : x.Denotes v) : SignAndPolicy s strict a x v :=
  ⟨mirrored_of_ne_zero hx, search_floor hx⟩

/-- The double nearest to `-π`, and its opposite. -/
theorem signAndPolicy_negPi :
    (ofBits 0xC00921FB54442D18).Denotes negPi ∧
      SignAndPolicy {} false (.negPi 100000 .truncate) (ofBits 0xC00921FB54442D18) negPi ∧
      ∃ r, search {} false (.negPi 100000 .truncate) = .ok r := by
  have hx : (ofBits 0xC00921FB54442D18).Denotes negPi := denotes_of_toExtended (by decide +kernel)
  have ha := accepted_negPi 100000 .truncate (by norm_num) (by norm_num)
  exact ⟨hx, signAndPolicy_of_denotes hx, ha.exists_search true⟩

end

end Mediant
