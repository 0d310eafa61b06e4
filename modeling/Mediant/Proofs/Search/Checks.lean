import Mediant.Approximation
import Mediant.Binary64.Bits
import Mediant.Proofs.Numbers
import Mediant.Proofs.Rounding.Range

/-!
# What the checks of arguments let pass

A caller who keeps to the types hands over numbers as value and precision, nothing or an integer as
ceiling, and nothing or a policy as split (`Arguments.Typed`).  For such arguments every check is
decided by exact comparisons: `exists_query_eq_ok` gives the query of arguments that pass them all
(`Arguments.Checked`, and `Arguments.Accepted` if the ceiling is at most `2 ^ 63`), and
`exists_query_eq_error` says that the others (`Arguments.Refused`) are refused with a fault of the
kind `invalidInput`, unless this fault would have to show an integer that is too long for that
(`Arguments.Unwritable`).

Of arguments of any other sort it is only said that the precision of their query is a positive
number (`exists_denotes_precision`).
-/

namespace Mediant

open Binary64

/-! ## The precision -/

/-- The value of the least precision. -/
def leastPrecision : ℚ := roundOff (1 / 10 ^ 15)

lemma denotes_leastPrecision : (quotient 1 1000000000000000).Denotes leastPrecision := by
  have h : Denotes (quotient 1 1000000000000000)
      (roundOff (((1 : ℤ) : ℚ) / ((1000000000000000 : ℤ) : ℚ))) :=
    denotes_rounded _ (by norm_num)
  have heq : ((1 : ℤ) : ℚ) / ((1000000000000000 : ℤ) : ℚ) = 1 / 10 ^ 15 := by norm_num
  rwa [heq] at h

/-- The least precision is some nine parts in `2 ^ 53`. -/
lemma le_leastPrecision : 89 / 10 / 2 ^ 53 ≤ leastPrecision := by
  have herr := abs_roundOff_sub_le_of_le (q := 1 / 10 ^ 15) (by norm_num)
  rw [abs_of_pos (by norm_num : (0 : ℚ) < 1 / 10 ^ 15), abs_le] at herr
  rw [leastPrecision]
  linarith [herr.1]

lemma leastPrecision_pos : 0 < leastPrecision :=
  lt_of_lt_of_le (by positivity) le_leastPrecision

variable {s : Settings} {a : Arguments}

lemma checkInput_eq (s : Settings) (value precision ceiling : Value) :
    checkInput s value precision ceiling =
      (orBeyondDoubles value value.toDouble >>= fun v =>
        orBeyondDoubles value precision.toDouble >>= fun p =>
          if !v.isFinite then .error (.nonFiniteValue v)
          else if !p.isFinite then
            s.leastPrecision.shown >>= fun least => .error (.precisionRefused least p)
          else (Value.double p).holds .less s.leastPrecision >>= fun less =>
            if less then s.leastPrecision.shown >>= fun least => .error (.precisionRefused least p)
            else (Value.double v.abs).holds .atLeast ceiling >>= fun beyond =>
              if beyond then ceiling.shown >>= fun m => .error (.magnitudeRefused v m)
              else .ok (v, p)) :=
  rfl

/-- A fault of a conversion can be replaced, but not its result. -/
lemma orBeyondDoubles_eq_ok_iff {α : Type} {value : Value} {c : Except Fault α} {d : α} :
    orBeyondDoubles value c = .ok d ↔ c = .ok d := by
  cases c with
  | ok d' => rfl
  | error fault =>
    refine iff_of_false ?_ nofun
    simp only [orBeyondDoubles]
    split
    · exact Except.bind_error_ne_ok
    · exact nofun

/-- Value and precision that pass the checks are what the arguments convert to, and the precision
is finite and not below the least one. -/
lemma of_checkInput_eq_ok {value precision ceiling : Value} {v p : Binary64}
    (h : checkInput s value precision ceiling = .ok (v, p)) :
    value.toDouble = .ok v ∧ precision.toDouble = .ok p ∧ p.isFinite = true ∧
      (Value.double p).holds .less s.leastPrecision = .ok false := by
  rw [checkInput_eq] at h
  obtain ⟨v', hv, h⟩ := Except.bind_eq_ok.mp h
  obtain ⟨p', hp, h⟩ := Except.bind_eq_ok.mp h
  split at h
  · cases h
  split at h
  · exact absurd h Except.bind_error_ne_ok
  rename_i hfinite
  obtain ⟨less, hless, h⟩ := Except.bind_eq_ok.mp h
  split at h
  · exact absurd h Except.bind_error_ne_ok
  rename_i hnotless
  obtain ⟨beyond, -, h⟩ := Except.bind_eq_ok.mp h
  split at h
  · exact absurd h Except.bind_error_ne_ok
  obtain ⟨rfl, rfl⟩ := Prod.mk.inj (Except.ok.inj h)
  rw [Bool.not_eq_true] at hnotless
  rw [hnotless] at hless
  rw [Bool.not_eq_true, Bool.not_eq_false'] at hfinite
  exact ⟨orBeyondDoubles_eq_ok_iff.mp hv, orBeyondDoubles_eq_ok_iff.mp hp, hfinite, hless⟩

lemma exists_checkInput_eq_ok {q : Query Value} {bound : Value}
    (h : a.query s = .ok (q, bound)) :
    ∃ ceiling, checkInput s a.value a.precision ceiling = .ok (q.value, q.precision) := by
  unfold Arguments.query at h
  obtain ⟨ceiling, -, h⟩ := Except.bind_eq_ok.mp h
  obtain ⟨⟨v, p⟩, hcheck, h⟩ := Except.bind_eq_ok.mp h
  obtain ⟨policy, -, h⟩ := Except.bind_eq_ok.mp h
  obtain ⟨exact, -, h⟩ := Except.bind_eq_ok.mp h
  rw [← (Prod.mk.inj (Except.ok.inj h)).1]
  exact ⟨ceiling, hcheck⟩

lemma precision_of_query_eq_ok {q : Query Value} {bound : Value}
    (h : a.query s = .ok (q, bound)) : q.precision.isFinite = true ∧
      (Value.double q.precision).holds .less s.leastPrecision = .ok false := by
  obtain ⟨ceiling, hcheck⟩ := exists_checkInput_eq_ok h
  exact (of_checkInput_eq_ok hcheck).2.2

lemma value_of_query_eq_ok {q : Query Value} {bound : Value}
    (h : a.query s = .ok (q, bound)) : a.value.toDouble = .ok q.value := by
  obtain ⟨ceiling, hcheck⟩ := exists_checkInput_eq_ok h
  exact (of_checkInput_eq_ok hcheck).1

lemma toDouble_precision_of_query_eq_ok {q : Query Value} {bound : Value}
    (h : a.query s = .ok (q, bound)) : a.precision.toDouble = .ok q.precision := by
  obtain ⟨ceiling, hcheck⟩ := exists_checkInput_eq_ok h
  exact (of_checkInput_eq_ok hcheck).2.1

/-- Under the least precision of the settings the precision of a query is positive. -/
lemma exists_denotes_precision {q : Query Value} {bound : Value}
    (hleast : s.leastPrecision = .double (quotient 1 1000000000000000))
    (h : a.query s = .ok (q, bound)) :
    ∃ p, q.precision.Denotes p ∧ leastPrecision ≤ p := by
  obtain ⟨hfinite, hholds⟩ := precision_of_query_eq_ok h
  rw [hleast, (Value.IsNumber.double _).holds_eq (.double _)] at hholds
  obtain ⟨p, hp⟩ := isFinite_iff.mp hfinite
  have hlt : (q.precision.toExtended).lt (quotient 1 1000000000000000).toExtended = false :=
    Except.ok.inj hholds
  rw [hp.toExtended, denotes_leastPrecision.toExtended, Extended.lt_rational,
    decide_eq_false_iff_not, not_lt] at hlt
  exact ⟨p, hp, hlt⟩

/-! ## Arguments of the intended sorts -/

/-- The settings of ceiling and seed are as they are at first. -/
structure Settings.Standard (s : Settings) : Prop where
  ceiling_eq : s.ceiling = .integer 0x7fffffffffffffff
  seed_eq : s.seed = .integer 2310

/-- The ceiling that a call asks for; the default one if it asks for none. -/
inductive Arguments.Ceiling (a : Arguments) : ℤ → Prop
  | default : a.ceiling = .nothing → Ceiling a 0x7fffffffffffffff
  | asked {m : ℤ} : a.ceiling.IsInteger m → Ceiling a m

/-- The arguments are of the sorts that a search is meant for, and the ceiling is in range. -/
structure Arguments.Typed (a : Arguments) (m : ℤ) : Prop where
  value : ∃ x, a.value.IsNumber x
  precision : ∃ y, a.precision.IsNumber y
  ceiling : a.Ceiling m
  ceiling_le : m ≤ 2 ^ 63
  split : a.split = .nothing ∨ ∃ policy, a.split = .policy policy

/-- What a search refuses: a ceiling that leaves no room above the seed, a value that is no finite
double, a precision that is none or is below the least one, and a value as large as the ceiling. -/
inductive Arguments.Refused (a : Arguments) (least : Extended) (m : ℤ) : Prop
  | ceiling : m ≤ 2310 → Refused a least m
  | value : (¬∃ x v, a.value.toDouble = .ok x ∧ x.Denotes v) → Refused a least m
  | precision : (¬∃ y p, a.precision.toDouble = .ok y ∧ y.Denotes p ∧
      (Extended.rational p).lt least = false) → Refused a least m
  | magnitude {x : Binary64} {v : ℚ} : a.value.toDouble = .ok x → x.Denotes v → m ≤ |v| →
      Refused a least m

/-- The arguments pass all checks: value and precision become the numbers `v` and `p`, and the
ceiling is `m`, of any size. -/
structure Arguments.Checked (a : Arguments) (least : Extended) (v p : ℚ) (m : ℤ)
    (policy : Splitting) : Prop where
  value : ∃ x, a.value.toDouble = .ok x ∧ x.Denotes v
  precision : ∃ y, a.precision.toDouble = .ok y ∧ y.Denotes p
  least_le : (Extended.rational p).lt least = false
  ceiling : a.Ceiling m
  seed_lt : 2310 < m
  abs_value_lt : |v| < m
  policy : resolvePolicy a.split = .ok policy

/-- The arguments pass all checks, and the ceiling is in the range of 64 bits. -/
structure Arguments.Accepted (a : Arguments) (least : Extended) (v p : ℚ) (m : ℤ)
    (policy : Splitting) : Prop extends a.Checked least v p m policy where
  ceiling_le : m ≤ 2 ^ 63

/-- What the fault of refused arguments would have to show is an integer that is too long: the
ceiling or, behind one that is not refused, the value. -/
inductive Arguments.Unwritable (a : Arguments) (m : ℤ) : Prop
  | ceiling : m ≤ 2310 → TooLong m → Unwritable a m
  | value {n : ℤ} : 2310 < m → a.value.IsInteger n → TooLong n → Unwritable a m

/-- The fault of refused arguments calls them invalid, unless it cannot be written. -/
inductive Arguments.RefusedWith (a : Arguments) (m : ℤ) : Fault → Prop
  | unwritable : a.Unwritable m → RefusedWith a m .integerTooLong
  | invalid {fault : Fault} : ¬a.Unwritable m → fault.kind = .invalidInput → RefusedWith a m fault

variable {m : ℤ} {least : Extended} {x y : Binary64} {v p : ℚ} {policy : Splitting}

/-- Of arguments of the intended sorts, those that are not refused are accepted. -/
lemma Arguments.Typed.exists_accepted (ha : a.Typed m) (h : ¬a.Refused least m) :
    ∃ v p policy, a.Accepted least v p m policy := by
  obtain ⟨x, v, hv, hx⟩ := not_not.mp fun hnone => h (.value hnone)
  obtain ⟨y, p, hp, hy, hleast⟩ := not_not.mp fun hnone => h (.precision hnone)
  have hpolicy : ∃ policy, resolvePolicy a.split = .ok policy := by
    rcases ha.split with hsplit | ⟨policy, hsplit⟩ <;> rw [hsplit] <;> exact ⟨_, rfl⟩
  obtain ⟨policy, hpolicy⟩ := hpolicy
  exact ⟨v, p, policy, ⟨⟨x, hv, hx⟩, ⟨y, hp, hy⟩, hleast, ha.ceiling,
    not_le.mp fun hle => h (.ceiling hle), not_le.mp fun hle => h (.magnitude hv hx hle), hpolicy⟩,
    ha.ceiling_le⟩

lemma not_tooLong_of_seed_lt (hlt : 2310 < m) (hle : m ≤ 2 ^ 63) : ¬TooLong m := by
  refine not_tooLong_of_abs_le ?_
  rwa [abs_of_pos (by omega)]

lemma Arguments.Accepted.not_tooLong (h : a.Accepted least v p m policy) : ¬TooLong m :=
  not_tooLong_of_seed_lt h.seed_lt h.ceiling_le

lemma Arguments.Accepted.leastPrecision_le
    (h : a.Accepted (.rational leastPrecision) v p m policy) : leastPrecision ≤ p := by
  have hlt := h.least_le
  rwa [Extended.lt_rational, decide_eq_false_iff_not, not_lt] at hlt

lemma resolveCeiling_of_isInteger {asked : Value} (hseed : s.seed = .integer 2310)
    (h : asked.IsInteger m) : resolveCeiling s asked =
      if m ≤ 2310 then asked.shown >>= fun text => .error (.ceilingRefused (toString 2310) text)
      else .ok (.integer m) := by
  have hholds := h.isNumber.holds_eq (.integer 2310) .atMost
  have hint := h.toInteger_eq
  have hshown : s.seed.shown = .ok (toString 2310) := by
    rw [hseed, Value.shown_integer, integerText, if_pos (by decide +kernel)]
    rfl
  have hcases : resolveCeiling s asked =
      (asked.holds .atMost s.seed >>= fun below =>
        if below then s.seed.shown >>= fun seed => asked.shown >>= fun text =>
          .error (.ceilingRefused seed text)
        else asked.toInteger >>= fun n => .ok (.integer n)) := by
    cases h <;> rfl
  rw [hcases, hshown, hseed, hholds, Except.bind_ok, Except.bind_ok, hint, Except.bind_ok,
    Relation.holdsExact, Extended.le_rational]
  simp only [decide_eq_true_eq, Int.cast_ofNat]
  have hcast : (m : ℚ) ≤ 2310 ↔ m ≤ 2310 := by exact_mod_cast Iff.rfl
  simp only [hcast]

/-- The fault of a ceiling that is refused shows the ceiling. -/
lemma exists_resolveCeiling_eq_error (hs : s.Standard) (hm : a.Ceiling m) (hle : m ≤ 2310) :
    ∃ fault, resolveCeiling s a.ceiling = .error fault ∧ a.RefusedWith m fault := by
  cases hm with
  | default => norm_num at hle
  | asked hint =>
    rw [resolveCeiling_of_isInteger hs.seed_eq hint, if_pos hle]
    by_cases hlong : TooLong m
    · rw [hint.shown_eq_error hlong, Except.bind_error]
      exact ⟨_, rfl, .unwritable (.ceiling hle hlong)⟩
    · obtain ⟨text, htext⟩ := hint.exists_shown_eq_ok hlong
      rw [htext, Except.bind_ok]
      refine ⟨_, rfl, .invalid ?_ rfl⟩
      rintro (⟨-, hm⟩ | ⟨hlt, -, -⟩)
      · exact hlong hm
      · omega

lemma resolveCeiling_eq_ok (hs : s.Standard) (hm : a.Ceiling m) (hlt : 2310 < m) :
    resolveCeiling s a.ceiling = .ok (.integer m) := by
  cases hm with
  | default hnone =>
    rw [hnone, resolveCeiling, hs.ceiling_eq]
  | asked hint => rw [resolveCeiling_of_isInteger hs.seed_eq hint, if_neg (not_le.mpr hlt)]

/-- On finite doubles, the checks of value and precision are two comparisons. -/
lemma checkInput_of_denotes {value precision : Value} (hleast : s.leastPrecision.IsNumber least)
    (hv : value.toDouble = .ok x) (hx : x.Denotes v) (hp : precision.toDouble = .ok y)
    (hy : y.Denotes p) : checkInput s value precision (.integer m) =
      if (Extended.rational p).lt least then
        s.leastPrecision.shown >>= fun least => .error (.precisionRefused least y)
      else if m ≤ |v| then
        (Value.integer m).shown >>= fun m => .error (.magnitudeRefused x m)
      else .ok (x, y) := by
  have hbeyond := (Value.IsNumber.double x.abs).holds_eq (.integer m) .atLeast
  have hless := (Value.IsNumber.double y).holds_eq hleast .less
  rw [hx.abs.toExtended, Relation.holdsExact, Extended.le_rational] at hbeyond
  rw [hy.toExtended, Relation.holdsExact] at hless
  rw [checkInput_eq, hv, hp, orBeyondDoubles, Except.bind_ok, orBeyondDoubles, Except.bind_ok,
    hx.isFinite, hy.isFinite, hless, Except.bind_ok, hbeyond, Except.bind_ok]
  simp only [Bool.not_true, Bool.false_eq_true, if_false, decide_eq_true_eq]

lemma exists_query_eq_ok (hs : s.Standard) (hleast : s.leastPrecision.IsNumber least)
    (h : a.Checked least v p m policy) :
    ∃ x y, a.value.toDouble = .ok x ∧ x.Denotes v ∧ y.Denotes p ∧
      a.query s = .ok (⟨x, y, .rational m, .integer 2310, policy⟩, .integer m) := by
  obtain ⟨x, hv, hx⟩ := h.value
  obtain ⟨y, hp, hy⟩ := h.precision
  refine ⟨x, y, hv, hx, hy, ?_⟩
  rw [Arguments.query, resolveCeiling_eq_ok hs h.ceiling h.seed_lt, Except.bind_ok,
    checkInput_of_denotes hleast hv hx hp hy, h.least_le, if_neg Bool.false_ne_true,
    if_neg (not_le.mpr h.abs_value_lt), Except.bind_ok]
  dsimp only
  rw [h.policy, Except.bind_ok, hs.seed_eq]
  rfl

/-! ### Refusal -/

/-- An integer that is too long is beyond all doubles. -/
lemma Value.IsInteger.toDouble_ne_ok {value : Value} {n : ℤ} (hn : value.IsInteger n)
    (hlong : TooLong n) : value.toDouble ≠ .ok x := by
  intro hx
  cases hn with
  | boolean b => exact Value.not_tooLong_toInt b hlong
  | integer n =>
    have hlt := (denotes_of_toDouble_eq_ok hx).abs_lt
    have hpow : (2 : ℤ) ^ 1024 ≤ 10 ^ 4300 :=
      (pow_le_pow_left₀ (by norm_num) (by norm_num) 1024).trans
        (pow_le_pow_right₀ (by norm_num) (by norm_num))
    have hle : ((2 ^ 1024 : ℤ) : ℚ) ≤ ((|n| : ℤ) : ℚ) := Int.cast_le.mpr (hpow.trans hlong)
    rw [Int.cast_pow, Int.cast_ofNat, ← overflowValue_eq, Int.cast_abs] at hle
    have hround := representable_overflowValue.le_roundOff hle
    rw [← abs_roundOff_eq] at hround
    exact absurd hlt (not_lt.mpr hround)

lemma Arguments.Unwritable.refused (h : a.Unwritable m) : a.Refused least m := by
  cases h with
  | ceiling hle => exact .ceiling hle
  | value _ hn hlong => exact .value fun ⟨_, _, hx, _⟩ => hn.toDouble_ne_ok hlong hx

/-- A refusal that neither the ceiling nor a conversion explains is one of the two comparisons. -/
lemma Arguments.Refused.le_abs (h : a.Refused least m) (hlt : 2310 < m)
    (hv : a.value.toDouble = .ok x) (hx : x.Denotes v) (hp : a.precision.toDouble = .ok y)
    (hy : y.Denotes p) (hless : (Extended.rational p).lt least = false) : m ≤ |v| := by
  cases h with
  | ceiling hle => omega
  | value hnone => exact absurd ⟨x, v, hv, hx⟩ hnone
  | precision hnone => exact absurd ⟨y, p, hp, hy, hless⟩ hnone
  | magnitude hv' hx' hle =>
    rw [hv] at hv'
    rw [← Except.ok.inj hv'] at hx'
    rwa [hx.unique hx']

/-- The fault of a conversion that is out of range shows the value. -/
lemma exists_orBeyondDoubles_eq_error {α : Type} {y : Extended} (hvalue : a.value.IsNumber y)
    (hlt : 2310 < m) : ∃ fault,
      orBeyondDoubles a.value (.error .integerTooLarge : Except Fault α) = .error fault ∧
        a.RefusedWith m fault := by
  have heq : orBeyondDoubles a.value (.error .integerTooLarge : Except Fault α) =
      (a.value.shown >>= fun text => .error (.beyondDoubles text)) := rfl
  rw [heq]
  rcases hvalue.shown_cases with ⟨text, htext⟩ | ⟨n, hn, hlong⟩
  · rw [htext, Except.bind_ok]
    refine ⟨_, rfl, .invalid ?_ rfl⟩
    rintro (⟨hle, -⟩ | ⟨-, hn, hlong⟩)
    · omega
    · rw [hn.shown_eq_error hlong] at htext
      cases htext
  · rw [hn.shown_eq_error hlong, Except.bind_error]
    exact ⟨_, rfl, .unwritable (.value hlt hn hlong)⟩

/-- Two doubles that are refused do not pass the checks.  Since the value is a double, its text is
no obstacle. -/
lemma exists_checkInput_eq_error_of_toDouble (hleast : s.leastPrecision.IsNumber least)
    (htext : ∃ text, s.leastPrecision.shown = .ok text) (ha : a.Typed m) (h : a.Refused least m)
    (hlt : 2310 < m) (hv : a.value.toDouble = .ok x) (hp : a.precision.toDouble = .ok y) :
    ∃ fault, checkInput s a.value a.precision (.integer m) = .error fault ∧
      a.RefusedWith m fault := by
  obtain ⟨text, htext⟩ := htext
  have hwritable : ¬a.Unwritable m := by
    rintro (⟨hle, -⟩ | ⟨-, hn, hlong⟩)
    · omega
    · exact hn.toDouble_ne_ok hlong hv
  by_cases hxfin : ∃ v, x.Denotes v
  swap
  · have hx : x.isFinite = false := Bool.eq_false_iff.mpr fun h => hxfin (isFinite_iff.mp h)
    rw [checkInput_eq, hv, hp, orBeyondDoubles, Except.bind_ok, orBeyondDoubles, Except.bind_ok, hx]
    exact ⟨_, rfl, .invalid hwritable rfl⟩
  obtain ⟨v, hx⟩ := hxfin
  by_cases hyfin : ∃ p, y.Denotes p
  swap
  · have hy : y.isFinite = false := Bool.eq_false_iff.mpr fun h => hyfin (isFinite_iff.mp h)
    rw [checkInput_eq, hv, hp, orBeyondDoubles, Except.bind_ok, orBeyondDoubles, Except.bind_ok,
      hx.isFinite, hy, htext]
    exact ⟨_, rfl, .invalid hwritable rfl⟩
  obtain ⟨p, hy⟩ := hyfin
  rw [checkInput_of_denotes hleast hv hx hp hy, htext]
  cases hless : (Extended.rational p).lt least with
  | true => exact ⟨_, rfl, .invalid hwritable rfl⟩
  | false =>
    obtain ⟨text, htext⟩ := (Value.IsInteger.integer m).exists_shown_eq_ok
      (not_tooLong_of_seed_lt hlt ha.ceiling_le)
    rw [if_neg Bool.false_ne_true, if_pos (h.le_abs hlt hv hx hp hy hless), htext]
    exact ⟨_, rfl, .invalid hwritable rfl⟩

lemma exists_checkInput_eq_error (hleast : s.leastPrecision.IsNumber least)
    (htext : ∃ text, s.leastPrecision.shown = .ok text) (ha : a.Typed m) (h : a.Refused least m)
    (hlt : 2310 < m) : ∃ fault, checkInput s a.value a.precision (.integer m) = .error fault ∧
      a.RefusedWith m fault := by
  obtain ⟨_, hvalue⟩ := ha.value
  obtain ⟨_, hprec⟩ := ha.precision
  rcases hvalue.toDouble_cases with ⟨x, hv⟩ | hv
  · rcases hprec.toDouble_cases with ⟨y, hp⟩ | hp
    · exact exists_checkInput_eq_error_of_toDouble hleast htext ha h hlt hv hp
    · obtain ⟨fault, hfault, hwith⟩ := exists_orBeyondDoubles_eq_error hvalue hlt
      rw [checkInput_eq, hv, hp, hfault, orBeyondDoubles, Except.bind_ok]
      exact ⟨fault, rfl, hwith⟩
  · obtain ⟨fault, hfault, hwith⟩ := exists_orBeyondDoubles_eq_error hvalue hlt
    rw [checkInput_eq, hv, hfault]
    exact ⟨fault, rfl, hwith⟩

lemma exists_query_eq_error (hs : s.Standard) (hleast : s.leastPrecision.IsNumber least)
    (htext : ∃ text, s.leastPrecision.shown = .ok text) (ha : a.Typed m) (h : a.Refused least m) :
    ∃ fault, a.query s = .error fault ∧ a.RefusedWith m fault := by
  rcases le_or_gt m 2310 with hle | hlt
  · obtain ⟨fault, hfault, hwith⟩ := exists_resolveCeiling_eq_error hs ha.ceiling hle
    exact ⟨fault, by rw [Arguments.query, hfault, Except.bind_error], hwith⟩
  · obtain ⟨fault, hfault, hwith⟩ := exists_checkInput_eq_error hleast htext ha h hlt
    refine ⟨fault, ?_, hwith⟩
    rw [Arguments.query, resolveCeiling_eq_ok hs ha.ceiling hlt, Except.bind_ok, hfault,
      Except.bind_error]

/-- Two doubles alone are accepted with the default ceiling and with truncation. -/
lemma accepted_of_denotes (hx : x.Denotes v) (hy : y.Denotes p) (hp : leastPrecision ≤ p)
    (hv : |v| < (0x7fffffffffffffff : ℤ)) :
    ({ value := .double x, precision := .double y } : Arguments).Accepted
      (.rational leastPrecision) v p 0x7fffffffffffffff .truncate := by
  refine ⟨⟨⟨x, rfl, hx⟩, ⟨y, rfl, hy⟩, ?_, .default rfl, by norm_num, hv, rfl⟩, by norm_num⟩
  rw [Extended.lt_rational, decide_eq_false_iff_not, not_lt]
  exact hp

/-! ## An example of accepted arguments -/

/-- The double nearest to `-π`, to be approximated with a precision of `2 ^ (-40)`. -/
def Arguments.negPi (ceiling : ℤ) (policy : Splitting) : Arguments where
  value := .double (.ofBits 0xC00921FB54442D18)
  precision := .double (.ofBits 0x3D70000000000000)
  ceiling := .integer ceiling
  split := .policy policy

/-- The exact value of the double nearest to `-π`. -/
def negPi : ℚ := -884279719003555 / 281474976710656

lemma accepted_negPi (m : ℤ) (policy : Splitting) (hlt : 2310 < m) (hle : m ≤ 2 ^ 63) :
    (Arguments.negPi m policy).Accepted (.rational leastPrecision) negPi (1 / 2 ^ 40) m policy := by
  have hvalue : (ofBits 0xC00921FB54442D18).Denotes negPi :=
    denotes_of_toExtended (by decide +kernel)
  have hprecision : (ofBits 0x3D70000000000000).Denotes (1 / 2 ^ 40) :=
    denotes_of_toExtended (by decide +kernel)
  have hleast : leastPrecision ≤ 1 / 2 ^ 40 := hprecision.representable.roundOff_le (by norm_num)
  have hfour : |negPi| < 4 := by norm_num [negPi, abs_of_neg]
  have hm : (4 : ℚ) ≤ m := by exact_mod_cast (by omega : (4 : ℤ) ≤ m)
  refine ⟨⟨⟨_, rfl, hvalue⟩, ⟨_, rfl, hprecision⟩, ?_, .asked (.integer m), hlt,
    hfour.trans_le hm, rfl⟩, hle⟩
  rw [Extended.lt_rational, decide_eq_false_iff_not, not_lt]
  exact hleast

end Mediant
