import Mathlib.Tactic
import Mediant.Proofs.Faults
import Mediant.Value.Comparison
import Mediant.Value.Number

/-!
# Numbers among values

`Value.IsNumber` says that a value is an integer, a truth value or a double, and which number it
stands for; `Value.IsInteger` leaves the doubles out.  Numbers are compared exactly, and become
doubles unless they are integers out of range.

Each of them has a text, unless it is an integer of more than 4300 digits.
-/

namespace Mediant

open Binary64

namespace Value

/-- The value is an integer, a truth value or a double, and stands for the given number. -/
inductive IsNumber : Value → Extended → Prop
  | integer (n : ℤ) : IsNumber (.integer n) (.rational n)
  | boolean (b : Bool) : IsNumber (.boolean b) (.rational b.toInt)
  | double (x : Binary64) : IsNumber (.double x) x.toExtended
  | undefined (format : Format) (mark : ℕ) : IsNumber (.undefined format mark) .undefined

/-- The value is an integer or a truth value, and stands for the given integer. -/
inductive IsInteger : Value → ℤ → Prop
  | integer (n : ℤ) : IsInteger (.integer n) n
  | boolean (b : Bool) : IsInteger (.boolean b) b.toInt

variable {v w : Value} {x y : Extended} {n : ℤ}

lemma IsInteger.isNumber (h : v.IsInteger n) : v.IsNumber (.rational n) := by
  cases h with
  | integer n => exact .integer n
  | boolean b => exact .boolean b

lemma IsInteger.toInteger_eq (h : v.IsInteger n) : v.toInteger = .ok n := by
  cases h <;> rfl

/-- Numbers are compared exactly. -/
lemma IsNumber.holds_eq (hv : v.IsNumber x) (hw : w.IsNumber y) (r : Relation) :
    v.holds r w = .ok (r.holdsExact x y) := by
  cases hv <;> cases hw <;>
    simp only [holds, holdsSimple, settled, Except.bind_ok, holdsSettled, facing, number?, double?,
      integer?] <;> rfl

lemma IsNumber.toDouble_cases (h : v.IsNumber x) :
    (∃ d, v.toDouble = .ok d) ∨ v.toDouble = .error .integerTooLarge := by
  have hint : ∀ n : ℤ, (∃ d, Mediant.toDouble n = .ok d) ∨
      Mediant.toDouble n = .error .integerTooLarge := by
    intro n
    rw [Mediant.toDouble]
    cases Binary64.ofInt n with
    | finite y => exact .inl ⟨_, rfl⟩
    | infinity s => exact .inr rfl
    | nan => exact .inr rfl
  cases h with
  | integer n => exact hint n
  | boolean b => exact hint b.toInt
  | double y => exact .inl ⟨y, rfl⟩
  | undefined => exact .inl ⟨.nan, rfl⟩

end Value

/-! ## Texts -/

/-- The numeral of the integer has more than 4300 digits. -/
def TooLong (n : ℤ) : Prop := 10 ^ 4300 ≤ |n|

lemma natAbs_lt_powerOfTen_iff {n : ℤ} {k : ℕ} :
    n.natAbs < Decimal.powerOfTen k ↔ |n| < 10 ^ k := by
  rw [← Int.natCast_natAbs]
  exact_mod_cast Iff.rfl

lemma tooLong_iff {n : ℤ} : TooLong n ↔ Decimal.isShort n = false := by
  rw [TooLong, ← Bool.not_eq_true, Decimal.isShort_iff, natAbs_lt_powerOfTen_iff,
    Decimal.digitLimit, not_lt]

lemma not_tooLong_iff {n : ℤ} : ¬TooLong n ↔ Decimal.isShort n = true := by
  rw [tooLong_iff, Bool.not_eq_false]

/-- Integers of 64 bits are not too long. -/
lemma not_tooLong_of_abs_le {n : ℤ} (h : |n| ≤ 2 ^ 63) : ¬TooLong n := by
  have hpow : (2 : ℤ) ^ 63 < 10 ^ 4300 :=
    (by norm_num : (2 : ℤ) ^ 63 < 10 ^ 63).trans_le
      (pow_le_pow_right₀ (by norm_num) (by norm_num))
  exact not_le.mpr (h.trans_lt hpow)

lemma integerText_eq_ok {n : ℤ} (h : ¬TooLong n) : integerText n = .ok (toString n) := by
  rw [integerText, if_pos (not_tooLong_iff.mp h)]

lemma integerText_eq_error {n : ℤ} (h : TooLong n) : integerText n = .error .integerTooLong := by
  rw [integerText, tooLong_iff.mp h, if_neg Bool.false_ne_true]

lemma Fraction.ofPair_eq_ok_iff {num denom : ℤ} {f : Fraction} :
    ofPair num denom = .ok f ↔ f.num = num ∧ f.denom = denom := by
  unfold ofPair
  split
  · rename_i hzero
    refine iff_of_false ?_ fun ⟨_, hdenom⟩ => f.denom_ne_zero (hdenom.trans hzero)
    intro h
    obtain ⟨_, -, h⟩ := Except.bind_eq_ok.mp h
    exact absurd h Except.bind_error_ne_ok
  · constructor
    · intro h
      rw [← Except.ok.inj h]
      exact ⟨rfl, rfl⟩
    · rintro ⟨rfl, rfl⟩
      rfl

namespace Value

variable {v : Value} {x : Extended} {n : ℤ}

lemma not_tooLong_toInt (b : Bool) : ¬TooLong b.toInt := by
  rw [not_tooLong_iff]
  cases b <;> decide +kernel

lemma IsInteger.exists_shown_eq_ok (h : v.IsInteger n) (hn : ¬TooLong n) :
    ∃ text, v.shown = .ok text := by
  cases h with
  | integer n => exact ⟨_, (shown_integer n).trans (integerText_eq_ok hn)⟩
  | boolean b => exact ⟨_, rfl⟩

lemma IsInteger.shown_eq_error (h : v.IsInteger n) (hn : TooLong n) :
    v.shown = .error .integerTooLong := by
  cases h with
  | integer n => rw [shown_integer, integerText_eq_error hn]
  | boolean b => exact absurd hn (not_tooLong_toInt b)

/-- A number without a text is an integer that is too long. -/
lemma IsNumber.shown_cases (h : v.IsNumber x) :
    (∃ text, v.shown = .ok text) ∨ ∃ n, v.IsInteger n ∧ TooLong n := by
  cases h with
  | integer n =>
    by_cases hn : TooLong n
    · exact .inr ⟨n, .integer n, hn⟩
    · exact .inl ((IsInteger.integer n).exists_shown_eq_ok hn)
  | boolean b => exact .inl ⟨_, rfl⟩
  | double y => exact .inl ⟨_, rfl⟩
  | undefined => exact .inl ⟨_, rfl⟩

end Value
end Mediant
