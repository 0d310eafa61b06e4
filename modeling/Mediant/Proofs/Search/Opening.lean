import Mediant.Proofs.Bracket.Noise
import Mediant.Proofs.Rounding.Parts
import Mediant.Proofs.Search.Stages

/-!
# The opening of a search

A query for a finite double with a positive precision, `Query.Posed`, splits its value without a
fault, finds the remainder in a cell of the starting lattice, and hands a bracket over to the
refinement that meets all that is asked of one under any ceiling up to `2 ^ 63` (`Posed.start`,
`holds_cellNumber`).

`Query.Admissible` adds what the checks of arguments guarantee under such a ceiling.  Then the
refinement returns as well (`Admissible.exists_stages`).

What is split is `operand v`: the absolute value with truncation, the value itself with flooring.
With truncation the remainder is exact; with flooring it is rounded once.
-/

namespace Mediant
namespace Query

open Binary64

/-- A query for a finite double with a positive precision, on the lattice of the usual seed. -/
structure Posed (q : Query ℤ) (v p : ℚ) : Prop where
  value : q.value.Denotes v
  precision : q.precision.Denotes p
  precision_pos : 0 < p
  seed_eq : q.seed = 2310

/-- What the checks guarantee of a query on the lattice of the usual seed. -/
structure Admissible (q : Query ℤ) (v p : ℚ) (m : ℤ) : Prop where
  value : q.value.Denotes v
  precision : q.precision.Denotes p
  precision_pos : 0 < p
  ceiling : q.ceiling = .rational m
  ceiling_le : m ≤ 2 ^ 63
  seed_eq : q.seed = 2310
  seed_lt : 2310 < m
  abs_value_lt : |v| < m

/-- The number that a query splits. -/
def operand (q : Query ℤ) (v : ℚ) : ℚ := if q.policy = .truncate then |v| else v

/-- The remainder of the number that a query splits. -/
def remainder (q : Query ℤ) (v : ℚ) : ℚ := roundOff (Int.fract (q.operand v))

/-- The cell of the remainder. -/
def cellNumber (q : Query ℤ) (v : ℚ) : ℤ := ⌊roundOff (q.remainder v * 2310)⌋

lemma part_operand (q : Query ℤ) (v : ℚ) : q.policy.part (q.operand v) = ⌊q.operand v⌋ := by
  cases hpolicy : q.policy with
  | truncate =>
    rw [operand, if_pos hpolicy, Splitting.part_of_nonneg _ (abs_nonneg v)]
  | floor => rfl

lemma remainder_nonneg (q : Query ℤ) (v : ℚ) : 0 ≤ q.remainder v :=
  roundOff_nonneg (Int.fract_nonneg _)

lemma remainder_le_one (q : Query ℤ) (v : ℚ) : q.remainder v ≤ 1 :=
  representable_one.roundOff_le (Int.fract_lt_one _).le

lemma cellNumber_nonneg (q : Query ℤ) (v : ℚ) : 0 ≤ q.cellNumber v :=
  Int.floor_nonneg.mpr (roundOff_nonneg (mul_nonneg (q.remainder_nonneg v) (by norm_num)))

lemma representable_seed : Representable 2310 := by
  exact_mod_cast representable_intCast (n := 2310) (by norm_num)

lemma roundOff_remainder_mul_le (q : Query ℤ) (v : ℚ) :
    roundOff (q.remainder v * 2310) ≤ 2310 :=
  representable_seed.roundOff_le (by linarith [q.remainder_le_one v])

lemma cellNumber_le (q : Query ℤ) (v : ℚ) : q.cellNumber v ≤ 2310 := by
  have h := Int.floor_le_floor (q.roundOff_remainder_mul_le v)
  rwa [Int.floor_ofNat] at h

/-- The cell holds the remainder, up to the allowance for rounding. -/
lemma holds_cellNumber (q : Query ℤ) (v : ℚ) :
    (Bracket.cell 2310 (q.cellNumber v)).Holds (q.remainder v) :=
  Bracket.holds_cell (by norm_num) (q.remainder_nonneg v) (q.remainder_le_one v)

variable {q : Query ℤ} {v p : ℚ} {m : ℤ}

/-! ## Under any ceiling -/

namespace Posed

lemma negated_eq (h : q.Posed v p) :
    q.negated = (decide (q.policy = .truncate) && decide (v < 0)) := by
  rw [negated, h.value.lt (denotes_zero false)]

lemma denotes_operand (h : q.Posed v p) :
    (if q.negated then q.value.neg else q.value).Denotes (q.operand v) := by
  rw [h.negated_eq, operand]
  by_cases hpolicy : q.policy = .truncate
  · by_cases hv : v < 0
    · simpa [hpolicy, hv, abs_of_neg hv] using h.value.neg
    · simpa [hpolicy, hv, abs_of_nonneg (not_lt.mp hv)] using h.value
  · simpa [hpolicy] using h.value

lemma sign_mul_operand (h : q.Posed v p) : q.sign * q.operand v = v := by
  rw [sign, h.negated_eq, operand]
  by_cases hpolicy : q.policy = .truncate
  · by_cases hv : v < 0
    · simp [hpolicy, hv, abs_of_neg hv]
    · simp [hpolicy, hv, abs_of_nonneg (not_lt.mp hv)]
  · simp [hpolicy]

lemma exists_split_eq (h : q.Posed v p) :
    ∃ x, q.split = .ok (⌊q.operand v⌋, x) ∧ x.Denotes (q.remainder v) := by
  obtain ⟨x, hsplit, hx⟩ := h.denotes_operand.split_eq q.policy
  rw [q.part_operand] at hsplit
  rw [Splitting.rest, q.part_operand] at hx
  exact ⟨x, hsplit, hx⟩

lemma remainder_eq (h : q.Posed v p) (hpolicy : q.policy = .truncate) :
    q.remainder v = Int.fract |v| := by
  have hoperand : q.operand v = |v| := if_pos hpolicy
  have hrep := h.denotes_operand.representable
  rw [remainder, hoperand]
  rw [hoperand] at hrep
  exact (hrep.fract (abs_nonneg v)).roundOff_eq

lemma cell (h : q.Posed v p) {x : Binary64} (hx : x.Denotes (q.remainder v)) :
    q.Cell x (q.cellNumber v) := by
  have hseed : roundOff ((2310 : ℤ) : ℚ) = 2310 := representable_seed.roundOff_eq
  obtain ⟨d, hd, hdden⟩ := toDouble_eq (n := 2310) (by
    rw [hseed]
    exact lt_of_lt_of_le (by norm_num) le_overflowValue)
  rw [hseed] at hdden
  have hprod : (x.mul d).Denotes (roundOff (q.remainder v * 2310)) := by
    refine hx.mul hdden (abs_roundOff_lt_overflowValue ?_)
    rw [abs_of_nonneg (mul_nonneg (q.remainder_nonneg v) (by norm_num))]
    linarith [q.remainder_le_one v]
  refine ⟨d, ?_, hprod.toInteger_floor⟩
  rw [h.seed_eq]
  exact hd

/-- The refinement starts from what it needs, under any ceiling in range. -/
lemma start (h : q.Posed v p) {x : Binary64} (hx : x.Denotes (q.remainder v)) (hlt : 2310 < m)
    (hle : m ≤ 2 ^ 63) : Bracket.Start 2310 (q.remainder v) p m
      ⟨x, q.precision, .rational m⟩ (.cell 2310 (q.cellNumber v)) where
  seed_pos := by norm_num
  ceiling_le := by exact_mod_cast hle
  denotes :=
    { target := hx
      target_nonneg := q.remainder_nonneg v
      target_le_one := q.remainder_le_one v
      precision := h.precision
      precision_pos := h.precision_pos
      ceiling := rfl
      ceiling_lt := by
        have hm : (m : ℚ) ≤ 2 ^ 63 := by exact_mod_cast hle
        exact lt_of_lt_of_le (hm.trans_lt (by norm_num)) le_overflowValue }
  bounded := Bracket.bounded_cell (by norm_num) (by exact_mod_cast hlt)
    (q.cellNumber_nonneg v) (q.cellNumber_le v)

end Posed

/-! ## Under a ceiling in range -/

namespace Admissible

lemma posed (h : q.Admissible v p m) : q.Posed v p :=
  ⟨h.value, h.precision, h.precision_pos, h.seed_eq⟩

lemma denotes_operand (h : q.Admissible v p m) :
    (if q.negated then q.value.neg else q.value).Denotes (q.operand v) := h.posed.denotes_operand

lemma exists_split_eq (h : q.Admissible v p m) :
    ∃ x, q.split = .ok (⌊q.operand v⌋, x) ∧ x.Denotes (q.remainder v) := h.posed.exists_split_eq

lemma cell (h : q.Admissible v p m) {x : Binary64} (hx : x.Denotes (q.remainder v)) :
    q.Cell x (q.cellNumber v) := h.posed.cell hx

/-- The refinement starts from what it needs. -/
lemma start (h : q.Admissible v p m) {x : Binary64} (hx : x.Denotes (q.remainder v)) :
    Bracket.Start 2310 (q.remainder v) p m (q.goal x) (.cell 2310 (q.cellNumber v)) := by
  rw [goal, h.ceiling]
  exact h.posed.start hx h.seed_lt h.ceiling_le

lemma sign_mul_operand (h : q.Admissible v p m) : q.sign * q.operand v = v :=
  h.posed.sign_mul_operand

/-- The distance of a fraction from the value is that of its bound from the exact remainder. -/
lemma abs_restored_sub (h : q.Admissible v p m) {a : Bound ℤ} {f : Fraction}
    (hf : q.Restores ⌊q.operand v⌋ a f) :
    |f.toRat - v| = |a.toRat - Int.fract (q.operand v)| := by
  have hsign : |(q.sign : ℚ)| = 1 := by exact_mod_cast q.abs_sign
  have hsplit := Int.floor_add_fract (q.operand v)
  have heq : f.toRat - v = q.sign * (a.toRat - Int.fract (q.operand v)) := by
    rw [hf.toRat_eq]
    linear_combination (q.sign : ℚ) * hsplit + h.sign_mul_operand
  rw [heq, abs_mul, hsign, one_mul]

lemma remainder_eq (h : q.Admissible v p m) (hpolicy : q.policy = .truncate) :
    q.remainder v = Int.fract |v| := h.posed.remainder_eq hpolicy

/-- The refinement of an admissible query returns. -/
theorem exists_stages (h : q.Admissible v p m) : ∃ x n c o, x.Denotes (q.remainder v) ∧
    q.refine = .ok (⌊q.operand v⌋, o) ∧ q.Stages ⌊q.operand v⌋ x (q.cellNumber v) n c o := by
  obtain ⟨x, hsplit, hx⟩ := h.exists_split_eq
  have hcell := h.cell hx
  obtain ⟨o, hrun⟩ := (h.start hx).exists_run_eq_ok
  obtain ⟨n, c, hreach, hends⟩ := Bracket.exists_reaches_of_run_eq_ok hrun
  rw [Nat.zero_add] at hends
  rw [← h.seed_eq] at hrun hreach
  exact ⟨x, n, c, o, hx, refine_eq_ok hsplit hcell hrun, hsplit, hcell, hreach, hends⟩

end Admissible
end Query
end Mediant
