import Mediant.Proofs.Faults
import Mediant.Proofs.Rounding.IntegerPart
import Mediant.Splitting

/-!
# The parts of a double

A policy splits a number into an integer, `Splitting.part`, and the rest, `Splitting.rest`.  A
finite double is split into that integer and the rest rounded to a double (`Denotes.split_eq`).

Under truncation the rest of a negative number is that of its absolute value with the sign turned
over, so nothing is rounded on either side of zero (`Representable.rest_truncate`).
-/

namespace Mediant

namespace Splitting

variable {v : ℚ}

/-- The integer part of a number, toward zero or down. -/
def part : Splitting → ℚ → ℤ
  | truncate, v => if v < 0 then ⌈v⌉ else ⌊v⌋
  | floor, v => ⌊v⌋

/-- What the integer part leaves of a number. -/
def rest (p : Splitting) (v : ℚ) : ℚ := v - p.part v

lemma part_add_rest (p : Splitting) (v : ℚ) : p.part v + p.rest v = v := add_sub_cancel _ _

lemma rest_floor (v : ℚ) : floor.rest v = Int.fract v := rfl

/-- Toward zero is down for numbers that are not negative, and up for the ones that are not
positive. -/
lemma part_truncate (v : ℚ) :
    (0 ≤ v → truncate.part v = ⌊v⌋) ∧ (v ≤ 0 → truncate.part v = ⌈v⌉) := by
  rcases lt_trichotomy v 0 with hneg | rfl | hpos
  · exact ⟨fun h => absurd hneg (not_lt.mpr h), fun _ => if_pos hneg⟩
  · exact ⟨fun _ => rfl, fun _ => rfl⟩
  · exact ⟨fun _ => if_neg hpos.not_gt, fun h => absurd hpos (not_lt.mpr h)⟩

lemma part_truncate_of_neg (h : v < 0) : truncate.part v = -⌊-v⌋ := by
  rw [(part_truncate v).2 h.le, Int.floor_neg, Int.neg_neg]

lemma part_of_nonneg (p : Splitting) (h : 0 ≤ v) : p.part v = ⌊v⌋ := by
  cases p with
  | truncate => exact (part_truncate v).1 h
  | floor => rfl

lemma rest_of_nonneg (p : Splitting) (h : 0 ≤ v) : p.rest v = Int.fract v := by
  rw [rest, p.part_of_nonneg h, Int.fract]

lemma rest_truncate_of_neg (h : v < 0) : truncate.rest v = -Int.fract (-v) := by
  rw [rest, part_truncate_of_neg h, Int.fract]
  push_cast
  ring

/-- With truncation the remainder is zero, or it has the sign of the number. -/
lemma rest_truncate_sign (v : ℚ) :
    (0 ≤ v → 0 ≤ truncate.rest v) ∧ (v ≤ 0 → truncate.rest v ≤ 0) := by
  rcases lt_trichotomy v 0 with hneg | rfl | hpos
  · rw [rest_truncate_of_neg hneg]
    exact ⟨fun h => absurd hneg (not_lt.mpr h), fun _ => neg_nonpos.mpr (Int.fract_nonneg _)⟩
  · rw [rest_of_nonneg _ le_rfl, Int.fract_zero]
    exact ⟨fun _ => le_rfl, fun _ => le_rfl⟩
  · rw [rest_of_nonneg _ hpos.le]
    exact ⟨fun _ => Int.fract_nonneg v, fun h => absurd hpos (not_lt.mpr h)⟩

lemma abs_rest_lt_one (p : Splitting) (v : ℚ) : |p.rest v| < 1 := by
  have hfract : ∀ u : ℚ, |Int.fract u| < 1 := by
    intro u
    rw [abs_of_nonneg (Int.fract_nonneg u)]
    exact Int.fract_lt_one u
  cases p with
  | floor => exact hfract v
  | truncate =>
    rcases lt_or_ge v 0 with hneg | hpos
    · rw [rest_truncate_of_neg hneg, abs_neg]
      exact hfract (-v)
    · rw [rest_of_nonneg _ hpos]
      exact hfract v

end Splitting

namespace Binary64

variable {x : Binary64} {v : ℚ}

lemma Representable.rest_truncate (hv : Representable v) :
    Representable (Splitting.truncate.rest v) := by
  rcases lt_or_ge v 0 with hneg | hpos
  · rw [Splitting.rest_truncate_of_neg hneg]
    exact (hv.neg.fract (neg_nonneg.mpr hneg.le)).neg
  · rw [Splitting.rest_of_nonneg _ hpos]
    exact hv.fract hpos

/-- An integer that is the value of a double becomes that double. -/
lemma Denotes.toDouble_intCast {n : ℤ} (h : x.Denotes n) :
    ∃ y, Mediant.toDouble n = .ok y ∧ y.Denotes n := by
  have hexact := h.representable.roundOff_eq
  obtain ⟨y, hy, hden⟩ := toDouble_eq (n := n) (by rw [hexact]; exact h.abs_lt)
  rw [hexact] at hden
  exact ⟨y, hy, hden⟩

lemma Denotes.toInteger_part (hx : x.Denotes v) (p : Splitting) :
    x.toInteger p.integerPart = .ok (p.part v) := by
  cases p with
  | floor => exact hx.toInteger_floor
  | truncate =>
    rcases lt_or_ge v 0 with hneg | hpos
    · rw [Splitting.part_truncate_of_neg hneg]
      obtain ⟨y, rfl, rfl⟩ := hx
      simp only [toInteger, Splitting.integerPart, Finite.truncate, if_pos hneg]
      rfl
    · rw [Splitting.part_of_nonneg _ hpos]
      exact hx.toInteger_truncate hpos

lemma Denotes.toDouble_part (hx : x.Denotes v) (p : Splitting) :
    ∃ y, Mediant.toDouble (p.part v) = .ok y ∧ y.Denotes (p.part v) := by
  cases p with
  | floor => exact hx.toDouble_floor
  | truncate =>
    rcases lt_or_ge v 0 with hneg | hpos
    · obtain ⟨y, -, hy⟩ := hx.neg.toDouble_floor
      refine Denotes.toDouble_intCast (x := y.neg) ?_
      rw [Splitting.part_truncate_of_neg hneg, Int.cast_neg]
      exact hy.neg
    · rw [Splitting.part_of_nonneg _ hpos]
      exact hx.toDouble_floor

/-- A finite double is split into its integer part and the rounded remainder. -/
lemma Denotes.split_eq (hx : x.Denotes v) (p : Splitting) :
    ∃ y, p.split x = .ok (p.part v, y) ∧ y.Denotes (roundOff (p.rest v)) := by
  obtain ⟨y, hy, hyden⟩ := hx.toDouble_part p
  have hrange : |roundOff (p.rest v)| < overflowValue :=
    abs_roundOff_lt_overflowValue ((p.abs_rest_lt_one v).le.trans (by norm_num))
  refine ⟨x.sub y, ?_, hx.sub hyden hrange⟩
  rw [Splitting.split, hx.toInteger_part p, Except.bind_ok, hy, Except.bind_ok, Except.pure_eq]

end Binary64
end Mediant
