import Mediant.Proofs.Search.Flooring

/-!
# Where splitting is exact

The parts of a finite double add up to it exactly where the remainder is representable.  With
truncation it always is.  With flooring it is outside of the interval between minus one half and
zero; in there the integer part is minus one, and the remainder, from one half on, is rounded by at
most one part in `2 ^ 54`, which may take it up to one.

`ExactSplit` states this for every finite double, and for the absolute value that a search with
truncation splits in place of a negative number.
-/

namespace Mediant

open Binary64

/-! ## Splitting a double -/

namespace Binary64

/-- The double is split into the integer and a double with the given value. -/
def SplitsInto (x : Binary64) (p : Splitting) (n : ℤ) (r : ℚ) : Prop :=
  ∃ y : Binary64, (Value.double x).split (.policy p) = .ok (.integer n, .double y) ∧ y.Denotes r

variable {x : Binary64} {v : ℚ}

lemma Denotes.splitsInto (hx : x.Denotes v) (p : Splitting) :
    x.SplitsInto p (p.part v) (roundOff (p.rest v)) := by
  obtain ⟨y, hsplit, hy⟩ := hx.split_eq p
  exact ⟨y, Value.split_double hsplit, hy⟩

/-- A representable remainder is left as it is. -/
lemma Denotes.splitsInto_rest (hx : x.Denotes v) {p : Splitting} (h : Representable (p.rest v)) :
    x.SplitsInto p (p.part v) (p.rest v) := by
  have hsplit := hx.splitsInto p
  rwa [h.roundOff_eq] at hsplit

end Binary64

/-! ## The law -/

/-- Where the parts of a finite double with the value `v` add up to it, and by how much they miss it
elsewhere. -/
structure ExactSplit (x : Binary64) (v : ℚ) : Prop where
  /-- Truncation goes toward zero and is exact, and its remainder is less than one and, unless it is
  zero, has the sign of the number. -/
  truncate : ∃ (n : ℤ) (r : ℚ), x.SplitsInto .truncate n r ∧ (0 ≤ v → n = ⌊v⌋) ∧
    (v ≤ 0 → n = ⌈v⌉) ∧ n + r = v ∧ |r| < 1 ∧ (0 ≤ v → 0 ≤ r) ∧ (v ≤ 0 → r ≤ 0)
  /-- Flooring is exact, and its remainder lies in the half-open unit interval, except for numbers
  between minus one half and zero. -/
  floor : ¬(-1 / 2 < v ∧ v < 0) →
    ∃ r, x.SplitsInto .floor ⌊v⌋ r ∧ ⌊v⌋ + r = v ∧ 0 ≤ r ∧ r < 1
  /-- For these the remainder may be rounded, even to one. -/
  floor_small : -1 / 2 < v → v < 0 →
    ∃ r, x.SplitsInto .floor (-1) r ∧ 1 / 2 ≤ r ∧ r ≤ 1 ∧ |-1 + r - v| ≤ 1 / 2 ^ 54
  /-- A search with truncation splits the absolute value, which is exact as well, and its sign makes
  up for that. -/
  search {q : Query ℤ} {p : ℚ} : q.Posed v p → q.policy = .truncate →
    ∃ y, q.split = .ok (⌊|v|⌋, y) ∧ y.Denotes (Int.fract |v|) ∧
      q.sign * (⌊|v|⌋ + Int.fract |v|) = v

/-- **Splitting is exact** with truncation, and with flooring except between minus one half and
zero. -/
theorem exactSplit_of_denotes {x : Binary64} {v : ℚ} (hx : x.Denotes v) : ExactSplit x v := by
  have hrep := hx.representable
  constructor
  · obtain ⟨hdown, hup⟩ := Splitting.part_truncate v
    obtain ⟨hnonneg, hnonpos⟩ := Splitting.rest_truncate_sign v
    exact ⟨_, _, hx.splitsInto_rest hrep.rest_truncate, hdown, hup,
      Splitting.part_add_rest .truncate v, Splitting.abs_rest_lt_one .truncate v, hnonneg, hnonpos⟩
  · intro hout
    have hfract : Representable (Int.fract v) := by
      rcases le_or_gt 0 v with hpos | hneg
      · exact hrep.fract hpos
      · exact hrep.fract_of_le (not_lt.mp fun h => hout ⟨h, hneg⟩)
    exact ⟨_, hx.splitsInto_rest hfract, Int.floor_add_fract v, Int.fract_nonneg v,
      Int.fract_lt_one v⟩
  · intro hhalf hneg
    have hfract : Int.fract v = v + 1 := fract_eq_add_one hneg (by linarith)
    have hfloor : ⌊v⌋ = -1 := Int.floor_eq_iff.mpr
      ⟨by push_cast; linarith, by push_cast; linarith⟩
    have hsplit := hx.splitsInto .floor
    rw [Splitting.rest_floor, Splitting.part, hfloor] at hsplit
    refine ⟨_, hsplit, half_le_roundOff_fract hhalf hneg,
      representable_one.roundOff_le (Int.fract_lt_one v).le, ?_⟩
    have hsum : -1 + roundOff (Int.fract v) - v = roundOff (Int.fract v) - Int.fract v := by
      linarith
    rw [hsum]
    exact hrep.abs_roundOff_fract_sub_le
  · intro q p hq hpolicy
    have hoperand : q.operand v = |v| := if_pos hpolicy
    obtain ⟨y, hsplit, hy⟩ := hq.exists_split_eq
    rw [hoperand] at hsplit
    rw [hq.remainder_eq hpolicy] at hy
    refine ⟨y, hsplit, hy, ?_⟩
    rw [Int.floor_add_fract, ← hoperand]
    exact hq.sign_mul_operand

/-- The double nearest to minus one tenth is its own remainder with truncation.  With flooring it
has more bits than the remainder has room for. -/
theorem exactSplit_negTenth :
    (ofBits 0xBFB999999999999A).Denotes (-3602879701896397 / 2 ^ 55) ∧
      ExactSplit (ofBits 0xBFB999999999999A) (-3602879701896397 / 2 ^ 55) := by
  have hx : (ofBits 0xBFB999999999999A).Denotes (-3602879701896397 / 2 ^ 55) :=
    denotes_of_toExtended (by decide +kernel)
  exact ⟨hx, exactSplit_of_denotes hx⟩

end Mediant
