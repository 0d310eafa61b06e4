import Mediant.Binary64.Bits
import Mediant.Proofs.Rounding.Remainder
import Mediant.Proofs.Search.Opening
import Mediant.Value.Arithmetic

/-!
# Splitting with flooring

Flooring splits a number into the integer below it and a remainder, which is the exact remainder
rounded to a double.  Mostly nothing is lost, and the remainder lies in the half-open unit
interval.  The exceptions are negative numbers above minus one half.  Those that are no multiple of
one part in `2 ^ 53` do not add up to the number again, by at most half of that part.  Those from
minus one part in `2 ^ 54` on have the remainder one, and are searched in the cell beyond the last
one of the unit interval.

`FloorSplit` states this for every finite double, with both exceptions as equivalences.
-/

namespace Mediant

open Binary64

/-- The remainder that flooring leaves: the exact one, rounded to a double. -/
def floorRemainder (v : ℚ) : ℚ := roundOff (Int.fract v)

/-! ## The cell of the remainder -/

namespace Query

variable {q : Query ℤ} {v : ℚ}

lemma operand_of_floor (hpolicy : q.policy = .floor) (v : ℚ) : q.operand v = v := by
  rw [operand, hpolicy, if_neg (by decide)]

lemma remainder_of_floor (hpolicy : q.policy = .floor) (v : ℚ) :
    q.remainder v = floorRemainder v := by
  rw [remainder, operand_of_floor hpolicy, floorRemainder]

/-- The double below the seed. -/
lemma representable_below_seed : Representable (2310 - 1 / 2 ^ 41) := by
  refine representable_of_mul_two_pow (s := 2310 * 2 ^ 41 - 1) (j := 41) (by norm_num)
    (by rw [unitScale_eq]; norm_num) ?_
  rw [abs_of_nonneg (by norm_num)]
  norm_num

lemma cellNumber_lt_iff (q : Query ℤ) (v : ℚ) : q.cellNumber v < 2310 ↔ q.remainder v < 1 := by
  rw [cellNumber, Int.floor_lt, Int.cast_ofNat]
  constructor
  · intro h
    by_contra! hge
    rw [le_antisymm (q.remainder_le_one v) hge, one_mul, representable_seed.roundOff_eq] at h
    exact lt_irrefl _ h
  · intro h
    -- the greatest remainder below one gives a product that is nearer to the double below the seed
    have hle : q.remainder v ≤ 1 - 1 / 2 ^ 53 := (representable_roundOff _).le_of_lt_one h
    exact representable_below_seed.roundOff_lt (by norm_num) (by linarith)

/-- What is split off a finite double with flooring, and the cell in which the search begins. -/
lemma Posed.exists_start_of_floor {p : ℚ} (h : q.Posed v p) (hpolicy : q.policy = .floor) :
    ∃ y k, q.split = .ok (⌊v⌋, y) ∧ y.Denotes (floorRemainder v) ∧
      q.start y = .ok (.cell 2310 k) ∧ 0 ≤ k ∧ k ≤ 2310 ∧
      (k + 1 ≤ 2310 ↔ floorRemainder v < 1) := by
  obtain ⟨y, hsplit, hy⟩ := h.exists_split_eq
  have hstart := start_eq_ok_iff.mpr ⟨_, h.cell hy, rfl⟩
  have hlt := cellNumber_lt_iff q v
  rw [operand_of_floor hpolicy] at hsplit
  rw [remainder_of_floor hpolicy] at hy hlt
  rw [h.seed_eq] at hstart
  exact ⟨y, _, hsplit, hy, hstart, q.cellNumber_nonneg v, q.cellNumber_le v,
    Int.add_one_le_iff.trans hlt⟩

end Query

lemma Value.split_double {policy : Splitting} {x y : Binary64} {n : ℤ}
    (h : policy.split x = .ok (n, y)) :
    (Value.double x).split (.policy policy) = .ok (.integer n, .double y) := by
  rw [Value.split]
  dsimp only
  rw [h]
  rfl

/-! ## The law -/

/-- What flooring makes of a finite double with the value `v`. -/
structure FloorSplit (x : Binary64) (v : ℚ) : Prop where
  /-- The parts are the integer below the number and the rounded remainder. -/
  split_eq : ∃ y, (Value.double x).split (.policy .floor) = .ok (.integer ⌊v⌋, .double y) ∧
    y.Denotes (floorRemainder v)
  nonneg : 0 ≤ floorRemainder v
  le_one : floorRemainder v ≤ 1
  /-- The remainder is one just below zero, and nowhere else. -/
  lt_one_iff : floorRemainder v < 1 ↔ ¬(-(1 / 2 ^ 54) ≤ v ∧ v < 0)
  /-- The parts add up to the number, unless it lies between minus one half and zero and has bits
  beyond one part in `2 ^ 53`. -/
  add_eq_iff : ⌊v⌋ + floorRemainder v = v ↔ 0 ≤ v ∨ v ≤ -1 / 2 ∨ ∃ n : ℤ, v * 2 ^ 53 = n
  abs_add_sub_le : |⌊v⌋ + floorRemainder v - v| ≤ 1 / 2 ^ 54
  /-- A search with flooring brackets this remainder, and its first cell lies in the unit interval
  exactly if the remainder is below one. -/
  cell {q : Query ℤ} {p : ℚ} : q.Posed v p → q.policy = .floor →
    ∃ y k, q.split = .ok (⌊v⌋, y) ∧ y.Denotes (floorRemainder v) ∧
      q.start y = .ok (.cell 2310 k) ∧ 0 ≤ k ∧ k ≤ 2310 ∧ (k + 1 ≤ 2310 ↔ floorRemainder v < 1)

/-- **Flooring is exact and stays below one** except between minus one half and zero. -/
theorem floorSplit_of_denotes {x : Binary64} {v : ℚ} (hx : x.Denotes v) : FloorSplit x v := by
  have hrep := hx.representable
  have herr : ⌊v⌋ + floorRemainder v - v = roundOff (Int.fract v) - Int.fract v := by
    rw [floorRemainder, Int.fract]
    ring
  refine ⟨?_, roundOff_nonneg (Int.fract_nonneg v),
    representable_one.roundOff_le (Int.fract_lt_one v).le, hrep.roundOff_fract_lt_one_iff, ?_, ?_,
    ?_⟩
  · obtain ⟨p, hp⟩ : ∃ p : Binary64, p.Denotes 1 := ⟨_, denotes_one⟩
    have hposed : Query.Posed ⟨x, p, .rational 0, 2310, .floor⟩ v 1 := ⟨hx, hp, one_pos, rfl⟩
    obtain ⟨y, _, hsplit, hy, -⟩ := hposed.exists_start_of_floor rfl
    exact ⟨y, Value.split_double hsplit, hy⟩
  · rw [← sub_eq_zero, herr, sub_eq_zero, roundOff_eq_self_iff, hrep.fract_iff]
  · rw [herr]
    exact hrep.abs_roundOff_fract_sub_le
  · intro q p hposed hpolicy
    exact hposed.exists_start_of_floor hpolicy

/-- Minus two and a quarter is three quarters above minus three. -/
theorem floorSplit_negTwoAndQuarter :
    (ofBits 0xC002000000000000).Denotes (-9 / 4) ∧
      FloorSplit (ofBits 0xC002000000000000) (-9 / 4) := by
  have hx : (ofBits 0xC002000000000000).Denotes (-9 / 4) :=
    denotes_of_toExtended (by decide +kernel)
  exact ⟨hx, floorSplit_of_denotes hx⟩

/-- The double nearest to minus `10 ^ (-20)` is split into minus one and one.  These do not add up
to it, and the search begins beyond the unit interval. -/
theorem floor_tiny_not_below_one :
    (ofBits 0xBBC79CA10C924223).Denotes (-6646139978924579 / 2 ^ 119) ∧
      (Value.double (ofBits 0xBBC79CA10C924223)).split (.policy .floor) =
        .ok (.integer (-1), .double .one) ∧
      one.Denotes 1 ∧ (-1 + 1 : ℚ) ≠ -6646139978924579 / 2 ^ 119 ∧
      (⟨ofBits 0xBBC79CA10C924223, defaultPrecision, .rational (2 ^ 63 - 1), 2310, .floor⟩ :
        Query ℤ).start .one = .ok (.cell 2310 2310) := by
  have hsplit : Splitting.floor.split (ofBits 0xBBC79CA10C924223) = .ok (-1, .one) := by
    decide +kernel
  exact ⟨denotes_of_toExtended (by decide +kernel), Value.split_double hsplit, denotes_one,
    by norm_num, by decide +kernel⟩

end Mediant
