import Mediant.Proofs.Search.Termination

/-!
# Which bound a stopped search returns

A search that the ceiling stopped returns the upper bound of its last bracket, with sign and integer
part put back, and the lower bound beside it.  Neither the guard nor the result compares the two:
which of them is nearer to the value depends on both scaled distances and on both denominators, and
`Bracket.UpperNearer` is the comparison that decides it.

`StoppedAtUpper` states that the answer of a stopped search is the nearer bound exactly if this
comparison holds.  It fails already for searches that are stopped at their first step, whenever the
remainder is in the lower half of its cell (`upperNearer_cell_iff`, `lower_nearer_negPi`).
-/

namespace Mediant

open Binary64

namespace Bracket

/-- The upper bound is no further from a number than the lower one: the scaled distances are
compared, each weighted with the other denominator. -/
def UpperNearer (b : Bracket ℤ) (t : ℚ) : Prop :=
  b.low.denom * -b.high.gap t ≤ b.high.denom * b.low.gap t

variable {b : Bracket ℤ} {seed k : ℤ} {t : ℚ}

lemma abs_high_sub_le_iff (hlt : b.low.toRat < b.high.toRat) :
    |b.high.toRat - t| ≤ |b.low.toRat - t| ↔ b.low.toRat + b.high.toRat ≤ 2 * t := by
  constructor
  · intro h
    by_contra! hmiddle
    have hlow : b.low.toRat - t < b.high.toRat - t := by linarith
    have hneg : -(b.low.toRat - t) < b.high.toRat - t := by linarith
    exact absurd h (not_le.mpr (lt_of_lt_of_le (max_lt hlow hneg) (le_abs_self _)))
  · intro h
    rw [abs_le]
    constructor
    · have := neg_abs_le (b.low.toRat - t)
      linarith
    · have := neg_abs_le (b.low.toRat - t)
      linarith [neg_le_abs (b.low.toRat - t)]

/-- The comparison of scaled distances is the comparison of distances. -/
lemma upperNearer_iff (hs : 0 < seed) (hb : b.Regular seed) :
    b.UpperNearer t ↔ |b.high.toRat - t| ≤ |b.low.toRat - t| := by
  have hlow : (0 : ℚ) < b.low.denom := by exact_mod_cast hb.low_denom_pos hs
  have hhigh : (0 : ℚ) < b.high.denom := by exact_mod_cast hb.high_denom_pos hs
  have hprod : 0 < (b.low.denom * b.high.denom : ℚ) := mul_pos hlow hhigh
  have hlownum : b.low.toRat * b.low.denom = b.low.num := by
    rw [Bound.toRat]
    field_simp
  have hhighnum : b.high.toRat * b.high.denom = b.high.num := by
    rw [Bound.toRat]
    field_simp
  rw [abs_high_sub_le_iff (hb.low_lt_high hs), ← mul_le_mul_iff_right₀ hprod, UpperNearer,
    Bound.gap, Bound.gap, ← hlownum, ← hhighnum]
  constructor <;> intro h <;> linarith

/-- In a cell of the lattice the comparison asks for the half of the cell. -/
lemma upperNearer_cell_iff (hs : 0 < seed) :
    (cell seed k).UpperNearer t ↔ k + 1 / 2 ≤ seed * t := by
  have hseed : (0 : ℚ) < seed := by exact_mod_cast hs
  simp only [UpperNearer, cell, Bound.gap]
  rw [mul_le_mul_iff_right₀ hseed]
  push_cast
  constructor <;> intro h <;> linarith

end Bracket

namespace Query.Course

variable {q : Query ℤ} {v p : ℚ} {m : ℤ} {x : Binary64} {n : ℕ} {c : Bracket ℤ} {o : Outcome ℤ}
  {r : Approximant}

/-- A stopped search has not exchanged the bounds of its last bracket. -/
lemma blocked_of_overflowed (h : q.Course v p m x n c o r) (hover : r.overflowed = true) :
    c.step (q.goal x) = .ok .blocked ∧ o.bracket = c := by
  rw [h.returns.overflowed_eq] at hover
  cases h.stages.ends with
  | hitHigh => cases hover
  | hitLow => cases hover
  | blocked hblocked => exact ⟨hblocked, rfl⟩

lemma nearer_iff (h : q.Course v p m x n c o r) (hover : r.overflowed = true) :
    |r.fraction.toRat - v| ≤ |r.low.toRat - v| ↔ c.UpperNearer (Int.fract (q.operand v)) := by
  obtain ⟨-, ho⟩ := h.blocked_of_overflowed hover
  rw [h.admissible.abs_restored_sub h.returns.fraction,
    h.admissible.abs_restored_sub h.returns.low, ho]
  exact (Bracket.upperNearer_iff h.start.seed_pos h.last.bounded.toRegular).symm

/-- Stopped at its first step, a search returns the nearer bound exactly if the remainder is in the
upper half of its cell. -/
lemma nearer_iff_of_first (h : q.Course v p m x 0 c o r) (hover : r.overflowed = true) :
    |r.fraction.toRat - v| ≤ |r.low.toRat - v| ↔
      q.cellNumber v + 1 / 2 ≤ 2310 * Int.fract (q.operand v) := by
  have hcell : c = .cell 2310 (q.cellNumber v) := by
    cases h.reaches
    rfl
  rw [h.nearer_iff hover, hcell, Bracket.upperNearer_cell_iff (by norm_num)]
  norm_num

end Query.Course

/-- A search that returns the upper bound of its last bracket when the ceiling stops it, whether
this is the nearer bound or not. -/
structure StoppedAtUpper (s : Settings) (a : Arguments) (v p : ℚ) (m : ℤ) (policy : Splitting) :
    Prop where
  exists_search : ∃ r, search s false a = .ok r
  stopped {strict : Bool} {r : Reported Approximant} : search s strict a = .ok r →
    r.value.overflowed = true → ∃ q x n c o, q.policy = policy ∧
      Query.Course q v p m x n c o r.value ∧ c.step (q.goal x) = .ok .blocked ∧
      q.Restores ⌊q.operand v⌋ c.high r.value.fraction ∧
      q.Restores ⌊q.operand v⌋ c.low r.value.low ∧
      (|r.value.fraction.toRat - v| ≤ |r.value.low.toRat - v| ↔
        c.UpperNearer (Int.fract (q.operand v))) ∧
      (n = 0 → (|r.value.fraction.toRat - v| ≤ |r.value.low.toRat - v| ↔
        q.cellNumber v + 1 / 2 ≤ 2310 * Int.fract (q.operand v)))

end Mediant
