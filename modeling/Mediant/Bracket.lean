import Mediant.Denominator

/-!
# Brackets and their refinement

A bracket holds a target between two bounds, each a numerator over a denominator.  A step replaces
one bound by a combination of the two, adding numerators and denominators apart, so the new bound
lies between the old ones.  How often a bound is added is read off the scaled distances

`low.denom * target - low.num` and `high.num - high.denom * target`,

which are computed in doubles.  The ratio of the two distances, either way round, tells how many
copies of one bound fit before the target is passed; the larger ratio decides the direction.
Numerators are integers; denominators are of any kind `δ` that has the operations they need.

A step ends the search when one of the distances is below the precision, and also when the next
denominator, as estimated in doubles, would reach the ceiling.
-/

namespace Mediant

/-- One end of a bracket. -/
structure Bound (δ : Type) where
  num : Int
  denom : δ
deriving DecidableEq

namespace Bound

variable {δ : Type} [Denominator δ]

/-- `n` copies of one bound added to another, numerators and denominators apart. -/
def combine (n : Int) (a b : Bound δ) : Bound δ :=
  ⟨n * a.num + b.num, Denominator.combine n a.denom b.denom⟩

/-- The scaled distance of the target above a bound, in doubles. -/
def gapBelow (a : Bound δ) (target : Binary64) : Except Fault Binary64 := do
  return ((← Denominator.toDouble a.denom).mul target).sub (← toDouble a.num)

/-- The scaled distance of the target below a bound, in doubles. -/
def gapAbove (a : Bound δ) (target : Binary64) : Except Fault Binary64 := do
  return (← toDouble a.num).sub ((← Denominator.toDouble a.denom).mul target)

end Bound

/-- Two bounds around a target. -/
structure Bracket (δ : Type) where
  low : Bound δ
  high : Bound δ
deriving DecidableEq

/-- What a search is after: the target, how near to come, and the ceiling of denominators. -/
structure Goal where
  target : Binary64
  precision : Binary64
  ceiling : Extended

/-- What one step does to a bracket. -/
inductive Step (δ : Type) where
  /-- The upper bound is near enough. -/
  | hitHigh
  /-- The lower bound is near enough. -/
  | hitLow
  /-- The next denominator would reach the ceiling. -/
  | blocked
  /-- A narrower bracket. -/
  | refined (next : Bracket δ)
deriving DecidableEq

namespace Bracket

variable {δ : Type}

/-- The bracket of one cell of the lattice of multiples of `1 / seed`. -/
def cell (seed : δ) (k : Int) : Bracket δ := ⟨⟨k, seed⟩, ⟨k + 1, seed⟩⟩

/-- The bracket with its bounds exchanged. -/
def swap (b : Bracket δ) : Bracket δ := ⟨b.high, b.low⟩

/-- The numerator of the difference of the two bounds over the product of their denominators. -/
def determinant (b : Bracket Int) : Int := b.high.num * b.low.denom - b.low.num * b.high.denom

theorem determinant_cell (seed k : Int) : (cell seed k).determinant = seed := by
  simp only [determinant, cell, Int.add_mul, Int.one_mul]
  omega

variable [Denominator δ]

/-- Moves the upper bound down by `n` copies of the lower one, and the lower bound up to the next
mediant. -/
def refineHigh (b : Bracket δ) (n : Int) : Bracket δ :=
  let high := Bound.combine n b.low b.high
  ⟨Bound.combine 1 high b.low, high⟩

/-- Moves the lower bound up by `n` copies of the upper one, and the upper bound down to the next
mediant. -/
def refineLow (b : Bracket δ) (n : Int) : Bracket δ :=
  let low := Bound.combine n b.high b.low
  ⟨low, Bound.combine 1 low b.high⟩

/-- Moving the upper bound keeps the determinant. -/
theorem determinant_refineHigh (b : Bracket Int) (n : Int) :
    (b.refineHigh n).determinant = b.determinant := by
  simp only [determinant, refineHigh, Bound.combine, Denominator.combine_int]
  grind

/-- Moving the lower bound keeps the determinant. -/
theorem determinant_refineLow (b : Bracket Int) (n : Int) :
    (b.refineLow n).determinant = b.determinant := by
  simp only [determinant, refineLow, Bound.combine, Denominator.combine_int]
  grind

/-- The estimate, in doubles, of the next denominator after a step that adds `ratio` copies of
`a` to `b`. -/
def nextDenominator (ratio : Binary64) (a b : Bound δ) : Except Fault Binary64 := do
  let copies := (ratio.add .one).mul (← Denominator.toDouble a.denom)
  return copies.add (← Denominator.toDouble b.denom)

/-- The step that adds copies of `a` to `b`, as many as the ratio has in its integer part, unless
the next denominator would reach the ceiling. -/
def refineUnder (ceiling : Extended) (ratio : Binary64) (a b : Bound δ)
    (next : Int → Bracket δ) : Except Fault (Step δ) := do
  if ceiling.le (← nextDenominator ratio a b).toExtended then
    return .blocked
  return .refined (next (← ratio.toInteger Binary64.Finite.truncate))

/-- The step in the direction of the larger ratio of the two distances. -/
def refine (ceiling : Extended) (below above : Binary64) (b : Bracket δ) :
    Except Fault (Step δ) := do
  let down ← above.divide below
  let up ← below.divide above
  if up.lt down then
    refineUnder ceiling down b.low b.high b.refineHigh
  else
    refineUnder ceiling up b.high b.low b.refineLow

/-- One step of the search. -/
def step (goal : Goal) (b : Bracket δ) : Except Fault (Step δ) := do
  let below ← b.low.gapBelow goal.target
  let above ← b.high.gapAbove goal.target
  if above.lt goal.precision then
    return .hitHigh
  if below.lt goal.precision then
    return .hitLow
  b.refine goal.ceiling below above

end Bracket
end Mediant
