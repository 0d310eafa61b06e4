import Mediant.Bracket
import Mediant.Fraction.Order
import Mediant.Splitting

/-!
# The search for a fraction near a double

A search splits its value into integer part and remainder, brackets the remainder by one cell of
the lattice of multiples of `1 / seed`, and refines the bracket until a bound is near enough or a
denominator would grow too large.  With truncation a negative value is searched as its absolute
value and the result is negated, so opposite values have opposite results.

`Query.start` gives the starting bracket, `Bracket.run` iterates `Bracket.step`, and
`Query.result` puts integer part and sign back.  `Query.refine` and `Query.result` together are
the whole search; a caller who wants to hear of a stopped run looks at the outcome in between.

`run` counts down from `stepLimit`.  With a positive precision and a positive seed the limit is
never met: every refinement more than doubles the sum of the denominators, which starts no lower
than the smallest positive double, and a denominator above `2 ^ 1024` no longer converts to a
double.
-/

namespace Mediant

/-- The state in which a run ends; the answer is the upper bound of the bracket. -/
structure Outcome (δ : Type) where
  bracket : Bracket δ
  iterations : Nat
  overflowed : Bool
deriving DecidableEq

/-- More refinements than any search with a positive precision and a positive seed can make. -/
def stepLimit : Nat := 0x4000

/-- Refines a bracket until a step ends the search.  The answer is moved to the upper bound. -/
def Bracket.run {δ : Type} [Denominator δ] (goal : Goal) (iterations : Nat) (b : Bracket δ) :
    Nat → Except Fault (Outcome δ)
  | 0 => .error .endless
  | fuel + 1 => do
    match ← b.step goal with
    | .hitHigh => return ⟨b, iterations, false⟩
    | .hitLow => return ⟨b.swap, iterations, false⟩
    | .blocked => return ⟨b, iterations, true⟩
    | .refined next => next.run goal (iterations + 1) fuel

/-- What a search found: the answer, the other bound of the last bracket, the number of
refinements, and whether the ceiling stopped it.  Neither fraction is reduced.  A record that was
not made by a search may state any integer as the number of refinements. -/
structure Approximant where
  fraction : Fraction
  low : Fraction
  iterations : Int
  overflowed : Bool
deriving DecidableEq

namespace Approximant

/-- The distance of the two bounds, as the difference of their values in doubles. -/
def width (r : Approximant) : Except Fault Binary64 := do
  return ((← r.fraction.value).sub (← r.low.value)).abs

/-- Equality of results whose fractions count by value. -/
def equals (r s : Approximant) : Bool :=
  r.fraction.equals s.fraction && r.low.equals s.low && r.iterations == s.iterations &&
    r.overflowed == s.overflowed

/-- Whether all numerals in the display of a result keep to the limit. -/
def isShort (r : Approximant) : Bool :=
  r.fraction.isShort && r.low.isShort && Decimal.isShort r.iterations

/-- How a result is displayed. -/
def display (r : Approximant) : String :=
  "SearchResult(fraction=" ++ r.fraction.display ++ ", low=" ++ r.low.display ++
    ", iterations=" ++ toString r.iterations ++
    ", overflowed=" ++ (if r.overflowed then "True" else "False") ++ ")"

end Approximant

/-- All that determines a search. -/
structure Query (δ : Type) where
  value : Binary64
  precision : Binary64
  ceiling : Extended
  seed : δ
  policy : Splitting

namespace Query

variable {δ : Type}

/-- The same query on another starting lattice. -/
def withSeed {δ' : Type} (q : Query δ) (seed : δ') : Query δ' :=
  ⟨q.value, q.precision, q.ceiling, seed, q.policy⟩

/-- Whether the value is searched as its absolute value. -/
def negated (q : Query δ) : Bool :=
  q.policy = .truncate && q.value.lt (Binary64.zero false)

/-- Integer part and remainder of the value that is searched. -/
def split (q : Query δ) : Except Fault (Int × Binary64) :=
  q.policy.split (if q.negated then q.value.neg else q.value)

/-- The goal of the refinement. -/
def goal (q : Query δ) (remainder : Binary64) : Goal := ⟨remainder, q.precision, q.ceiling⟩

variable [Denominator δ]

/-- The cell of the starting lattice that holds a remainder, as computed in doubles. -/
def start (q : Query δ) (remainder : Binary64) : Except Fault (Bracket δ) := do
  let scaled := remainder.mul (← Denominator.toDouble q.seed)
  return .cell q.seed (← scaled.toInteger Binary64.Finite.floor)

/-- A bound of the remainder as a fraction near the value. -/
def restore (q : Query δ) (integer : Int) (a : Bound δ) : Except Fault Fraction :=
  Denominator.restore q.negated integer a.num a.denom

/-- The integer part that was split off, and the outcome of the refinement. -/
def refine (q : Query δ) : Except Fault (Int × Outcome δ) := do
  let (integer, remainder) ← q.split
  let outcome ← (← q.start remainder).run (q.goal remainder) 0 stepLimit
  return (integer, outcome)

/-- The result of a search whose refinement has ended. -/
def result (q : Query δ) (integer : Int) (o : Outcome δ) : Except Fault Approximant := do
  let fraction ← q.restore integer o.bracket.high
  let low ← q.restore integer o.bracket.low
  return ⟨fraction, low, o.iterations, o.overflowed⟩

end Query
end Mediant
