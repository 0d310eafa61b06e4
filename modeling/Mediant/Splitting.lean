import Mediant.Conversion

/-!
# Splitting a number into integer part and remainder

Before a search, a value is split into an integer part and a remainder, in one of two ways.
Truncation goes toward zero and leaves a remainder with the sign of the value.  Flooring goes down
and leaves a remainder that is not negative.  The remainder is the difference of the value and
its integer part as doubles.
-/

namespace Mediant

/-- How a value is split into integer part and remainder. -/
inductive Splitting where
  | truncate
  | floor
deriving DecidableEq

namespace Splitting

/-- All policies, in the order in which they are listed. -/
def all : List Splitting := [truncate, floor]

/-- The name of a policy. -/
def name : Splitting → String
  | truncate => "TRUNCATE"
  | floor => "FLOOR"

/-- The word that a policy stands for. -/
def label : Splitting → String
  | truncate => "truncate"
  | floor => "floor"

/-- The integer part of a finite double. -/
def integerPart : Splitting → Binary64.Finite → Int
  | truncate => Binary64.Finite.truncate
  | floor => Binary64.Finite.floor

/-- Integer part and remainder of a double; only a finite one has them. -/
def split (policy : Splitting) (x : Binary64) : Except Fault (Int × Binary64) := do
  let integer ← x.toInteger policy.integerPart
  return (integer, x.sub (← toDouble integer))

end Splitting
end Mediant
