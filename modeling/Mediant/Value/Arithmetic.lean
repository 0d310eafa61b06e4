import Mediant.Value.Comparison
import Mediant.Value.Number

/-!
# Arithmetic on values of any sort

Numbers and fractions have a negative and an absolute value.  Greatest common divisors are found
by dividing with remainder until the remainder is zero.  Among integers and truth values the result
is an integer; once a double takes part, the remainders are doubles, and so is the result, unless
an integer divides everything right away.  A fraction cannot be divided, but next to a zero there
is nothing to divide.  The same holds for an array with axes, which has an absolute value but no
negative here; it can be a zero only if it has exactly one entry.

Lowest terms are defined for the same pairs.  A denominator that equals zero is refused before
anything else is looked at, and a numerator that equals zero gives `0 / 1` whatever the denominator
is.

Splitting is defined for integers, which are their own integer part, and for doubles.  The policy
is looked at first.  Of the entries of arrays only doubles can be truncated; all can be rounded
down, by way of the nearest double, and so can arrays without axes.
-/

namespace Mediant
namespace Value

/-- The negative of a number or of a fraction.  Truth values in arrays have none. -/
def neg (v : Value) : Except Fault Value :=
  match v.integer?, v.double?, v with
  | some _, _, .entry (.truth _) => .error .wrongType
  | some n, _, _ => .ok (.integer (-n))
  | none, some x, _ => .ok (.double x.neg)
  | none, none, .fraction f => .ok (.fraction f.neg)
  | none, none, _ => .error .wrongType

/-- The absolute value of a number or of a fraction, and of all entries of an array. -/
def abs (v : Value) : Except Fault Value :=
  match v.integer?, v.double?, v with
  | some n, _, _ => .ok (.integer n.natAbs)
  | none, some x, _ => .ok (.double x.abs)
  | none, none, .fraction f => .ok (.fraction f.abs)
  | none, none, .array t => .ok (.array (t.map Entry.abs))
  | none, none, _ => .error .wrongType

/-- Applies an operation on integers to two integers, and otherwise one on doubles to two numbers
of which an integer is rounded to a double first. -/
def combineNumbers (onIntegers : Int → Int → Int) (onDoubles : Binary64 → Binary64 → Binary64)
    (v w : Value) : Except Fault Value := do
  match v.integer?, w.integer? with
  | some m, some n => return .integer (onIntegers m n)
  | _, _ =>
    if v.number?.isSome && w.number?.isSome then
      return .double (onDoubles (← v.toDouble) (← w.toDouble))
    else throw .wrongType

/-- The remainder of a division of numbers that are not negative. -/
def remainder (v w : Value) : Except Fault Value := combineNumbers (· % ·) Binary64.remainder v w

/-- The quotient of a number by a positive divisor of it. -/
def quotient (v w : Value) : Except Fault Value := combineNumbers (· / ·) Binary64.div v w

/-- Divides with remainder until the remainder equals zero. -/
def divideOut (x y : Value) : Nat → Except Fault Value
  | 0 => .error .endless
  | steps + 1 => do
    if ← y.equals (.integer 0) then return x
    else divideOut y (← x.remainder y) steps

/-- More divisions than any two doubles can need. -/
def divisionLimit : Nat := 0x2000

/-- The greatest common divisor of the absolute values of two numbers. -/
def greatestCommonDivisor (x y : Value) : Except Fault Value := do
  match x.integer?, y.integer? with
  | some m, some n => return .integer (← Mediant.greatestCommonDivisor m n)
  | _, _ =>
    let x ← x.abs
    let y ← y.abs
    if ← x.equals (.integer 0) then
      if ← y.equals (.integer 0) then throw .gcdOfZeros
    divideOut x y divisionLimit

/-- The lowest terms of a pair of numbers. -/
def lowestTerms (num denom : Value) : Except Fault (Value × Value) := do
  if ← denom.equals (.integer 0) then
    throw (.irreducible (← num.shown) (← denom.shown))
  if ← num.equals (.integer 0) then
    return (.integer 0, .integer 1)
  match num.integer?, denom.integer? with
  | some m, some n =>
    let terms := Mediant.lowestTerms m n
    return (.integer terms.1, .integer terms.2)
  | _, _ =>
    let divisor ← num.greatestCommonDivisor denom
    let num ← num.quotient divisor
    let denom ← denom.quotient divisor
    if ← denom.holds .less (.integer 0) then return (← num.neg, ← denom.neg)
    else return (num, denom)

/-- Integer part and remainder of an entry of an array.  The remainder has the type of the entry. -/
def splitEntry (p : Splitting) : Entry → Except Fault (Value × Value)
  | .real f x =>
    if p = .truncate ∧ f ≠ .double then .error .wrongType
    else (p.split x).map fun (n, remainder) => (.integer n, .double (remainder.narrow f))
  | e =>
    match p with
    | .truncate => .error .wrongType
    | .floor => do
      let n ← e.nearest.toInteger Binary64.Finite.floor
      return (.integer n, .integer ((← e.toInteger) - n))

/-- Integer part and remainder of a value.  Rounding a fraction down takes its value as a double,
which may fail, but a fraction has no remainder. -/
def split (v policy : Value) : Except Fault (Value × Value) :=
  match policy with
  | .policy p =>
    match v with
    | .boolean b => .ok (.integer b.toInt, .integer 0)
    | .integer n => .ok (.integer n, .integer 0)
    | .double x => (p.split x).map fun (n, remainder) => (.integer n, .double remainder)
    | .undefined f _ => splitEntry p (.real f .nan)
    | .entry e => splitEntry p e
    | .array t =>
      match p with
      | .truncate => .error .wrongType
      | .floor => t.scalar.bind (splitEntry .floor)
    | .fraction f =>
      match p with
      | .truncate => .error .wrongType
      | .floor => f.value.bind fun _ => .error .wrongType
    | _ => .error .wrongType
  | policy => do throw (.unknownSplitPolicy (← policy.shown))

end Value
end Mediant
