import Mediant.Session.Command
import Mediant.Session.State

/-!
# Evaluating operands

Operands are evaluated from left to right, and the first one that fails decides.  An integer comes
as a numeral, so one with too many digits is not received.  Every evaluation
of a not-a-number gives a new one; only a register gives the same one again.
-/

namespace Mediant
namespace Operand

/-- The fraction with the given fields, one or two of them. -/
def buildFraction : List Value → Except Fault Value
  | [num] => (Fraction.ofValues num (.integer 1)).map .fraction
  | [num, denom] => (Fraction.ofValues num denom).map .fraction
  | _ => .error .wrongType

mutual

/-- The value of an operand. -/
def eval : Operand → Turn Value
  | .value v => do Session.mark (← v.received)
  | .tuple items => return .tuple (← evalAll items)
  | .list items => return .list (← evalAll items)
  | .fraction fields => do buildFraction (← evalAll fields)
  | .entry type x => do Session.mark (.entry (← type.store (← eval x)))
  | .array type shape entries view => do
    let stored ← (← evalAll entries).mapM fun v => (type.store v : Turn Entry)
    return .array ⟨shape, stored.toArray, view⟩
  | .register name => do (← get).registers.get name

/-- The values of a row of operands, from left to right. -/
def evalAll : List Operand → Turn (List Value)
  | [] => return []
  | x :: rest => return (← eval x) :: (← evalAll rest)

end

/-- The value of an operand that may be left out. -/
def evalOr (default : Value) : Option Operand → Turn Value
  | none => return default
  | some x => x.eval

/-- The key of the value of an operand, for telling values apart.  The value is not kept, so the
marks that its evaluation has given out are free again behind it. -/
def key (x : Operand) : Turn HashKey := do
  let marks := (← get).marks
  let key ← HashKey.ofValue (← x.eval)
  modify fun s => { s with marks }
  return key

end Operand

/-- The arguments of a search of a value. -/
def Bounds.arguments (b : Bounds) (value : Value) : Turn Arguments := do
  let precision ← Operand.evalOr (.double defaultPrecision) b.precision
  let ceiling ← Operand.evalOr .nothing b.ceiling
  let split ← Operand.evalOr .nothing b.split
  return { value, precision, ceiling, split }

/-- A search result from its parts, both of which have to be fractions. -/
def ResultParts.build (p : ResultParts) : Turn Approximant := do
  match ← p.fraction.eval, ← p.low.eval with
  | .fraction f, .fraction g => return ⟨f, g, p.iterations, p.overflowed⟩
  | _, _ => throw .wrongType

end Mediant
