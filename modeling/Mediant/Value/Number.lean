import Mediant.Decimal.Reading
import Mediant.Value.Basic

/-!
# Numbers out of values

Three readings of a value as a number are used: as a double, which admits integers, fractions and
texts that hold a number; as an integer with the fractional part cut off, which admits numbers and
texts that hold an integer, but no fractions; and as a field of a fraction, which keeps integers
and rounds all else that can be read as a double to the nearest integer.

An array without axes is read as its entry.  It is no integer by itself, though, so as a field of
a fraction it is read as a double even if its entry is an integer.
-/

namespace Mediant

/-- The integer part of an entry, toward zero. -/
def Entry.toInteger (e : Entry) : Except Fault Int :=
  match e.integer? with
  | some n => .ok n
  | none => e.nearest.toInteger Binary64.Finite.truncate

namespace Value

/-- The double nearest to a number, to a fraction, or to the number that a text holds. -/
def toDouble : Value → Except Fault Binary64
  | .boolean b => Mediant.toDouble b.toInt
  | .integer n => Mediant.toDouble n
  | .double x => .ok x
  | .undefined .. => .ok .nan
  | .fraction f => f.value
  | .entry e => .ok e.nearest
  | .array t => t.scalar.map Entry.nearest
  | .text s =>
    match Decimal.read? s with
    | some x => .ok x
    | none => .error (.malformedNumber s)
  | .nothing | .tuple _ | .list _ | .policy _ => .error .wrongType

/-- The integer part of a number, toward zero, or the integer that a text holds. -/
def toInteger : Value → Except Fault Int
  | .boolean b => .ok b.toInt
  | .integer n => .ok n
  | .double x => x.toInteger Binary64.Finite.truncate
  | .undefined .. => .error .integerOfNan
  | .entry e => e.toInteger
  | .array t => t.scalar.bind Entry.toInteger
  | .text s =>
    if Decimal.digitLimit < Decimal.leadingDigits s then
      .error (.numeralTooLong (Decimal.leadingDigits s))
    else
      match Decimal.readInteger? s with
      | some n => .ok n
      | none => .error (.malformedInteger s)
  | .nothing | .tuple _ | .list _ | .fraction _ | .policy _ => .error .wrongType

/-- The integer that stands for a value in a fraction. -/
def toField (v : Value) : Except Fault Int :=
  match v, v.integer? with
  | .array t, _ => do (← t.scalar).nearest.toNearest
  | _, some n => .ok n
  | v, none => do (← v.toDouble).toNearest

/-- A value that comes from outside: its integers come as numerals. -/
def received (v : Value) : Except Fault Value :=
  match v with
  | .integer n =>
    if Decimal.isShort n then .ok v
    else .error (.numeralTooLong (Nat.toDigits 10 n.natAbs).length)
  | v => .ok v

/-- The exact number that bounds the denominators of a search, for a value that a double can be
compared with.  A fraction and an entry of an array count by their values in doubles, as in every
such comparison. -/
def toCeiling (v : Value) : Except Fault Extended :=
  match v with
  | .fraction f => f.value.map Binary64.toExtended
  | .entry e => .ok e.nearest.toExtended
  | .array t => t.only.map fun e => e.nearest.toExtended
  | v =>
    match v.number? with
    | some x => .ok x
    | none => .error .wrongType

end Value

/-- The fraction with the given fields, the numerator read first. -/
def Fraction.ofValues (num denom : Value) : Except Fault Fraction := do
  Fraction.ofPair (← num.toField) (← denom.toField)

end Mediant
