import Mediant.Tensor.Library
import Mediant.Value.Entry

/-!
# Rationalizing scalars and arrays

A scalar is rationalized to its lowest terms.  Not every value is a scalar in this sense: of the
plain values only numbers are, and of single entries of arrays only those of numeric types, not
truth values.

An array is rationalized entry by entry, into an array of numerators and an array of denominators
of the shape that its view shows.

Inside a compiled computation a number or an array is a placeholder that has no value yet, and
cannot be rationalized.  Nothing, tuples and lists go into such a computation as they are, and are
refused like anywhere else, unless they hold something that cannot go into it at all: a text, a
policy, or a fraction, whose fields would have to be known.
-/

namespace Mediant

/-- Arrays of numerators and denominators of one shape, in row-major order. -/
structure FractionArrays where
  shape : List Nat
  nums : List Int
  denoms : List Int

/-- The result of rationalizing: one pair in lowest terms, or two arrays. -/
inductive Rationalized where
  | pair (num denom : Int)
  | arrays (a : FractionArrays)

/-- Rationalizes a scalar. -/
def rationalizeScalar (s : Settings) (strict : Bool) (a : Arguments) (v : Value) :
    Except Fault (Reported Rationalized) :=
  (nearbyPair s strict { a with value := v }).map (·.map fun (num, denom) => .pair num denom)

/-- Rationalizes a scalar or an array.  The arguments say how near the fractions have to be; the
value among them is filled in. -/
def rationalize (s : Settings) (strict : Bool) (a : Arguments) :
    Value → Except Fault (Reported Rationalized)
  | .array t =>
    (Tensor.library.rationalize s strict a t).map (·.map fun (nums, denoms) =>
      .arrays ⟨nums.shape, nums.entries.toList, denoms.entries.toList⟩)
  | .entry (.truth _) => .error .notRationalizable
  | .entry e => rationalizeScalar s strict a e.plain
  | v => if v.number?.isSome then rationalizeScalar s strict a v else .error .notRationalizable

/-! ## Compiled computations -/

namespace Value

mutual

/-- Whether a value can go into a compiled computation. -/
def isCompilable : Value → Bool
  | .text _ | .policy _ | .fraction _ => false
  | .tuple items | .list items => areCompilable items
  | _ => true

/-- Whether all items of a sequence can go into a compiled computation. -/
def areCompilable : List Value → Bool
  | [] => true
  | v :: rest => v.isCompilable && areCompilable rest

end

/-- Why a value cannot be rationalized inside a compiled computation. -/
def compilationFault (v : Value) : Fault :=
  if !v.isCompilable then .wrongType
  else match v with
    | .nothing | .tuple _ | .list _ => .notRationalizable
    | _ => .tracedArgument

end Value
end Mediant
