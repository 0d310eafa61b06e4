import Mediant.Rationalization
import Mediant.Value.HashKey
import Mediant.Value.Sorting

/-!
# Commands and answers of a session

A session is a conversation: each command is answered before the next is read, and results can be
kept in named registers.  The arguments of a command are `Operand`s, which are values, sequences,
fractions and arrays built from operands, or names of registers.

An argument that may be left out is an `Option`; leaving it out is not the same as handing in
nothing.  Commands that search can be `strict`, in which case a stopped search is a fault.
-/

namespace Mediant

/-- An argument before it is evaluated. -/
inductive Operand where
  | value (v : Value)
  | tuple (items : List Operand)
  | list (items : List Operand)
  /-- A fraction with the given fields; the denominator may be left out. -/
  | fraction (fields : List Operand)
  /-- A single entry of an array. -/
  | entry (type : EntryType) (x : Operand)
  /-- An array with the given entries in row-major order, seen through a view. -/
  | array (type : EntryType) (shape : List Nat) (entries : List Operand) (view : View)
  | register (name : String)

instance : Inhabited Operand := ⟨.value .nothing⟩

/-- The bounds of a search that a command may set. -/
structure Bounds where
  precision : Option Operand
  ceiling : Option Operand
  split : Option Operand

/-- Functions whose result is kept in a register. -/
inductive Function where
  | identity
  | neg
  | abs
  | reduced
  | value
  | num
  | denom
  | shown
  | display
  | nearbyReduced
  | nearbyFraction
  | fraction
  | greatestCommonDivisor
  | lowestTerms
deriving DecidableEq

/-- A search result to be put together from its parts. -/
structure ResultParts where
  fraction : Operand
  low : Operand
  iterations : Int
  overflowed : Bool

/-- What a session can be asked. -/
inductive Command where
  /-- A search; its two fractions may be kept under a name. -/
  | search (value : Operand) (bounds : Bounds) (strict : Bool) (keepAs : Option String)
  | nearbyFraction (value : Operand) (bounds : Bounds) (strict : Bool)
  | nearbyPair (value : Operand) (bounds : Bounds) (strict : Bool)
  | nearbyReduced (value : Operand) (precision : Option Operand) (strict : Bool)
  /-- Rationalizes, on its own or inside a compiled computation. -/
  | rationalize (x : Operand) (compiled : Bool) (bounds : Bounds) (strict : Bool)
  | greatestCommonDivisor (x y : Operand)
  | lowestTerms (num denom : Operand)
  | fraction (num : Operand) (denom : Option Operand)
  | compare (left right : Operand)
  | hashesLike (left right : Operand)
  | distinct (items : List Operand)
  | sort (items : List Operand)
  | split (value policy : Operand)
  | resolveCeiling (asked : Operand)
  | checkInput (value precision ceiling : Operand)
  | results (parts : List ResultParts)
  | showSettings
  | configure (changes : List (Setting × Operand))
  /-- Applies a function and keeps the result under a name. -/
  | apply (keepAs : String) (function : Function) (arguments : List Operand) (strict : Bool)

/-- What a session answers. -/
inductive Answer where
  | search (result : Approximant) (warnings : List OverflowWarning)
  | reported (value : Value) (warnings : List OverflowWarning)
  | arrays (a : FractionArrays) (warnings : List OverflowWarning)
  | value (v : Value)
  | values (vs : List Value)
  | fraction (f : Fraction)
  | comparison (c : Value.Comparison)
  | arrangement (a : Value.Arrangement)
  | results (rs : List Approximant)
  | settings (s : Settings)
  /-- The names of the settings that were changed, in alphabetical order. -/
  | configured (names : List String)

end Mediant
