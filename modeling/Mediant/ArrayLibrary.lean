import Mediant.Approximation

/-!
# Rationalizing an array

An array is rationalized entry by entry: its entries are converted to doubles and put in one row,
each is rationalized as a scalar, and numerators and denominators are stored in two rows of 64-bit
integers, which get the shape of the array in the end.  The first entry that fails decides; an array
without entries checks nothing.

What arrays are is the business of an array library.  `ArrayLibrary` is the record of the operations
that are used of one.  `Tensor.library` is the library that a session has, and what is proved of
`ArrayLibrary.rationalize` is proved for every library that keeps the laws of arrays.
-/

namespace Mediant

/-- Operations on arrays of numbers of any type `α`, arrays of doubles `δ`, and arrays of 64-bit
integers `ι`. -/
structure ArrayLibrary (α δ ι : Type) where
  /-- The lengths of the axes. -/
  shape : α → List Nat
  /-- The array with all entries converted to doubles. -/
  convert : α → δ
  /-- The entries in one row. -/
  ravel : δ → List Binary64
  /-- A row of the given length, whose entries are yet to be stored. -/
  empty : Nat → ι
  /-- Stores an integer at a place of a row. -/
  store : ι → Nat → Int → Except Fault ι
  /-- The array of the given shape with the entries of a row. -/
  reshape : ι → List Nat → ι

namespace ArrayLibrary

variable {α δ ι : Type}

/-- Stores numerator and denominator at the same place of two rows. -/
def storePair (lib : ArrayLibrary α δ ι) (rows : ι × ι) (place : Nat) (pair : Int × Int) :
    Except Fault (ι × ι) := do
  let nums ← lib.store rows.1 place pair.1
  let denoms ← lib.store rows.2 place pair.2
  return (nums, denoms)

/-- Rationalizes a double, and stores its pair at a place of two rows. -/
def storeNearby (lib : ArrayLibrary α δ ι) (s : Settings) (strict : Bool) (a : Arguments)
    (rows : ι × ι) (place : Nat) (x : Binary64) : Except Fault (Reported (ι × ι)) := do
  let pair ← nearbyPair s strict { a with value := .double x }
  let rows ← lib.storePair rows place pair.value
  return ⟨rows, pair.warnings⟩

/-- Rationalizes doubles one after the other, and stores their pairs from the given place on. -/
def fill (lib : ArrayLibrary α δ ι) (s : Settings) (strict : Bool) (a : Arguments) (rows : ι × ι)
    (place : Nat) : List Binary64 → Except Fault (Reported (ι × ι))
  | [] => return ⟨rows, []⟩
  | x :: rest => do
    let stored ← lib.storeNearby s strict a rows place x
    let filled ← lib.fill s strict a stored.value (place + 1) rest
    return ⟨filled.value, stored.warnings ++ filled.warnings⟩

/-- The arrays of numerators and denominators of an array.  The arguments say how near the fractions
have to be; the value among them is filled in. -/
def rationalize (lib : ArrayLibrary α δ ι) (s : Settings) (strict : Bool) (a : Arguments) (x : α) :
    Except Fault (Reported (ι × ι)) := do
  let doubles := lib.ravel (lib.convert x)
  let row := lib.empty doubles.length
  let filled ← lib.fill s strict a (row, row) 0 doubles
  let (nums, denoms) := filled.value
  return ⟨(lib.reshape nums (lib.shape x), lib.reshape denoms (lib.shape x)), filled.warnings⟩

end ArrayLibrary
end Mediant
