import Mediant.ArrayLibrary
import Mediant.Tensor

/-!
# Tensors as an array library

The arrays that a session builds are tensors.  Converted to doubles they are tensors again, and
`IntegerArray` is the type of their arrays of 64-bit integers, which holds as many entries as its
shape has room for.
-/

namespace Mediant

/-- An array of 64-bit integers, its entries in row-major order. -/
structure IntegerArray where
  shape : List Nat
  entries : Array Int
  size_eq : entries.size = entryCount shape

/-- Whether an integer fits into 64 bits with a sign. -/
def fitsEntry (n : Int) : Bool := -0x8000000000000000 ≤ n && n < 0x8000000000000000

namespace IntegerArray

/-- A row of zeros. -/
def zeros (n : Nat) : IntegerArray :=
  ⟨[n], Array.replicate n 0, by simp [entryCount]⟩

/-- Stores an integer at a place, if it fits. -/
def store (b : IntegerArray) (place : Nat) (n : Int) : Except Fault IntegerArray :=
  if fitsEntry n then
    .ok { b with
      entries := b.entries.setIfInBounds place n
      size_eq := Array.size_setIfInBounds.trans b.size_eq }
  else .error .entryTooLarge

/-- The same entries in another shape, if it has room for just as many. -/
def reshape (b : IntegerArray) (shape : List Nat) : IntegerArray :=
  if h : entryCount b.shape = entryCount shape then ⟨shape, b.entries, b.size_eq.trans h⟩ else b

end IntegerArray

namespace Tensor

/-- The tensor with the doubles nearest to the entries. -/
def toDoubles (t : Tensor) : Tensor := t.map fun e => .real .double e.nearest

/-- Tensors as an array library. -/
def library : ArrayLibrary Tensor Tensor IntegerArray where
  shape := viewedShape
  convert := toDoubles
  ravel t := t.viewed.map Entry.nearest
  empty := IntegerArray.zeros
  store := IntegerArray.store
  reshape := IntegerArray.reshape

end Tensor
end Mediant
