import Mediant.Entry
import Mediant.Fault

/-!
# Arrays and views on them

An array has a shape, which is a list of lengths, one for each axis, and entries that are listed
in row-major order: the last axis runs fastest.  A place in an array is named by its multi-index,
a list with one index for each axis, and `position` finds it in the list.

A view shows the entries of an array in another arrangement.  It is given by the shape that it
shows and by the multi-index of the array that stands behind each multi-index of the view.
Transposing reverses the order of the axes; reversing runs through the first axis from its end.

An array without axes has one entry and acts as that entry in many places.  Where a single truth
value is needed, every array with exactly one entry will do.
-/

namespace Mediant

/-- The multi-indices of a shape in row-major order. -/
def indices : List Nat → List (List Nat)
  | [] => [[]]
  | n :: shape => (List.range n).flatMap fun i => (indices shape).map (i :: ·)

/-- How many entries an array of a shape has: the product of the lengths. -/
def entryCount (shape : List Nat) : Nat := shape.foldr (· * ·) 1

/-- The place of a multi-index in the row-major order of a shape. -/
def position : List Nat → List Nat → Nat
  | _ :: shape, i :: index => i * entryCount shape + position shape index
  | _, _ => 0

/-- The ways to look at an array. -/
inductive View where
  | plain
  | transposed
  | reversed
deriving DecidableEq

namespace View

/-- The shape that a view of an array shows. -/
def shape : View → List Nat → List Nat
  | transposed, lengths => lengths.reverse
  | _, lengths => lengths

/-- The multi-index of the array that a multi-index of the view stands for. -/
def source : View → List Nat → List Nat → List Nat
  | transposed, _, index => index.reverse
  | reversed, n :: _, i :: index => (n - 1 - i) :: index
  | _, _, index => index

end View

/-- An array: its shape, its entries in row-major order, and the view through which it is read. -/
structure Tensor where
  shape : List Nat
  entries : Array Entry
  view : View

namespace Tensor

/-- The shape that is shown. -/
def viewedShape (t : Tensor) : List Nat := t.view.shape t.shape

/-- The entry at a multi-index of the view. -/
def entry (t : Tensor) (index : List Nat) : Entry :=
  t.entries.getD (position t.shape (t.view.source t.shape index)) default

/-- The entries in the row-major order of the view. -/
def viewed (t : Tensor) : List Entry := (indices t.viewedShape).map t.entry

/-- The entry of an array without axes. -/
def scalar? (t : Tensor) : Option Entry := if t.shape.isEmpty then some (t.entry []) else none

/-- The entry of an array without axes; an array with axes is no number. -/
def scalar (t : Tensor) : Except Fault Entry :=
  match t.scalar? with
  | some e => .ok e
  | none => .error .wrongType

/-- The entry of an array that has exactly one. -/
def only (t : Tensor) : Except Fault Entry :=
  match t.viewed with
  | [] => .error .truthOfNone
  | [e] => .ok e
  | _ => .error .truthOfMany

/-- The array of the images of all entries. -/
def map (f : Entry → Entry) (t : Tensor) : Tensor := { t with entries := t.entries.map f }

end Tensor

/-- A shape has as many multi-indices as an array of it has entries. -/
theorem length_indices (shape : List Nat) : (indices shape).length = entryCount shape := by
  induction shape with
  | nil => rfl
  | cons n shape ih =>
    simp only [indices, List.length_flatMap, List.length_map, ih, entryCount, List.foldr_cons,
      List.map_const', List.length_range, List.sum_replicate_nat]

/-- An array with an axis of no length has no entries. -/
theorem indices_eq_nil_of_mem {shape : List Nat} (h : 0 ∈ shape) : indices shape = [] := by
  induction shape with
  | nil => cases h
  | cons n shape ih =>
    rcases List.mem_cons.mp h with rfl | h
    · rfl
    · simp [indices, ih h]

end Mediant
