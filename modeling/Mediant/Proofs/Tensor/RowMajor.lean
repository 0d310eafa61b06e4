import Mathlib.Tactic
import Mediant.Tensor

/-!
# Row-major order

A multi-index belongs to a shape if each of its indices is below the length of its axis
(`InRange`).  In row-major order the multi-indices of a shape are sorted lexicographically, and
`position` finds each in its place.

A view shows every entry of an array in one place: what stands behind the multi-indices of the view
are the multi-indices of the array, and `View.source` leads there and back.
-/

namespace Mediant

/-- The multi-index has one index for each axis of the shape, and each is below the length. -/
def InRange (index shape : List ℕ) : Prop := List.Forall₂ (· < ·) index shape

variable {index shape : List ℕ} {i n : ℕ}

lemma inRange_nil_iff : InRange index [] ↔ index = [] :=
  List.forall₂_nil_right_iff

lemma inRange_cons_iff :
    InRange index (n :: shape) ↔ ∃ i rest, i < n ∧ InRange rest shape ∧ index = i :: rest :=
  List.forall₂_cons_right_iff

/-! ## The order -/

/-- The multi-indices that are listed are those in range. -/
theorem mem_indices_iff : index ∈ indices shape ↔ InRange index shape := by
  induction shape generalizing index with
  | nil => rw [inRange_nil_iff, indices, List.mem_singleton]
  | cons n shape ih =>
    simp only [indices, List.mem_flatMap, List.mem_range, List.mem_map, ih, inRange_cons_iff]
    constructor
    · rintro ⟨i, hi, rest, hrest, rfl⟩
      exact ⟨i, rest, hi, hrest, rfl⟩
    · rintro ⟨i, rest, hi, hrest, rfl⟩
      exact ⟨i, hi, rest, hrest, rfl⟩

/-- They are listed in lexicographic order, each once. -/
theorem pairwise_indices (shape : List ℕ) : (indices shape).Pairwise (· < ·) := by
  induction shape with
  | nil => exact List.pairwise_singleton _ _
  | cons n shape ih =>
    rw [indices, List.pairwise_flatMap]
    constructor
    · intro i _
      exact List.pairwise_map.mpr (ih.imp fun h => List.cons_lt_cons_iff.mpr (.inr ⟨rfl, h⟩))
    · refine List.pairwise_lt_range.imp fun h x hx y hy => ?_
      obtain ⟨x, -, rfl⟩ := List.mem_map.mp hx
      obtain ⟨y, -, rfl⟩ := List.mem_map.mp hy
      exact List.cons_lt_cons_iff.mpr (.inl h)

/-! ## Positions -/

/-- In a row of blocks of one length, the place of an item of a block counts the blocks before. -/
lemma getElem?_flatMap {α β : Type} {l : List α} {f : α → List β} {c k : ℕ}
    (hlength : ∀ a ∈ l, (f a).length = c) (hk : k < c) (i : ℕ) :
    (l.flatMap f)[i * c + k]? = l[i]?.bind fun a => (f a)[k]? := by
  induction l generalizing i with
  | nil => rfl
  | cons a l ih =>
    have hfirst : (f a).length = c := hlength a List.mem_cons_self
    rw [List.flatMap_cons]
    cases i with
    | zero =>
      rw [Nat.zero_mul, Nat.zero_add, List.getElem?_append_left (by omega)]
      rfl
    | succ i =>
      have hindex : (i + 1) * c + k = (f a).length + (i * c + k) := by
        rw [hfirst]
        ring
      rw [hindex, List.getElem?_append_right (Nat.le_add_right _ _), Nat.add_sub_cancel_left,
        ih (fun b hb => hlength b (List.mem_cons_of_mem a hb))]
      rfl

/-- A multi-index stands at its position. -/
theorem getElem?_position (h : InRange index shape) :
    (indices shape)[position shape index]? = some index := by
  induction h with
  | nil => rfl
  | @cons i n rest shape hi hrest ih =>
    have hlength : ∀ j ∈ List.range n,
        ((indices shape).map (j :: ·)).length = entryCount shape := by
      intro j _
      rw [List.length_map, length_indices]
    have hposition : position shape rest < entryCount shape := by
      rw [← length_indices]
      exact (List.getElem?_eq_some_iff.mp ih).1
    rw [indices, position, getElem?_flatMap hlength hposition, List.getElem?_range hi,
      Option.bind_some, List.getElem?_map, ih, Option.map_some]

lemma position_eq {k : ℕ} (h : (indices shape)[k]? = some index) : position shape index = k := by
  have hmem : index ∈ indices shape := List.mem_of_getElem? h
  have hposition := getElem?_position (mem_indices_iff.mp hmem)
  have hnodup : (indices shape).Nodup := (pairwise_indices shape).imp ne_of_lt
  have hlt : position shape index < (indices shape).length :=
    (List.getElem?_eq_some_iff.mp hposition).1
  exact (List.getElem?_inj hlt hnodup).mp (hposition.trans h.symm)

/-- A row that has an item for each multi-index, at its position, has no others. -/
lemma eq_map_indices {α : Type} {l : List α} {f : List ℕ → α}
    (hlength : l.length = entryCount shape)
    (h : ∀ index, InRange index shape → l[position shape index]? = some (f index)) :
    l = (indices shape).map f := by
  refine List.ext_getElem? fun k => ?_
  rw [List.getElem?_map]
  cases hk : (indices shape)[k]? with
  | none =>
    rw [List.getElem?_eq_none_iff, length_indices, ← hlength] at hk
    exact List.getElem?_eq_none hk
  | some index =>
    have hmem : index ∈ indices shape := List.mem_of_getElem? hk
    rw [← position_eq hk, h index (mem_indices_iff.mp hmem), Option.map_some]

/-! ## Views -/

namespace View

variable (view : View)

lemma shape_shape : view.shape (view.shape shape) = shape := by
  cases view with
  | plain => rfl
  | transposed => exact List.reverse_reverse shape
  | reversed => rfl

lemma source_shape : view.source (view.shape shape) index = view.source shape index := by
  cases view <;> rfl

lemma mem_shape_iff : n ∈ view.shape shape ↔ n ∈ shape := by
  cases view with
  | plain => rfl
  | transposed => exact List.mem_reverse
  | reversed => rfl

lemma inRange_shape (h : InRange index shape) :
    InRange (view.source shape index) (view.shape shape) := by
  cases view with
  | plain => cases h <;> constructor <;> assumption
  | transposed => exact List.rel_reverse h
  | reversed =>
    cases h with
    | nil => exact .nil
    | cons hi hrest => exact .cons (by omega) hrest

/-- A multi-index of the view stands for a multi-index of the array. -/
lemma inRange_source (h : InRange index (view.shape shape)) :
    InRange (view.source shape index) shape := by
  have hback := view.inRange_shape h
  rwa [view.shape_shape, view.source_shape] at hback

/-- The way from the view to the array is also the way back. -/
lemma source_source (h : InRange index shape) :
    view.source shape (view.source shape index) = index := by
  cases view with
  | plain => cases h <;> rfl
  | transposed => exact List.reverse_reverse index
  | reversed =>
    cases h with
    | nil => rfl
    | @cons i n rest shape hi hrest =>
      have hback : n - 1 - (n - 1 - i) = i := by omega
      simp only [source, hback]

/-- The entries behind a transposed array of two rows and three columns. -/
example : (indices (View.shape .transposed [2, 3])).map (View.source .transposed [2, 3]) =
    [[0, 0], [1, 0], [0, 1], [1, 1], [0, 2], [1, 2]] := by
  decide

end View
end Mediant
