import Mediant.Proofs.Faults
import Mediant.Proofs.Rounding.Operations
import Mediant.Proofs.Tensor.RowMajor
import Mediant.Rationalization

/-!
# Laws of array libraries

What the operations of an array library do is said of the things that its arrays hold at their
multi-indices, which an `ArrayLibrary.Reading` names: entries of any numeric type, doubles, or
integers.  `ArrayLibrary.Lawful` has a law for each operation, and nothing else is used of a
library.  None of the laws is about fractions.

The law of the conversion says that the double of an entry is the one that its number converts to
when it is taken out of the array.  `Entry.IsNearest` is what this comes to for each type.

Views do not belong to the operations.  A view is another array, and `ArrayLibrary.IsView` says
what it shows.

Tensors keep the laws.
-/

namespace Mediant

open Binary64

/-! ## Entries -/

namespace Entry

variable {e : Entry} {d : Binary64}

/-- The entry is no integer of more than 64 bits, be they with a sign or without. -/
def InWidth : Entry → Prop
  | integer n => -2 ^ 63 ≤ n ∧ n < 2 ^ 64
  | _ => True

/-- The double is the one nearest to the number that the entry is. -/
inductive IsNearest : Entry → Binary64 → Prop
  | truth {b : Bool} {d : Binary64} (h : d.Denotes b.toInt) : IsNearest (.truth b) d
  | integer {n : ℤ} {d : Binary64} (h : d.Denotes (roundOff n)) : IsNearest (.integer n) d
  | real (format : Format) (x : Binary64) : IsNearest (.real format x) x

/-- An entry converts to the double nearest to it. -/
lemma InWidth.exists_toDouble_eq (h : e.InWidth) :
    ∃ d, e.plain.toDouble = .ok d ∧ e.IsNearest d := by
  cases e with
  | truth b =>
    have hrange : |roundOff (b.toInt : ℚ)| < overflowValue :=
      abs_roundOff_lt_overflowValue (by cases b <;> norm_num)
    obtain ⟨d, hd, hden⟩ := toDouble_eq hrange
    have hexact : roundOff (b.toInt : ℚ) = b.toInt :=
      (representable_intCast (by cases b <;> norm_num)).roundOff_eq
    rw [hexact] at hden
    exact ⟨d, hd, .truth hden⟩
  | integer n =>
    have habs : |n| ≤ 2 ^ 64 := abs_le.mpr ⟨by linarith [h.1], h.2.le⟩
    have hcast : |(n : ℚ)| ≤ 2 ^ 64 := by exact_mod_cast habs
    have hrange : |roundOff (n : ℚ)| < overflowValue :=
      abs_roundOff_lt_overflowValue (hcast.trans (by norm_num))
    obtain ⟨d, hd, hden⟩ := toDouble_eq hrange
    exact ⟨d, hd, .integer hden⟩
  | real format x => exact ⟨x, rfl, .real format x⟩

end Entry

/-! ## Laws -/

namespace ArrayLibrary

variable {α δ ι : Type}

/-- What arrays hold at each multi-index. -/
structure Reading (α δ ι : Type) where
  entry : α → List ℕ → Entry
  doubleShape : δ → List ℕ
  double : δ → List ℕ → Binary64
  integerShape : ι → List ℕ
  integer : ι → List ℕ → ℤ

/-- The operations do what is expected of them. -/
structure Lawful (lib : ArrayLibrary α δ ι) (read : Reading α δ ι) : Prop where
  /-- The conversion keeps the shape. -/
  shape_convert (x : α) : read.doubleShape (lib.convert x) = lib.shape x
  /-- It converts each entry as it is converted on its own. -/
  double_convert {x : α} {index : List ℕ} {d : Binary64} : InRange index (lib.shape x) →
    (read.entry x index).plain.toDouble = .ok d → read.double (lib.convert x) index = d
  /-- A row has room for the doubles of an array and no more. -/
  length_ravel (z : δ) : (lib.ravel z).length = entryCount (read.doubleShape z)
  /-- They are in row-major order. -/
  getElem?_ravel {z : δ} {index : List ℕ} : InRange index (read.doubleShape z) →
    (lib.ravel z)[position (read.doubleShape z) index]? = some (read.double z index)
  /-- A new row has one axis of the length that is asked for. -/
  shape_empty (n : ℕ) : read.integerShape (lib.empty n) = [n]
  /-- An integer of 64 bits is stored at its place, and everything else stays. -/
  store {b : ι} {n place : ℕ} {k : ℤ} : read.integerShape b = [n] → place < n →
    -2 ^ 63 ≤ k ∧ k < 2 ^ 63 → ∃ b', lib.store b place k = .ok b' ∧
      read.integerShape b' = [n] ∧ read.integer b' [place] = k ∧
      ∀ other < n, other ≠ place → read.integer b' [other] = read.integer b [other]
  /-- Any other integer is refused. -/
  store_eq_error {b : ι} {n place : ℕ} {k : ℤ} : read.integerShape b = [n] → place < n →
    ¬(-2 ^ 63 ≤ k ∧ k < 2 ^ 63) → lib.store b place k = .error .entryTooLarge
  /-- A row can get any shape that has as many entries. -/
  shape_reshape {b : ι} {n : ℕ} {shape : List ℕ} : read.integerShape b = [n] →
    entryCount shape = n → read.integerShape (lib.reshape b shape) = shape
  /-- It fills that shape in row-major order. -/
  integer_reshape {b : ι} {n : ℕ} {shape index : List ℕ} : read.integerShape b = [n] →
    entryCount shape = n → InRange index shape →
      read.integer (lib.reshape b shape) index = read.integer b [position shape index]

/-- The array has the given shape and entries. -/
structure Shows (lib : ArrayLibrary α δ ι) (read : Reading α δ ι) (x : α) (shape : List ℕ)
    (e : List ℕ → Entry) : Prop where
  shape_eq : lib.shape x = shape
  entry_eq {index : List ℕ} : InRange index shape → read.entry x index = e index

/-- The shape that a view of an array shows. -/
def viewedShape (lib : ArrayLibrary α δ ι) (view : View) (x : α) : List ℕ :=
  view.shape (lib.shape x)

/-- The entry that a view of an array shows at a multi-index. -/
def viewedEntry (lib : ArrayLibrary α δ ι) (read : Reading α δ ι) (view : View) (x : α)
    (index : List ℕ) : Entry :=
  read.entry x (view.source (lib.shape x) index)

/-- The second array is a view of the first. -/
def IsView (lib : ArrayLibrary α δ ι) (read : Reading α δ ι) (view : View) (x y : α) : Prop :=
  lib.Shows read y (lib.viewedShape view x) (lib.viewedEntry read view x)

/-- The array has no integers of more than 64 bits. -/
def InWidth (lib : ArrayLibrary α δ ι) (read : Reading α δ ι) (x : α) : Prop :=
  ∀ index, InRange index (lib.shape x) → (read.entry x index).InWidth

variable {lib : ArrayLibrary α δ ι} {read : Reading α δ ι} {x : α} {shape index : List ℕ}
  {e : List ℕ → Entry} {d : List ℕ → Binary64}

/-- Neither have its views. -/
lemma InWidth.viewedEntry (h : lib.InWidth read x) {view : View}
    (hindex : InRange index (lib.viewedShape view x)) :
    (lib.viewedEntry read view x index).InWidth :=
  h _ (view.inRange_source hindex)

namespace Lawful

/-- An array of doubles holds the doubles of the entries. -/
lemma double_convert_eq (h : lib.Lawful read) (hx : lib.Shows read x shape e)
    (hindex : InRange index shape) {d : Binary64} (hd : (e index).plain.toDouble = .ok d) :
    read.double (lib.convert x) index = d := by
  rw [← hx.entry_eq hindex] at hd
  rw [← hx.shape_eq] at hindex
  exact h.double_convert hindex hd

/-- The row of an array consists of these doubles. -/
lemma ravel_convert (h : lib.Lawful read) (hx : lib.Shows read x shape e)
    (hd : ∀ index, InRange index shape → (e index).plain.toDouble = .ok (d index)) :
    lib.ravel (lib.convert x) = (indices shape).map d := by
  have hshape : read.doubleShape (lib.convert x) = shape := (h.shape_convert x).trans hx.shape_eq
  refine eq_map_indices ?_ fun index hindex => ?_
  · rw [h.length_ravel, hshape]
  · rw [← h.double_convert_eq hx hindex (hd index hindex)]
    rw [← hshape] at hindex ⊢
    exact h.getElem?_ravel hindex

end Lawful
end ArrayLibrary

/-! ## Tensors -/

lemma fitsEntry_iff {n : ℤ} : fitsEntry n = true ↔ -2 ^ 63 ≤ n ∧ n < 2 ^ 63 := by
  rw [fitsEntry, Bool.and_eq_true, decide_eq_true_eq, decide_eq_true_eq]
  norm_num

namespace IntegerArray

variable {b : IntegerArray} {n place other : ℕ} {k : ℤ} {shape index : List ℕ}

/-- The integer at a multi-index. -/
def integer (b : IntegerArray) (index : List ℕ) : ℤ :=
  b.entries.getD (position b.shape index) 0

lemma size_of_shape (hb : b.shape = [n]) : b.entries.size = n := by
  rw [b.size_eq, hb, entryCount, List.foldr_cons, List.foldr_nil, Nat.mul_one]

lemma integer_of_shape (hb : b.shape = [n]) : b.integer [place] = b.entries.getD place 0 := by
  rw [integer, hb]
  simp [position, entryCount]

lemma exists_store_eq_ok (hb : b.shape = [n]) (hplace : place < n)
    (hk : -2 ^ 63 ≤ k ∧ k < 2 ^ 63) : ∃ b', b.store place k = .ok b' ∧ b'.shape = [n] ∧
      b'.integer [place] = k ∧
      ∀ other < n, other ≠ place → b'.integer [other] = b.integer [other] := by
  obtain ⟨b', hstore, hb', hentries⟩ : ∃ b', b.store place k = .ok b' ∧ b'.shape = [n] ∧
      b'.entries = b.entries.setIfInBounds place k :=
    ⟨_, if_pos (fitsEntry_iff.mpr hk), hb, rfl⟩
  refine ⟨b', hstore, hb', ?_, fun other _ hne => ?_⟩
  · rw [← size_of_shape hb] at hplace
    rw [integer_of_shape hb', hentries]
    simp [hplace]
  · rw [integer_of_shape hb', integer_of_shape hb, hentries]
    simp [Array.getElem?_setIfInBounds_ne hne.symm]

lemma store_eq_error (hk : ¬(-2 ^ 63 ≤ k ∧ k < 2 ^ 63)) :
    b.store place k = .error .entryTooLarge :=
  if_neg fun hfits => hk (fitsEntry_iff.mp hfits)

lemma reshape_eq (hb : b.shape = [n]) (hn : entryCount shape = n) :
    b.reshape shape = ⟨shape, b.entries, (size_of_shape hb).trans hn.symm⟩ := by
  have hcount : entryCount b.shape = entryCount shape := by
    rw [← b.size_eq, size_of_shape hb, hn]
  rw [reshape, dif_pos hcount]

lemma integer_reshape (hb : b.shape = [n]) (hn : entryCount shape = n) :
    (b.reshape shape).integer index = b.integer [position shape index] := by
  rw [reshape_eq hb hn, integer_of_shape hb, integer]

end IntegerArray

namespace Tensor

variable {t : Tensor} {index : List ℕ} {d : Binary64}

/-- What tensors hold. -/
def reading : ArrayLibrary.Reading Tensor Tensor IntegerArray where
  entry := entry
  doubleShape := viewedShape
  double t index := (t.entry index).nearest
  integerShape := IntegerArray.shape
  integer := IntegerArray.integer

lemma nearest_of_toDouble_eq_ok {e : Entry} (h : e.plain.toDouble = .ok d) : e.nearest = d := by
  have hint : ∀ n : ℤ, toDouble n = .ok d → Binary64.ofInt n = d := by
    intro n h
    unfold Mediant.toDouble at h
    cases hof : Binary64.ofInt n with
    | finite x =>
      rw [hof] at h
      exact Except.ok.inj h
    | infinity negative =>
      rw [hof] at h
      cases h
    | nan =>
      rw [hof] at h
      cases h
  cases e with
  | truth b => exact hint b.toInt h
  | integer n => exact hint n h
  | real format x => exact Except.ok.inj h

lemma nearest_entry_toDoubles : (t.toDoubles.entry index).nearest = (t.entry index).nearest := by
  unfold entry toDoubles map
  rw [Array.getD_eq_getD_getElem?, Array.getD_eq_getD_getElem?, Array.getElem?_map]
  cases t.entries[position t.shape (t.view.source t.shape index)]? <;> rfl

lemma length_ravel : (library.ravel t).length = entryCount t.viewedShape := by
  change (t.viewed.map Entry.nearest).length = _
  rw [List.length_map, viewed, List.length_map, length_indices]

lemma getElem?_ravel (h : InRange index t.viewedShape) :
    (library.ravel t)[position t.viewedShape index]? = some (t.entry index).nearest := by
  change (t.viewed.map Entry.nearest)[_]? = _
  rw [List.getElem?_map, viewed, List.getElem?_map, getElem?_position h, Option.map_some,
    Option.map_some]

/-- Tensors are an array library. -/
theorem lawful : library.Lawful reading where
  shape_convert _ := rfl
  double_convert _ hd := nearest_entry_toDoubles.trans (nearest_of_toDouble_eq_ok hd)
  length_ravel _ := length_ravel
  getElem?_ravel h := getElem?_ravel h
  shape_empty _ := rfl
  store hb hplace hk := IntegerArray.exists_store_eq_ok hb hplace hk
  store_eq_error _ _ hk := IntegerArray.store_eq_error hk
  shape_reshape hb hn := congrArg IntegerArray.shape (IntegerArray.reshape_eq hb hn)
  integer_reshape hb hn _ := IntegerArray.integer_reshape hb hn

lemma inWidth (h : ∀ e ∈ t.entries, e.InWidth) : library.InWidth reading t := by
  intro index _
  change (t.entry index).InWidth
  rw [entry, Array.getD_eq_getD_getElem?]
  cases he : t.entries[position t.shape (t.view.source t.shape index)]? with
  | none => trivial
  | some e => exact h e (Array.mem_of_getElem? he)

lemma isView (shape : List ℕ) (entries : Array Entry) (view : View) :
    library.IsView reading view ⟨shape, entries, .plain⟩ ⟨shape, entries, view⟩ :=
  ⟨rfl, fun _ => rfl⟩

end Tensor
end Mediant
