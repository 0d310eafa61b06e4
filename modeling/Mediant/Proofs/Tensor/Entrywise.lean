import Mediant.Proofs.Search.Stages
import Mediant.Proofs.Search.Warnings
import Mediant.Proofs.Tensor.Filling

/-!
# Arrays are rationalized entry by entry

The pairs of an array are the pairs of its entries, each searched on its own, and they stand where
the array has the entries.  Of a view these are the places in which the view shows them.  The one
row in which the entries are searched decides two things only: the order of the warnings, and which
of several faults is reported.  It is in the lexicographic order of the multi-indices of the view,
however the entries are stored.

`Entrywise` collects this for a view of an array.  It holds for every library of arrays that keeps
the laws, and for all arguments and settings.
-/

namespace Mediant

open Binary64

variable {α δ ι : Type} {lib : ArrayLibrary α δ ι} {read : ArrayLibrary.Reading α δ ι}
  {s : Settings} {strict : Bool} {a : Arguments} {f : Fault} {x y z : α} {shape index : List ℕ}
  {e e' : List ℕ → Entry} {d : List ℕ → Binary64}

/-- Either all entries of a shape are accepted, or a first one is refused. -/
lemma forall_accepts_or_exists_refuses (s : Settings) (strict : Bool) (a : Arguments)
    (shape : List ℕ) (e : List ℕ → Entry) :
    (∀ index, InRange index shape → ∃ p, (e index).Accepts s strict a p) ∨
      ∃ index, InRange index shape ∧ ∃ f, (e index).Refuses s strict a f ∧
        ∀ earlier, InRange earlier shape → earlier < index →
          ∃ p, (e earlier).Accepts s strict a p := by
  simpa only [mem_indices_iff] using
    Entry.forall_accepts_or_exists_refuses (pairwise_indices shape)

lemma length_indices_le (shape : List ℕ) : 0 + (indices shape).length ≤ entryCount shape := by
  rw [length_indices, Nat.zero_add]

namespace ArrayLibrary

/-- The two arrays have the given shape, and hold at each multi-index its pair. -/
structure Reading.Holds (read : Reading α δ ι) (arrays : ι × ι) (shape : List ℕ)
    (pair : List ℕ → ℤ × ℤ) : Prop where
  shape_nums : read.integerShape arrays.1 = shape
  shape_denoms : read.integerShape arrays.2 = shape
  num {index : List ℕ} : InRange index shape → read.integer arrays.1 index = (pair index).1
  denom {index : List ℕ} : InRange index shape → read.integer arrays.2 index = (pair index).2

namespace Lawful

/-- Rows that are filled in row-major order give arrays that hold the pairs at their
multi-indices. -/
lemma holds_reshape (h : lib.Lawful read) {rows rows' : ι × ι} {pair : List ℕ → ℤ × ℤ}
    (hfilled : read.Filled (entryCount shape) rows rows' 0 ((indices shape).map pair)) :
    read.Holds (lib.reshape rows'.1 shape, lib.reshape rows'.2 shape) shape pair := by
  have hpair : ∀ index, InRange index shape →
      read.pair rows' (position shape index) = pair index := by
    intro index hindex
    have hitem : ((indices shape).map pair)[position shape index]? = some (pair index) := by
      rw [List.getElem?_map, getElem?_position hindex, Option.map_some]
    rw [← Nat.zero_add (position shape index)]
    exact hfilled.pair hitem
  obtain ⟨hnums, hdenoms⟩ := hfilled.areRows
  refine ⟨h.shape_reshape hnums rfl, h.shape_reshape hdenoms rfl, fun hindex => ?_,
    fun hindex => ?_⟩
  · rw [h.integer_reshape hnums rfl hindex, ← hpair _ hindex]
    rfl
  · rw [h.integer_reshape hdenoms rfl hindex, ← hpair _ hindex]
    rfl

/-- The shape of an array and the doubles of its entries are all that counts. -/
lemma rationalize_eq (h : lib.Lawful read) (hx : lib.Shows read x shape e)
    (hd : ∀ index, InRange index shape → (e index).plain.toDouble = .ok (d index)) :
    lib.rationalize s strict a x =
      (lib.fill s strict a (lib.empty (entryCount shape), lib.empty (entryCount shape)) 0
        ((indices shape).map d)).map fun filled =>
          ⟨(lib.reshape filled.value.1 shape, lib.reshape filled.value.2 shape),
            filled.warnings⟩ := by
  rw [rationalize, h.ravel_convert hx hd, List.length_map, length_indices, hx.shape_eq]
  rfl

section

variable (h : lib.Lawful read) (hx : lib.Shows read x shape e)
  (hwidth : ∀ index, InRange index shape → (e index).InWidth)

include h hx hwidth

lemma exists_rationalize_eq_ok {p : List ℕ → Reported (ℤ × ℤ)}
    (hp : ∀ index, InRange index shape → (e index).Accepts s strict a (p index)) :
    ∃ arrays, lib.rationalize s strict a x =
        .ok ⟨arrays, (indices shape).flatMap fun index => (p index).warnings⟩ ∧
      read.Holds arrays shape fun index => (p index).value := by
  choose! d hd using fun index hindex => (hwidth index hindex).exists_toDouble_eq
  obtain ⟨rows, hfill, hfilled⟩ := h.exists_fill_eq_ok
    (fun index hmem => (hd index (mem_indices_iff.mp hmem)).1)
    (fun index hmem => hp index (mem_indices_iff.mp hmem))
    (h.areRows_empty (entryCount shape)) (length_indices_le shape)
  refine ⟨_, ?_, h.holds_reshape hfilled⟩
  rw [h.rationalize_eq hx fun index hindex => (hd index hindex).1, hfill]
  rfl

lemma rationalize_eq_error (hindex : InRange index shape) (hf : (e index).Refuses s strict a f)
    (hearlier : ∀ earlier, InRange earlier shape → earlier < index →
      ∃ p, (e earlier).Accepts s strict a p) :
    lib.rationalize s strict a x = .error f := by
  choose! d hd using fun index hindex => (hwidth index hindex).exists_toDouble_eq
  have hfill := h.fill_eq_error (fun index hmem => (hd index (mem_indices_iff.mp hmem)).1)
    (pairwise_indices shape) (mem_indices_iff.mpr hindex) hf
    (fun earlier hmem => hearlier earlier (mem_indices_iff.mp hmem))
    (h.areRows_empty (entryCount shape)) (length_indices_le shape)
  rw [h.rationalize_eq hx fun index hindex => (hd index hindex).1, hfill]
  rfl

/-- Only arrays whose entries are all accepted have a result. -/
lemma forall_accepts_of_eq_ok {r : Reported (ι × ι)} (hr : lib.rationalize s strict a x = .ok r) :
    ∀ index, InRange index shape → ∃ p, (e index).Accepts s strict a p := by
  rcases forall_accepts_or_exists_refuses s strict a shape e with
    haccepts | ⟨first, hfirst, f, hf, hearlier⟩
  · exact haccepts
  · rw [h.rationalize_eq_error hx hwidth hfirst hf hearlier] at hr
    cases hr

lemma rationalize_eq_error_iff : lib.rationalize s strict a x = .error f ↔
    ∃ index, InRange index shape ∧ (e index).Refuses s strict a f ∧
      ∀ earlier, InRange earlier shape → earlier < index →
        ∃ p, (e earlier).Accepts s strict a p := by
  constructor
  · intro hfault
    rcases forall_accepts_or_exists_refuses s strict a shape e with
      haccepts | ⟨first, hfirst, f', hf, hearlier⟩
    · choose! p hp using haccepts
      obtain ⟨arrays, harrays, -⟩ := h.exists_rationalize_eq_ok hx hwidth hp
      rw [harrays] at hfault
      cases hfault
    · rw [h.rationalize_eq_error hx hwidth hfirst hf hearlier] at hfault
      rw [Except.error.inj hfault] at hf
      exact ⟨first, hfirst, hf, hearlier⟩
  · rintro ⟨index, hindex, hf, hearlier⟩
    exact h.rationalize_eq_error hx hwidth hindex hf hearlier

/-- Arrays that look alike have the same result. -/
lemma rationalize_congr (hz : lib.Shows read z shape e')
    (heq : ∀ index, InRange index shape →
      (e' index).plain.toDouble = (e index).plain.toDouble) :
    lib.rationalize s strict a z = lib.rationalize s strict a x := by
  choose! d hd using fun index hindex => (hwidth index hindex).exists_toDouble_eq
  rw [h.rationalize_eq hx fun index hindex => (hd index hindex).1,
    h.rationalize_eq hz fun index hindex => (heq index hindex).trans (hd index hindex).1]

end

/-- An array without entries is rationalized whatever the arguments are. -/
lemma exists_rationalize_of_mem (h : lib.Lawful read) (hx : lib.Shows read x shape e)
    (hzero : 0 ∈ shape) :
    ∃ arrays, (∀ s strict a, lib.rationalize s strict a x = .ok ⟨arrays, []⟩) ∧
      read.integerShape arrays.1 = shape ∧ read.integerShape arrays.2 = shape := by
  have hindices : indices shape = [] := indices_eq_nil_of_mem hzero
  have hcount : entryCount shape = 0 := by rw [← length_indices, hindices, List.length_nil]
  have hnone : ∀ index, ¬InRange index shape := by
    intro index hindex
    rw [← mem_indices_iff, hindices] at hindex
    exact nomatch hindex
  have hshape : read.integerShape (lib.reshape (lib.empty 0) shape) = shape :=
    h.shape_reshape (h.shape_empty 0) hcount
  refine ⟨(_, _), fun s strict a => ?_, hshape, hshape⟩
  rw [h.rationalize_eq (d := fun _ => .nan) hx fun index hindex => absurd hindex (hnone index),
    hindices, hcount]
  rfl

end Lawful
end ArrayLibrary

/-! ## The law -/

/-- The pair of an entry is that of a search for its double, with the warnings of that search. -/
lemma Entry.Accepts.exists_search {e : Entry} {d : Binary64} {p : Reported (ℤ × ℤ)}
    (h : e.Accepts s strict a p) (hd : e.plain.toDouble = .ok d) :
    ∃ r, search s strict { a with value := .double d } = .ok r ∧
      p.value = r.value.fraction.lowestTerms ∧ p.warnings = r.warnings ∧ Warned s d r := by
  obtain ⟨r, hr, rfl⟩ := nearbyPair_eq_ok_iff.mp ((Entry.nearbyPair_eq hd).symm.trans h.pair)
  exact ⟨r, hr, rfl, rfl, warned_of_search_eq_ok hr rfl⟩

/-- What rationalizing a view `y` of an array `x` has to do with rationalizing entries of `x`. -/
structure Entrywise (lib : ArrayLibrary α δ ι) (read : ArrayLibrary.Reading α δ ι) (s : Settings)
    (strict : Bool) (a : Arguments) (view : View) (x y : α) : Prop where
  /-- The row in which the entries are searched has every multi-index of the view. -/
  mem_row {index : List ℕ} :
    index ∈ indices (lib.viewedShape view x) ↔ InRange index (lib.viewedShape view x)
  /-- It is sorted lexicographically. -/
  row_sorted : (indices (lib.viewedShape view x)).Pairwise (· < ·)
  /-- The view shows every entry of the array. -/
  shown {index : List ℕ} : InRange index (lib.shape x) →
    InRange (view.source (lib.shape x) index) (lib.viewedShape view x) ∧
      lib.viewedEntry read view x (view.source (lib.shape x) index) = read.entry x index
  /-- What is searched for an entry is the double nearest to it. -/
  nearest {index : List ℕ} : InRange index (lib.viewedShape view x) →
    ∃ d, (lib.viewedEntry read view x index).plain.toDouble = .ok d ∧
      (lib.viewedEntry read view x index).IsNearest d ∧ read.double (lib.convert y) index = d
  /-- If all entries are accepted there is a result. -/
  returns : (∀ index, InRange index (lib.viewedShape view x) →
      ∃ p, (lib.viewedEntry read view x index).Accepts s strict a p) →
    ∃ r, lib.rationalize s strict a y = .ok r
  /-- A result consists of the pairs of the entries, at their multi-indices, with the warnings in
  the order of the row. -/
  returned {r : Reported (ι × ι)} : lib.rationalize s strict a y = .ok r →
    ∃ p : List ℕ → Reported (ℤ × ℤ),
      (∀ index, InRange index (lib.viewedShape view x) →
        (lib.viewedEntry read view x index).Accepts s strict a (p index)) ∧
      read.Holds r.value (lib.viewedShape view x) (fun index => (p index).value) ∧
      r.warnings = (indices (lib.viewedShape view x)).flatMap fun index => (p index).warnings
  /-- If any is refused, the first of these in the order of the row is what the array is refused
  for. -/
  refused {f : Fault} : lib.rationalize s strict a y = .error f ↔
    ∃ index, InRange index (lib.viewedShape view x) ∧
      (lib.viewedEntry read view x index).Refuses s strict a f ∧
      ∀ earlier, InRange earlier (lib.viewedShape view x) → earlier < index →
        ∃ p, (lib.viewedEntry read view x earlier).Accepts s strict a p
  /-- The pair of an entry is that of a search for its double, with the warnings of that search. -/
  pair {index : List ℕ} {d : Binary64} {p : Reported (ℤ × ℤ)} :
    (lib.viewedEntry read view x index).plain.toDouble = .ok d →
    (lib.viewedEntry read view x index).Accepts s strict a p →
      ∃ r, search s strict { a with value := .double d } = .ok r ∧
        p.value = r.value.fraction.lowestTerms ∧ p.warnings = r.warnings ∧ Warned s d r
  /-- An array without entries has a result whatever the settings and the arguments are. -/
  empty : 0 ∈ lib.shape x →
    ∃ arrays, (∀ s strict a, lib.rationalize s strict a y = .ok ⟨arrays, []⟩) ∧
      read.integerShape arrays.1 = lib.viewedShape view x ∧
      read.integerShape arrays.2 = lib.viewedShape view x
  /-- Arrays that show the same numbers have the same result, however they are stored. -/
  congr {z : α} : lib.shape z = lib.viewedShape view x →
    (∀ index, InRange index (lib.viewedShape view x) → (read.entry z index).plain.toDouble =
      (lib.viewedEntry read view x index).plain.toDouble) →
    lib.rationalize s strict a z = lib.rationalize s strict a y

/-- Two rows of three integers, the first of which is not a double. -/
def Tensor.sixIntegers (view : View) : Tensor :=
  ⟨[2, 3], #[.integer (2 ^ 53 + 1), .integer 2, .integer (-3), .integer 4, .integer 0,
    .integer (2 ^ 62)], view⟩

end Mediant
