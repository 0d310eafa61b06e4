import Mediant.Proofs.Tensor.Library

/-!
# Filling two rows with the pairs of an array

The doubles of an array are rationalized one after the other, and their pairs are stored in two
rows.  `ArrayLibrary.storeNearby` takes one step of this: it stores the pair of its double at its
place and keeps all others, or refuses the double, which has to do with the double alone.
`ArrayLibrary.fill` takes all the steps; `ArrayLibrary.Reading.Filled` is what one step and many
have in common, and `Filled.cons` puts them together.

The first double that is refused decides.  As the multi-indices of an array are sorted, that is the
one with the least multi-index.
-/

namespace Mediant

open Binary64

variable {s : Settings} {strict : Bool} {a : Arguments} {f : Fault} {p : Reported (ℤ × ℤ)}

instance : Nonempty (Reported (ℤ × ℤ)) := ⟨⟨(0, 0), []⟩⟩

/-! ## One entry -/

/-- Numerator and denominator are signed integers of 64 bits. -/
def Storable (t : ℤ × ℤ) : Prop := (-2 ^ 63 ≤ t.1 ∧ t.1 < 2 ^ 63) ∧ -2 ^ 63 ≤ t.2 ∧ t.2 < 2 ^ 63

namespace Entry

variable {e : Entry} {d : Binary64}

/-- What a search gives for an entry, converted to a double. -/
def nearbyPair (e : Entry) (s : Settings) (strict : Bool) (a : Arguments) :
    Except Fault (Reported (ℤ × ℤ)) :=
  e.plain.toDouble >>= fun d => Mediant.nearbyPair s strict { a with value := .double d }

lemma nearbyPair_eq (hd : e.plain.toDouble = .ok d) :
    e.nearbyPair s strict a = Mediant.nearbyPair s strict { a with value := .double d } := by
  rw [nearbyPair, hd, Except.bind_ok]

/-- The entry has a pair that an array of integers can hold. -/
structure Accepts (e : Entry) (s : Settings) (strict : Bool) (a : Arguments)
    (p : Reported (ℤ × ℤ)) : Prop where
  pair : e.nearbyPair s strict a = .ok p
  storable : Storable p.value

/-- Why the entry has no such pair. -/
inductive Refuses (e : Entry) (s : Settings) (strict : Bool) (a : Arguments) : Fault → Prop
  | search {f : Fault} (h : e.nearbyPair s strict a = .error f) : e.Refuses s strict a f
  | tooLarge {p : Reported (ℤ × ℤ)} (h : e.nearbyPair s strict a = .ok p)
      (hp : ¬Storable p.value) : e.Refuses s strict a .entryTooLarge

lemma accepts_or_refuses (e : Entry) (s : Settings) (strict : Bool) (a : Arguments) :
    (∃ p, e.Accepts s strict a p) ∨ ∃ f, e.Refuses s strict a f := by
  cases h : e.nearbyPair s strict a with
  | error f => exact .inr ⟨f, .search h⟩
  | ok p =>
    by_cases hp : Storable p.value
    · exact .inl ⟨p, h, hp⟩
    · exact .inr ⟨_, .tooLarge h hp⟩

/-- Either all entries of a sorted row are accepted, or a first one is refused. -/
lemma forall_accepts_or_exists_refuses {l : List (List ℕ)} {e : List ℕ → Entry}
    (hsorted : l.Pairwise (· < ·)) :
    (∀ index ∈ l, ∃ p, (e index).Accepts s strict a p) ∨
      ∃ index ∈ l, ∃ f, (e index).Refuses s strict a f ∧
        ∀ earlier ∈ l, earlier < index → ∃ p, (e earlier).Accepts s strict a p := by
  induction hsorted with
  | nil => exact .inl nofun
  | @cons first l hfirst hsorted ih =>
    rcases (e first).accepts_or_refuses s strict a with haccepts | ⟨f, hrefuses⟩
    · rcases ih with hall | ⟨index, hindex, f, hrefuses, hearlier⟩
      · exact .inl (List.forall_mem_cons.mpr ⟨haccepts, hall⟩)
      · exact .inr ⟨index, List.mem_cons_of_mem first hindex, f, hrefuses,
          List.forall_mem_cons.mpr ⟨fun _ => haccepts, hearlier⟩⟩
    · refine .inr ⟨first, List.mem_cons_self, f, hrefuses, fun earlier hmem hlt => ?_⟩
      rcases List.mem_cons.mp hmem with rfl | hmem
      · exact absurd hlt (lt_irrefl earlier)
      · exact absurd hlt (hfirst earlier hmem).asymm

end Entry

namespace ArrayLibrary

variable {α δ ι : Type} {lib : ArrayLibrary α δ ι} {read : Reading α δ ι} {n place : ℕ}
  {rows rows' rows'' : ι × ι} {t : ℤ × ℤ} {pairs : List (ℤ × ℤ)}

/-! ## Two rows -/

/-- Both are rows of a length. -/
structure Reading.AreRows (read : Reading α δ ι) (n : ℕ) (rows : ι × ι) : Prop where
  nums : read.integerShape rows.1 = [n]
  denoms : read.integerShape rows.2 = [n]

/-- Numerator and denominator at a place. -/
def Reading.pair (read : Reading α δ ι) (rows : ι × ι) (place : ℕ) : ℤ × ℤ :=
  (read.integer rows.1 [place], read.integer rows.2 [place])

/-- The rows hold the pairs from a place on, and are otherwise as before. -/
structure Reading.Filled (read : Reading α δ ι) (n : ℕ) (before rows : ι × ι) (place : ℕ)
    (pairs : List (ℤ × ℤ)) : Prop where
  areRows : read.AreRows n rows
  pair {i : ℕ} {t : ℤ × ℤ} : pairs[i]? = some t → read.pair rows (place + i) = t
  other {i : ℕ} : i < n → i < place ∨ place + pairs.length ≤ i →
    read.pair rows i = read.pair before i

namespace Reading

lemma AreRows.filled_nil (h : read.AreRows n rows) : read.Filled n rows rows place [] :=
  ⟨h, nofun, fun _ _ => rfl⟩

/-- A pair is stored, and then the others after it. -/
lemma Filled.cons (h : read.Filled n rows rows' place [t]) (hplace : place < n)
    (hrest : read.Filled n rows' rows'' (place + 1) pairs) :
    read.Filled n rows rows'' place (t :: pairs) := by
  refine ⟨hrest.areRows, ?_, ?_⟩
  · intro i u hu
    cases i with
    | zero =>
      rw [Nat.add_zero, hrest.other hplace (.inl (Nat.lt_succ_self place)), ← Option.some.inj hu]
      exact h.pair (i := 0) rfl
    | succ i =>
      rw [Nat.add_comm i 1, ← Nat.add_assoc]
      exact hrest.pair hu
  · intro i hi hout
    rw [List.length_cons] at hout
    rw [hrest.other hi (by omega), h.other hi (by rw [List.length_singleton]; omega)]

end Reading

namespace Lawful

lemma areRows_empty (h : lib.Lawful read) (n : ℕ) : read.AreRows n (lib.empty n, lib.empty n) :=
  ⟨h.shape_empty n, h.shape_empty n⟩

lemma exists_storePair_eq_ok (h : lib.Lawful read) (hrows : read.AreRows n rows)
    (hplace : place < n) (ht : Storable t) :
    ∃ rows', lib.storePair rows place t = .ok rows' ∧ read.Filled n rows rows' place [t] := by
  obtain ⟨nums, hnums, hnumshape, hnum, hothernum⟩ := h.store hrows.nums hplace ht.1
  obtain ⟨denoms, hdenoms, hdenomshape, hdenom, hotherdenom⟩ :=
    h.store hrows.denoms hplace ht.2
  refine ⟨(nums, denoms), ?_, ⟨hnumshape, hdenomshape⟩, ?_, ?_⟩
  · rw [storePair, hnums, Except.bind_ok, hdenoms]
    rfl
  · intro i u hu
    cases i with
    | zero =>
      rw [← Option.some.inj hu]
      exact Prod.ext hnum hdenom
    | succ i => cases hu
  · intro i hi hout
    have hne : i ≠ place := by
      rw [List.length_singleton] at hout
      omega
    exact Prod.ext (hothernum i hi hne) (hotherdenom i hi hne)

lemma storePair_eq_error (h : lib.Lawful read) (hrows : read.AreRows n rows)
    (hplace : place < n) (ht : ¬Storable t) :
    lib.storePair rows place t = .error .entryTooLarge := by
  rw [storePair]
  by_cases hnum : -2 ^ 63 ≤ t.1 ∧ t.1 < 2 ^ 63
  · obtain ⟨nums, hnums, -⟩ := h.store hrows.nums hplace hnum
    rw [hnums, Except.bind_ok,
      h.store_eq_error hrows.denoms hplace fun hdenom => ht ⟨hnum, hdenom⟩, Except.bind_error]
  · rw [h.store_eq_error hrows.nums hplace hnum, Except.bind_error]

/-! ## One step -/

section

variable {x : Binary64}

/-- The pair of a double is stored if it has one of 64 bits. -/
lemma exists_storeNearby_eq_ok (h : lib.Lawful read) (hrows : read.AreRows n rows)
    (hplace : place < n) (hp : nearbyPair s strict { a with value := .double x } = .ok p)
    (hstorable : Storable p.value) :
    ∃ rows', lib.storeNearby s strict a rows place x = .ok ⟨rows', p.warnings⟩ ∧
      read.Filled n rows rows' place [p.value] := by
  obtain ⟨rows', hstore, hfilled⟩ := h.exists_storePair_eq_ok hrows hplace hstorable
  refine ⟨rows', ?_, hfilled⟩
  rw [storeNearby, hp, Except.bind_ok, hstore]
  rfl

/-- The fault of storing a pair that is too large. -/
lemma storeNearby_eq_error (h : lib.Lawful read) (hrows : read.AreRows n rows)
    (hplace : place < n) (hp : nearbyPair s strict { a with value := .double x } = .ok p)
    (hlarge : ¬Storable p.value) :
    lib.storeNearby s strict a rows place x = .error .entryTooLarge := by
  rw [storeNearby, hp, Except.bind_ok, h.storePair_eq_error hrows hplace hlarge, Except.bind_error]

end

section

variable {e : Entry} {d : Binary64}

lemma exists_storeNearby_eq_ok_of_accepts (h : lib.Lawful read) (hrows : read.AreRows n rows)
    (hplace : place < n) (hd : e.plain.toDouble = .ok d) (hp : e.Accepts s strict a p) :
    ∃ rows', lib.storeNearby s strict a rows place d = .ok ⟨rows', p.warnings⟩ ∧
      read.Filled n rows rows' place [p.value] :=
  h.exists_storeNearby_eq_ok hrows hplace ((Entry.nearbyPair_eq hd).symm.trans hp.pair) hp.storable

lemma storeNearby_eq_error_of_refuses (h : lib.Lawful read) (hrows : read.AreRows n rows)
    (hplace : place < n) (hd : e.plain.toDouble = .ok d) (hf : e.Refuses s strict a f) :
    lib.storeNearby s strict a rows place d = .error f := by
  cases hf with
  | search hsearch =>
    rw [Entry.nearbyPair_eq hd] at hsearch
    rw [storeNearby, hsearch, Except.bind_error]
  | tooLarge hpair hlarge =>
    exact h.storeNearby_eq_error hrows hplace ((Entry.nearbyPair_eq hd).symm.trans hpair) hlarge

end

/-! ## All steps -/

section

variable {l : List (List ℕ)} {e : List ℕ → Entry} {d : List ℕ → Binary64} {index : List ℕ}

/-- Entries that are all accepted fill the rows with their pairs, and have warned in their
order. -/
lemma exists_fill_eq_ok (h : lib.Lawful read) {p : List ℕ → Reported (ℤ × ℤ)}
    (hd : ∀ index ∈ l, (e index).plain.toDouble = .ok (d index))
    (hp : ∀ index ∈ l, (e index).Accepts s strict a (p index)) (hrows : read.AreRows n rows)
    (hplace : place + l.length ≤ n) :
    ∃ rows', lib.fill s strict a rows place (l.map d) =
        .ok ⟨rows', l.flatMap fun index => (p index).warnings⟩ ∧
      read.Filled n rows rows' place (l.map fun index => (p index).value) := by
  induction l generalizing rows place with
  | nil => exact ⟨rows, rfl, hrows.filled_nil⟩
  | cons first l ih =>
    rw [List.length_cons] at hplace
    rw [List.forall_mem_cons] at hd hp
    have hlt : place < n := by omega
    obtain ⟨rows', hstored, hfirst⟩ :=
      h.exists_storeNearby_eq_ok_of_accepts hrows hlt hd.1 hp.1
    have hplace' : place + 1 + l.length ≤ n := by omega
    obtain ⟨rows'', hrest, hfilled⟩ := ih hd.2 hp.2 hfirst.areRows hplace'
    refine ⟨rows'', ?_, hfirst.cons hlt hfilled⟩
    rw [List.map_cons, fill, hstored, Except.bind_ok, hrest]
    rfl

/-- Otherwise the first that is refused decides. -/
lemma fill_eq_error (h : lib.Lawful read)
    (hd : ∀ index ∈ l, (e index).plain.toDouble = .ok (d index)) (hsorted : l.Pairwise (· < ·))
    (hindex : index ∈ l) (hf : (e index).Refuses s strict a f)
    (hearlier : ∀ earlier ∈ l, earlier < index → ∃ p, (e earlier).Accepts s strict a p)
    (hrows : read.AreRows n rows) (hplace : place + l.length ≤ n) :
    lib.fill s strict a rows place (l.map d) = .error f := by
  induction hsorted generalizing rows place with
  | nil => cases hindex
  | @cons first l hfirst hsorted ih =>
    rw [List.length_cons] at hplace
    rw [List.forall_mem_cons] at hd hearlier
    have hlt : place < n := by omega
    rw [List.map_cons, fill]
    rcases List.mem_cons.mp hindex with rfl | hindex
    · rw [h.storeNearby_eq_error_of_refuses hrows hlt hd.1 hf, Except.bind_error]
    · have hplace' : place + 1 + l.length ≤ n := by omega
      obtain ⟨p, hp⟩ := hearlier.1 (hfirst index hindex)
      obtain ⟨rows', hstored, hfilled⟩ :=
        h.exists_storeNearby_eq_ok_of_accepts hrows hlt hd.1 hp
      rw [hstored, Except.bind_ok,
        ih hd.2 hindex hearlier.2 hfilled.areRows hplace', Except.bind_error]

end

end Lawful
end ArrayLibrary
end Mediant
