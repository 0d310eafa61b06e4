import Mathlib.Tactic

/-!
# Stable sorting by rank

A list is sorted by a rank if the ranks of its items do not decrease.  It is sorted stably if, in
addition, the items of each rank are in the order in which they were before.  Both together leave
one list only (`StableSort.unique`), and the standard merge sort gives it
(`stableSort_mergeSort`).  So whatever sorts stably does the same as the standard merge sort.

Merging is taken apart here in the way in which stretches of two rows are placed: items of the first
row that do not come after any of the second, and items of the second row that come before all of
the first, can be placed at once.
-/

namespace Mediant.Sorting

variable {α κ : Type} [LinearOrder κ] {rank : α → κ} {items sorted l l' m m' xs ys zs : List α}

/-- The ranks do not decrease. -/
def Ascending (rank : α → κ) (l : List α) : Prop := l.Pairwise fun x y => rank x ≤ rank y

/-- The items of each rank are the same, and in the same order. -/
def SameLevels (rank : α → κ) (l l' : List α) : Prop :=
  ∀ k, l.filter (rank · = k) = l'.filter (rank · = k)

/-- The second list is the first one, sorted stably. -/
structure StableSort (rank : α → κ) (items sorted : List α) : Prop where
  ascending : Ascending rank sorted
  levels : SameLevels rank items sorted

/-- Whether an item may stand before another one. -/
def atMost (rank : α → κ) (x y : α) : Bool := rank x ≤ rank y

/-! ## Levels -/

namespace SameLevels

lemma refl (l : List α) : SameLevels rank l l := fun _ => rfl

lemma trans (h : SameLevels rank l m) (h' : SameLevels rank m xs) : SameLevels rank l xs :=
  fun k => (h k).trans (h' k)

lemma symm (h : SameLevels rank l m) : SameLevels rank m l := fun k => (h k).symm

lemma append (h : SameLevels rank l l') (h' : SameLevels rank m m') :
    SameLevels rank (l ++ m) (l' ++ m') := by
  intro k
  rw [List.filter_append, List.filter_append, h k, h' k]

lemma perm (h : SameLevels rank l l') : l.Perm l' := by
  classical
  refine List.perm_iff_count.mpr fun x => ?_
  have hlevel : (l.filter (rank · = rank x)).count x = (l'.filter (rank · = rank x)).count x := by
    rw [h]
  rwa [List.count_filter (by simp), List.count_filter (by simp)] at hlevel

lemma mem_iff (h : SameLevels rank l l') {x : α} : x ∈ l ↔ x ∈ l' := h.perm.mem_iff

/-- Two rows that have no rank in common may change places. -/
lemma swap (h : ∀ x ∈ l, ∀ y ∈ m, rank x ≠ rank y) : SameLevels rank (l ++ m) (m ++ l) := by
  intro k
  rw [List.filter_append, List.filter_append]
  by_cases hk : ∃ x ∈ l, rank x = k
  · obtain ⟨x, hx, rfl⟩ := hk
    have hnone : m.filter (rank · = rank x) = [] :=
      List.filter_eq_nil_iff.mpr fun y hy => by simpa using (h x hx y hy).symm
    rw [hnone, List.append_nil, List.nil_append]
  · have hnone : l.filter (rank · = k) = [] :=
      List.filter_eq_nil_iff.mpr fun x hx => by simpa using fun hxk => hk ⟨x, hx, hxk⟩
    rw [hnone, List.append_nil, List.nil_append]

/-- Where no rank occurs twice, the order of the items has no part in the levels. -/
lemma reverse (h : l.Pairwise fun x y => rank x < rank y) : SameLevels rank l l.reverse := by
  intro k
  rw [List.filter_reverse]
  have hone : (l.filter (rank · = k)).length ≤ 1 := by
    by_contra! hmore
    have hpair := List.pairwise_iff_getElem.mp (h.filter (rank · = k)) 0 1 (by omega) hmore
      Nat.zero_lt_one
    have hrank : ∀ i (hi : i < (l.filter (rank · = k)).length),
        rank (l.filter (rank · = k))[i] = k := fun i hi => by
      simpa using (List.mem_filter.mp (List.getElem_mem hi)).2
    rw [hrank, hrank] at hpair
    exact lt_irrefl k hpair
  match l.filter (rank · = k), hone with
  | [], _ => rfl
  | [_], _ => rfl

end SameLevels

/-! ## Uniqueness -/

lemma Ascending.head_le {x y : α} (h : Ascending rank (x :: l)) (hy : y ∈ x :: l) :
    rank x ≤ rank y := by
  rcases List.mem_cons.mp hy with rfl | hy
  · exact le_rfl
  · exact List.rel_of_pairwise_cons h hy

lemma Ascending.le_getLast {x y : α} (h : Ascending rank l) (hy : l.getLast? = some y)
    (hx : x ∈ l) : rank x ≤ rank y := by
  obtain ⟨init, rfl⟩ := List.getLast?_eq_some_iff.mp hy
  rcases List.mem_append.mp hx with hx | hx
  · exact (List.pairwise_append.mp h).2.2 x hx y (List.mem_singleton_self y)
  · rw [List.mem_singleton.mp hx]

/-- Two ascending lists with the same levels are the same. -/
lemma Ascending.eq_of_sameLevels (hl : Ascending rank l) (hm : Ascending rank m)
    (h : SameLevels rank l m) : l = m := by
  induction l generalizing m with
  | nil =>
    cases m with
    | nil => rfl
    | cons y m => exact absurd (h.mem_iff.mpr List.mem_cons_self) List.not_mem_nil
  | cons x l ih =>
    cases m with
    | nil => exact absurd (h.mem_iff.mp List.mem_cons_self) List.not_mem_nil
    | cons y m =>
      have hrank : rank x = rank y :=
        le_antisymm (hl.head_le (h.mem_iff.mpr List.mem_cons_self))
          (hm.head_le (h.mem_iff.mp List.mem_cons_self))
      have hxy : x = y := by
        have hlevel := h (rank y)
        simp only [List.filter_cons, hrank, decide_true, if_true, List.cons.injEq] at hlevel
        exact hlevel.1
      subst hxy
      congr 1
      refine ih (List.Pairwise.of_cons hl) (List.Pairwise.of_cons hm) fun k => ?_
      have hlevel := h k
      rw [List.filter_cons, List.filter_cons] at hlevel
      split at hlevel
      · exact (List.cons.inj hlevel).2
      · exact hlevel

namespace StableSort

/-- There is one way to sort stably. -/
lemma unique (h : StableSort rank items l) (h' : StableSort rank items m) : l = m :=
  h.ascending.eq_of_sameLevels h'.ascending (h.levels.symm.trans h'.levels)

end StableSort

lemma atMost_trans (x y z : α) (hxy : atMost rank x y) (hyz : atMost rank y z) :
    atMost rank x z := by
  simp only [atMost, decide_eq_true_eq] at *
  exact hxy.trans hyz

lemma atMost_total (x y : α) : (atMost rank x y || atMost rank y x) = true := by
  simpa [atMost] using le_total (rank x) (rank y)

/-- The standard merge sort sorts stably. -/
lemma stableSort_mergeSort (rank : α → κ) (items : List α) :
    StableSort rank items (items.mergeSort (atMost rank)) := by
  constructor
  · refine (List.pairwise_mergeSort atMost_trans atMost_total items).imp fun {x y} h => ?_
    simpa [atMost] using h
  · intro k
    have hlevel : (items.filter (rank · = k)).Pairwise fun x y => atMost rank x y = true := by
      refine List.pairwise_of_forall_mem_list fun x hx y hy => ?_
      have hxk : rank x = k := by simpa using (List.mem_filter.mp hx).2
      have hyk : rank y = k := by simpa using (List.mem_filter.mp hy).2
      simp [atMost, hxk, hyk]
    have hsublist := (List.sublist_mergeSort atMost_trans atMost_total hlevel
      List.filter_sublist).filter (rank · = k)
    simp only [List.filter_filter, Bool.and_self] at hsublist
    refine hsublist.eq_of_length ?_
    exact ((List.mergeSort_perm items (atMost rank)).filter (rank · = k)).length_eq.symm

lemma StableSort.eq_mergeSort (h : StableSort rank items sorted) :
    sorted = items.mergeSort (atMost rank) :=
  h.unique (stableSort_mergeSort rank items)

/-- Sorted in the opposite order, a row is sorted from its end. -/
lemma StableSort.reverse (h : StableSort (fun x => OrderDual.toDual (rank x)) items sorted) :
    StableSort rank items.reverse sorted.reverse := by
  refine ⟨List.pairwise_reverse.mpr (h.ascending.imp fun hle => hle), fun k => ?_⟩
  rw [List.filter_reverse, List.filter_reverse]
  exact congrArg List.reverse (h.levels (OrderDual.toDual k))

/-! ## The first item -/

/-- No rank is less than that of the item, and it is the first of its rank. -/
structure FirstLeast (rank : α → κ) (l : List α) (m : α) : Prop where
  le : ∀ x ∈ l, rank m ≤ rank x
  head?_eq : (l.filter (rank · = rank m)).head? = some m

lemma FirstLeast.singleton (m : α) : FirstLeast rank [m] m := by
  refine ⟨fun x hx => ?_, ?_⟩
  · rw [List.mem_singleton.mp hx]
  · rw [List.filter_cons_of_pos (by simp), List.head?_cons]

/-- Another item is considered: it takes the place of the one before if its rank is less. -/
lemma FirstLeast.cons_cons {x y m : α}
    (h : FirstLeast rank ((if rank y < rank x then y else x) :: l) m) :
    FirstLeast rank (x :: y :: l) m := by
  split at h
  · rename_i hlt
    obtain ⟨hle, hhead⟩ := h
    rw [List.forall_mem_cons] at hle
    have hx : rank m < rank x := hle.1.trans_lt hlt
    refine ⟨List.forall_mem_cons.mpr ⟨hx.le, List.forall_mem_cons.mpr hle⟩, ?_⟩
    rwa [List.filter_cons_of_neg (by simpa using hx.ne')]
  · rename_i hge
    obtain ⟨hle, hhead⟩ := h
    rw [List.forall_mem_cons] at hle
    have hy : rank m ≤ rank y := hle.1.trans (not_lt.mp hge)
    refine ⟨List.forall_mem_cons.mpr ⟨hle.1, List.forall_mem_cons.mpr ⟨hy, hle.2⟩⟩, ?_⟩
    rcases hle.1.eq_or_lt with hx | hx
    · rw [List.filter_cons_of_pos (by simpa using hx.symm)] at hhead ⊢
      rwa [List.head?_cons] at hhead ⊢
    · have hym : rank m < rank y := hx.trans_le (not_lt.mp hge)
      rw [List.filter_cons_of_neg (by simpa using hx.ne')] at hhead ⊢
      rwa [List.filter_cons_of_neg (by simpa using hym.ne')]

/-- Sorted stably, a list begins with the first of its least items. -/
lemma StableSort.head?_eq {m : α} (h : StableSort rank items sorted)
    (hm : FirstLeast rank items m) : sorted.head? = some m := by
  obtain ⟨hle, hhead⟩ := hm
  have hmem : m ∈ sorted :=
    h.levels.mem_iff.mp (List.mem_of_mem_filter (List.mem_of_mem_head? hhead))
  rw [h.levels] at hhead
  cases sorted with
  | nil => exact absurd hmem List.not_mem_nil
  | cons y sorted =>
    have hrank : rank y = rank m :=
      le_antisymm (h.ascending.head_le hmem) (hle y (h.levels.mem_iff.mpr List.mem_cons_self))
    rwa [List.filter_cons_of_pos (by simpa using hrank)] at hhead

/-! ## Merging -/

/-- Items of the first row that do not come after any of the second are placed at once. -/
lemma merge_append_left (h : ∀ x ∈ l, ∀ y ∈ ys, rank x ≤ rank y) :
    (l ++ xs).merge ys (atMost rank) = l ++ xs.merge ys (atMost rank) := by
  induction l with
  | nil => rfl
  | cons x l ih =>
    rw [List.forall_mem_cons] at h
    cases ys with
    | nil => rw [List.merge_right, List.merge_right]
    | cons y ys =>
      have hle : atMost rank x y = true := decide_eq_true (h.1 y List.mem_cons_self)
      rw [List.cons_append, List.cons_merge_cons_pos _ _ _ hle, ih h.2, List.cons_append]

/-- So are items of the second row that come before all of the first. -/
lemma merge_append_right (h : ∀ y ∈ l, ∀ x ∈ xs, rank y < rank x) :
    xs.merge (l ++ ys) (atMost rank) = l ++ xs.merge ys (atMost rank) := by
  induction l with
  | nil => rfl
  | cons y l ih =>
    rw [List.forall_mem_cons] at h
    cases xs with
    | nil => rw [List.nil_merge, List.nil_merge]
    | cons x xs =>
      have hlt : ¬atMost rank x y = true := by
        simpa [atMost] using h.1 x List.mem_cons_self
      rw [List.cons_append, List.cons_merge_cons_neg _ _ _ hlt, ih h.2, List.cons_append]

/-- Items at the end of the second row that come behind all of the first may be left out. -/
lemma merge_append_of_le (h : ∀ x ∈ xs, ∀ z ∈ zs, rank x ≤ rank z) :
    xs.merge (ys ++ zs) (atMost rank) = xs.merge ys (atMost rank) ++ zs := by
  induction xs generalizing ys with
  | nil => rw [List.nil_merge, List.nil_merge]
  | cons x xs ih =>
    induction ys with
    | nil =>
      rw [List.merge_right, List.nil_append]
      exact List.merge_of_le fun x z hx hz => decide_eq_true (h x hx z hz)
    | cons y ys ihy =>
      rw [List.cons_append, List.cons_merge_cons, List.cons_merge_cons]
      split
      · rw [← List.cons_append, ih fun x hx => h x (List.mem_cons_of_mem _ hx), List.cons_append]
      · rw [ihy, List.cons_append]

lemma sameLevels_merge (h : Ascending rank xs) :
    SameLevels rank (xs ++ ys) (xs.merge ys (atMost rank)) := by
  induction xs generalizing ys with
  | nil =>
    rw [List.nil_merge]
    exact .refl ys
  | cons x xs ih =>
    induction ys with
    | nil =>
      rw [List.merge_right, List.append_nil]
      exact .refl _
    | cons y ys ihy =>
      rw [List.cons_merge_cons]
      split
      · exact (SameLevels.refl [x]).append (ih (List.Pairwise.of_cons h))
      · rename_i hlt
        have hbefore : ∀ z ∈ x :: xs, ∀ w ∈ [y], rank z ≠ rank w := by
          intro z hz w hw
          have hyx : rank y < rank x := by simpa [atMost] using hlt
          rw [List.mem_singleton.mp hw]
          exact (hyx.trans_le (h.head_le hz)).ne'
        have hswap := (SameLevels.swap hbefore).append (SameLevels.refl ys)
        rw [List.append_assoc, List.append_assoc] at hswap
        exact hswap.trans ((SameLevels.refl [y]).append ihy)

lemma stableSort_merge (hx : Ascending rank xs) (hy : Ascending rank ys) :
    StableSort rank (xs ++ ys) (xs.merge ys (atMost rank)) := by
  refine ⟨?_, sameLevels_merge hx⟩
  refine (List.pairwise_merge atMost_trans atMost_total xs ys
    (hx.imp fun h => decide_eq_true h) (hy.imp fun h => decide_eq_true h)).imp fun {x y} h => ?_
  simpa [atMost] using h

end Mediant.Sorting
