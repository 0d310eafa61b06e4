import Mathlib.Tactic
import Mediant.Proofs.Faults
import Mediant.Sorting.Boundary

/-!
# The boundary of a row

Where a test divides a row, holding at its beginning and failing from some place on, that place is
what `bisect` and `boundary` find, wherever they start from.  Where it does not, all that is said of
them is that they stay in bounds, and fail only if the test does.
-/

namespace Mediant.Sorting

variable {ε α : Type} {test : α → Except ε Bool} {front : α → Bool} {row : List α} {mayFail : Prop}
  {p low high limit near far hint : ℕ}

/-- The test holds for the items in front of a place, and for no others. -/
structure Divides (front : α → Bool) (row : List α) (p : ℕ) : Prop where
  le_length : p ≤ row.length
  front_iff {i : ℕ} {x : α} : row[i]? = some x → (front x = true ↔ i < p)

lemma Divides.of_mem_take {x : α} (h : Divides front row p) (hx : x ∈ row.take p) :
    front x = true := by
  obtain ⟨i, hi⟩ := List.mem_iff_getElem?.mp hx
  rw [List.getElem?_take] at hi
  split at hi
  · rename_i hlt
    exact (h.front_iff hi).mpr hlt
  · cases hi

lemma Divides.of_mem_drop {x : α} (h : Divides front row p) (hx : x ∈ row.drop p) :
    ¬front x = true := by
  obtain ⟨i, hi⟩ := List.mem_iff_getElem?.mp hx
  rw [List.getElem?_drop] at hi
  exact fun hfront => absurd ((h.front_iff hi).mp hfront) (by omega)

/-- From the end the same place divides the row by the opposite test. -/
lemma Divides.reverse (h : Divides front row p) :
    Divides (fun x => !front x) row.reverse (row.length - p) := by
  have hle := h.le_length
  refine ⟨by rw [List.length_reverse]; omega, fun {i x} hx => ?_⟩
  have hlt : i < row.length := by
    rw [← List.length_reverse]
    exact (List.getElem?_eq_some_iff.mp hx).1
  rw [List.getElem?_reverse hlt] at hx
  have hfront := h.front_iff hx
  rw [Bool.not_eq_true', ← Bool.not_eq_true, hfront]
  omega

/-- A test that holds wherever it holds further back divides the row. -/
lemma exists_divides (front : α → Bool)
    (h : row.Pairwise fun x y => front y = true → front x = true) : ∃ p, Divides front row p := by
  induction h with
  | nil => exact ⟨0, le_rfl, nofun⟩
  | @cons x row hx hrow ih =>
    obtain ⟨p, hle, hp⟩ := ih
    by_cases hfront : front x = true
    · refine ⟨p + 1, Nat.succ_le_succ hle, fun {i y} hy => ?_⟩
      cases i with
      | zero =>
        rw [← Option.some.inj hy]
        exact iff_of_true hfront (Nat.succ_pos p)
      | succ i => exact (hp hy).trans (Nat.succ_lt_succ_iff).symm
    · refine ⟨0, Nat.zero_le _, fun {i y} hy => iff_of_false ?_ (Nat.not_lt_zero i)⟩
      cases i with
      | zero => rwa [← Option.some.inj hy]
      | succ i => exact fun hback => hfront (hx y (List.mem_of_getElem? hy) hback)

/-! ## Bisection -/

lemma bisect_eq (hp : Divides front row p) (htest : ∀ x ∈ row, test x = .ok (front x))
    (hlow : low ≤ p) (hhigh : p ≤ high) (hlength : high ≤ row.length) :
    bisect test row low high = .ok p := by
  fun_induction bisect test row low high with
  | case1 low high hlt middle hnone =>
    rw [List.getElem?_eq_none_iff] at hnone
    omega
  | case2 low high hlt middle x hx e he =>
    rw [htest x (List.mem_of_getElem? hx)] at he
    cases he
  | case3 low high hlt middle x hx htrue ih =>
    rw [htest x (List.mem_of_getElem? hx)] at htrue
    exact ih ((hp.front_iff hx).mp (Except.ok.inj htrue)) hhigh hlength
  | case4 low high hlt middle x hx hfalse ih =>
    rw [htest x (List.mem_of_getElem? hx)] at hfalse
    have hle : p ≤ middle := by
      by_contra! hback
      rw [(hp.front_iff hx).mpr hback] at hfalse
      cases hfalse
    exact ih hlow hle (by omega)
  | case5 low high hge =>
    rw [le_antisymm hlow (hhigh.trans (not_lt.mp hge))]

lemma bisect_gives (htest : ∀ x ∈ row, Except.Gives mayFail (fun _ => True) (test x)) :
    Except.Gives mayFail (· ≤ max low high) (bisect test row low high) := by
  fun_induction bisect test row low high with
  | case1 low high hlt middle hnone => exact le_max_left low high
  | case2 low high hlt middle x hx e he =>
    have hfail := htest x (List.mem_of_getElem? hx)
    rw [he] at hfail
    exact hfail
  | case3 low high hlt middle x hx htrue ih => exact ih.imp fun p hp => by omega
  | case4 low high hlt middle x hx hfalse ih => exact ih.imp fun p hp => by omega
  | case5 low high hge => exact le_max_left low high

/-! ## Galloping -/

section

variable {goesOn : ℕ → Except ε Bool} {g : ℕ → Bool}

/-- Galloping ends with a distance at which the test holds and one at which it does not. -/
lemma exists_gallop_eq (hgoes : ∀ k < limit, goesOn k = .ok (g k)) (hlt : near < far)
    (hlimit : near < limit) (hnear : g near = true) :
    ∃ n m, gallop goesOn limit near far = .ok (n, m) ∧ n < m ∧ m ≤ limit ∧ g n = true ∧
      (m < limit → g m = false) := by
  fun_induction gallop goesOn limit near far with
  | case1 near far hfar e he =>
    rw [hgoes far hfar] at he
    cases he
  | case2 near far hfar htrue ih =>
    rw [hgoes far hfar] at htrue
    exact ih (by omega) hfar (Except.ok.inj htrue)
  | case3 near far hfar hfalse =>
    rw [hgoes far hfar] at hfalse
    exact ⟨near, far, rfl, hlt, hfar.le, hnear, fun _ => Except.ok.inj hfalse⟩
  | case4 near far hfar =>
    exact ⟨near, limit, rfl, hlimit, le_rfl, hnear, fun h => absurd h (lt_irrefl _)⟩

/-- Going on from a place in front of the boundary, galloping passes it. -/
lemma exists_gallop_front (hlt : hint < p) (hp : p ≤ limit) :
    ∃ n m, gallop (fun k => (.ok (decide (hint + k < p)) : Except ε Bool)) (limit - hint) 0 1 =
      .ok (n, m) ∧ hint + n < p ∧ p ≤ hint + m ∧ hint + m ≤ limit := by
  have hgoes : ∀ k < limit - hint,
      (.ok (decide (hint + k < p)) : Except ε Bool) = .ok (decide (hint + k < p)) := fun _ _ => rfl
  obtain ⟨n, m, hgallop, -, hm, hn, hend⟩ :=
    exists_gallop_eq hgoes Nat.zero_lt_one (by omega) (by simpa using hlt)
  refine ⟨n, m, hgallop, by simpa using hn, ?_, by omega⟩
  rcases hm.lt_or_eq with hm | rfl
  · simpa using hend hm
  · omega

/-- Going back from a place behind it, too. -/
lemma exists_gallop_back (hge : p ≤ hint) :
    ∃ n m, gallop (fun k => (.ok (decide (p ≤ hint - k)) : Except ε Bool)) (hint + 1) 0 1 =
      .ok (n, m) ∧ p ≤ hint - n ∧ hint + 1 - m ≤ p := by
  have hgoes : ∀ k < hint + 1,
      (.ok (decide (p ≤ hint - k)) : Except ε Bool) = .ok (decide (p ≤ hint - k)) := fun _ _ => rfl
  obtain ⟨n, m, hgallop, -, hm, hn, hend⟩ :=
    exists_gallop_eq hgoes Nat.zero_lt_one (Nat.succ_pos hint) (by simpa using hge)
  refine ⟨n, m, hgallop, by simpa using hn, ?_⟩
  rcases hm.lt_or_eq with hm | rfl
  · have hlt : hint - m < p := by simpa using hend hm
    omega
  · omega

lemma gallop_gives (hgoes : ∀ k, Except.Gives mayFail (fun _ => True) (goesOn k)) :
    Except.Gives mayFail (fun _ => True) (gallop goesOn limit near far) := by
  fun_induction gallop goesOn limit near far with
  | case1 near far hfar e he =>
    have hfail := hgoes far
    rw [he] at hfail
    exact hfail
  | case2 near far hfar htrue ih => exact ih
  | case3 near far hfar hfalse => trivial
  | case4 near far hfar => trivial

end

/-! ## Boundaries -/

/-- The boundary is found from every hint. -/
lemma boundary_eq (hp : Divides front row p) (htest : ∀ x ∈ row, test x = .ok (front x))
    (hhint : hint ≤ row.length) : boundary test row hint = .ok p := by
  have hle := hp.le_length
  unfold boundary
  extract_lets inFront
  have hinFront : inFront = fun place => .ok (decide (place < p)) := by
    funext place
    simp only [inFront]
    cases hx : row[place]? with
    | none =>
      rw [List.getElem?_eq_none_iff] at hx
      rw [decide_eq_false (by omega)]
    | some x =>
      dsimp only
      rw [htest x (List.mem_of_getElem? hx), Except.ok.injEq, Bool.eq_iff_iff, hp.front_iff hx,
        decide_eq_true_eq]
  simp only [hinFront, Except.bind_ok, decide_eq_true_eq]
  split
  · rename_i hlt
    obtain ⟨n, m, hgallop, hnear, hfar, hm⟩ := exists_gallop_front (ε := ε) hlt hle
    rw [hgallop, Except.bind_ok]
    exact bisect_eq hp htest (by omega) hfar hm
  · rename_i hge
    have hback : ∀ k, (not <$> (.ok (decide (hint - k < p)) : Except ε Bool)) =
        .ok (decide (p ≤ hint - k)) := by
      intro k
      change Except.ok (!decide (hint - k < p)) = _
      rw [Except.ok.injEq, ← decide_not, decide_eq_decide, not_lt]
    simp only [hback]
    obtain ⟨n, m, hgallop, hnear, hfar⟩ := exists_gallop_back (ε := ε) (not_lt.mp hge)
    rw [hgallop, Except.bind_ok]
    exact bisect_eq hp htest hfar hnear (by omega)

lemma boundary_gives (htest : ∀ x ∈ row, Except.Gives mayFail (fun _ => True) (test x)) :
    Except.Gives mayFail (fun _ => True) (boundary test row hint) := by
  unfold boundary
  extract_lets inFront
  have hinFront : ∀ place, Except.Gives mayFail (fun _ => True) (inFront place) := by
    intro place
    simp only [inFront]
    split
    · rename_i x hx
      exact htest x (List.mem_of_getElem? hx)
    · trivial
  have hbisect : ∀ low high, Except.Gives mayFail (fun _ => True) (bisect test row low high) :=
    fun _ _ => (bisect_gives htest).imp fun _ _ => trivial
  refine (hinFront hint).bind fun b _ => ?_
  split
  · exact (gallop_gives fun k => hinFront (hint + k)).bind fun _ _ => hbisect _ _
  · exact (gallop_gives fun k => (hinFront (hint - k)).map fun _ _ => trivial).bind fun _ _ =>
      hbisect _ _

end Mediant.Sorting
