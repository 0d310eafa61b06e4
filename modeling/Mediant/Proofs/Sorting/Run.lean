import Mediant.Proofs.Sorting.Boundary
import Mediant.Proofs.Sorting.Stable
import Mediant.Sorting.Run

/-!
# Finding and lengthening runs

Whatever the comparisons say, a run at the beginning of the items takes items away from there and
loses none, and an item that is inserted is added.  Where the comparisons are those of a rank, runs
are sorted, and stably: a run that is reversed has no two items of one rank.

A `Comparison` may fail only if `mayFail` holds, and only items that satisfy `P` are compared, so
the lemmas apply to items of which some cannot be compared, too.
-/

namespace Mediant.Sorting

variable {ε α κ : Type} [LinearOrder κ] {less : α → α → Except ε Bool} {mayFail : Prop}
  {P : α → Prop} {rank : α → κ} {items sorted run rest : List α} {x last : α} {descending : Bool}

/-- Comparing items fails only if `mayFail` holds. -/
def Compares (mayFail : Prop) (P : α → Prop) (less : α → α → Except ε Bool) : Prop :=
  ∀ x y, P x → P y → Except.Gives mayFail (fun _ => True) (less x y)

/-- Comparing items compares their ranks. -/
def Ranks (rank : α → κ) (P : α → Prop) (less : α → α → Except ε Bool) : Prop :=
  ∀ x y, P x → P y → less x y = .ok (decide (rank x < rank y))

lemma Ranks.compares (h : Ranks rank P less) : Compares mayFail P less := by
  intro x y hx hy
  rw [h x y hx hy]
  trivial

/-! ## Natural runs -/

/-- A run is a beginning of the items in which each stands to its predecessor as was asked for. -/
lemma takeRun_gives (h : Compares mayFail P less) {C : α → α → Prop}
    (hC : ∀ x y, P x → P y → less x y = .ok descending → C x y)
    (hrun : (last :: run).IsChain C) (hlast : P last) (hrest : ∀ x ∈ rest, P x) :
    Except.Gives mayFail (fun r => r.1.IsChain C ∧ r.1 ≠ [] ∧
      r.1.reverse ++ r.2 = (last :: run).reverse ++ rest)
      (takeRun less descending run last rest) := by
  induction rest generalizing run last with
  | nil => exact ⟨hrun, List.cons_ne_nil last run, rfl⟩
  | cons x rest ih =>
    rw [List.forall_mem_cons] at hrest
    rw [takeRun]
    cases hless : less x last with
    | error e =>
      have hfail := h x last hrest.1 hlast
      rw [hless] at hfail
      exact hfail
    | ok b =>
      rw [Except.bind_ok]
      split
      · rename_i hb
        rw [beq_iff_eq.mp hb] at hless
        refine (ih (List.isChain_cons_cons.mpr ⟨hC x last hrest.1 hlast hless, hrun⟩) hrest.1
          hrest.2).imp fun r hr => ⟨hr.1, hr.2.1, ?_⟩
        rw [hr.2.2, List.reverse_cons, List.append_assoc]
        rfl
      · exact ⟨hrun, List.cons_ne_nil last run, rfl⟩

/-- The natural run is what is taken from the items, reversed if it descends. -/
structure Takes (C : Bool → α → α → Prop) (items : List α) (r : List α × List α) (descending : Bool)
    (taken : List α) : Prop where
  chain : taken.IsChain (C descending)
  ne_nil : items ≠ [] → taken ≠ []
  append_eq : taken.reverse ++ r.2 = items
  run_eq : r.1 = if descending then taken else taken.reverse

lemma naturalRun_gives (h : Compares mayFail P less) {C : Bool → α → α → Prop}
    (hC : ∀ b x y, P x → P y → less x y = .ok b → C b x y) (hitems : ∀ x ∈ items, P x) :
    Except.Gives mayFail (fun r => ∃ descending taken, Takes C items r descending taken)
      (naturalRun less items) := by
  match items, hitems with
  | [], _ => exact ⟨false, [], .nil, id, rfl, rfl⟩
  | [x], _ => exact ⟨false, [x], .singleton x, fun _ => List.cons_ne_nil x [], rfl, rfl⟩
  | x :: y :: rest, hitems =>
    rw [List.forall_mem_cons, List.forall_mem_cons] at hitems
    rw [naturalRun]
    cases hless : less y x with
    | error e =>
      have hfail := h y x hitems.2.1 hitems.1
      rw [hless] at hfail
      exact hfail
    | ok descending =>
      rw [Except.bind_ok]
      have hchain : [y, x].IsChain (C descending) :=
        .cons_cons (hC descending y x hitems.2.1 hitems.1 hless) (.singleton x)
      refine (takeRun_gives h (hC descending) hchain hitems.2.1 hitems.2.2).bind
        fun r ⟨hrun, hne, heq⟩ => ?_
      exact ⟨descending, r.1, hrun, fun _ => hne, heq, rfl⟩

/-- The run and the items behind it are the items. -/
lemma naturalRun_perm (h : Compares mayFail P less) (hitems : ∀ x ∈ items, P x) :
    Except.Gives mayFail (fun r => items.Perm (r.1 ++ r.2) ∧ (items ≠ [] → r.1 ≠ []))
      (naturalRun less items) := by
  refine (naturalRun_gives h (C := fun _ _ _ => True) (fun _ _ _ _ _ _ => trivial) hitems).imp ?_
  rintro r ⟨descending, taken, -, hne, rfl, hrun⟩
  rw [hrun]
  cases descending with
  | true =>
    refine ⟨(List.reverse_perm taken).append_right r.2, hne⟩
  | false => exact ⟨.refl _, fun hitems => List.reverse_ne_nil_iff.mpr (hne hitems)⟩

/-- A natural run is sorted, and stably. -/
lemma naturalRun_stable (h : Ranks rank P less) (hitems : ∀ x ∈ items, P x) :
    Except.Gives False (fun r => Ascending rank r.1 ∧ SameLevels rank items (r.1 ++ r.2) ∧
      (items ≠ [] → r.1 ≠ [])) (naturalRun less items) := by
  have hC : ∀ b x y, P x → P y → less x y = .ok b →
      if b then rank x < rank y else rank y ≤ rank x := by
    intro b x y hx hy hless
    rw [h x y hx hy] at hless
    rw [← Except.ok.inj hless]
    split <;> simp_all
  refine (naturalRun_gives h.compares hC hitems).imp ?_
  rintro r ⟨descending, taken, hchain, hne, rfl, hrun⟩
  rw [hrun]
  cases descending with
  | true =>
    have hstrict : taken.Pairwise fun x y => rank x < rank y := List.isChain_iff_pairwise.mp hchain
    exact ⟨hstrict.imp le_of_lt, (SameLevels.reverse hstrict).symm.append (.refl _), hne⟩
  | false =>
    have : IsTrans α fun x y => rank y ≤ rank x := ⟨fun _ _ _ h h' => h'.trans h⟩
    have hfall : taken.Pairwise fun x y => rank y ≤ rank x := List.isChain_iff_pairwise.mp hchain
    exact ⟨List.pairwise_reverse.mpr hfall, .refl _,
      fun hitems => List.reverse_ne_nil_iff.mpr (hne hitems)⟩

/-! ## Insertion -/

lemma insertIdx_eq {p : ℕ} (h : p ≤ sorted.length) :
    sorted.insertIdx p x = sorted.take p ++ x :: sorted.drop p := by
  induction sorted generalizing p with
  | nil =>
    rw [Nat.le_zero.mp h]
    rfl
  | cons y sorted ih =>
    cases p with
    | zero => rfl
    | succ p => rw [List.insertIdx_succ_cons, ih (Nat.le_of_succ_le_succ h)]; rfl

lemma insertSorted_perm (h : Compares mayFail P less) (hsorted : ∀ x ∈ sorted, P x) (hx : P x) :
    Except.Gives mayFail (fun l => (sorted ++ [x]).Perm l) (insertSorted less sorted x) := by
  have htest : ∀ y ∈ sorted, Except.Gives mayFail (fun _ => True) (not <$> less x y) :=
    fun y hy => (h x y hx (hsorted y hy)).map fun _ _ => trivial
  refine (bisect_gives htest).bind fun p hp => ?_
  rw [Nat.max_eq_right (Nat.zero_le _)] at hp
  exact (List.perm_append_singleton x sorted).trans (List.perm_insertIdx x sorted hp).symm

/-- In a sorted row it is inserted behind all items that do not come after it. -/
lemma insertSorted_stable (h : Ranks rank P less) (hP : ∀ x ∈ sorted, P x)
    (hsorted : Ascending rank sorted) (hx : P x) :
    Except.Gives False (StableSort rank (sorted ++ [x])) (insertSorted less sorted x) := by
  have htest : ∀ y ∈ sorted, (not <$> less x y) = .ok (decide (rank y ≤ rank x)) := by
    intro y hy
    rw [h x y hx (hP y hy)]
    change Except.ok (!decide (rank x < rank y)) = _
    rw [Except.ok.injEq, ← decide_not, decide_eq_decide, not_lt]
  obtain ⟨p, hp⟩ := exists_divides (fun y => decide (rank y ≤ rank x))
    (hsorted.imp fun hle hy => by simpa using hle.trans (by simpa using hy))
  rw [insertSorted, bisect_eq hp htest (Nat.zero_le p) hp.le_length le_rfl]
  change StableSort rank (sorted ++ [x]) (sorted.insertIdx p x)
  have hle : ∀ y ∈ sorted.take p, ∀ z ∈ [x], rank y ≤ rank z := by
    intro y hy z hz
    rw [List.mem_singleton.mp hz]
    simpa using hp.of_mem_take hy
  have hgt : ∀ z ∈ [x], ∀ y ∈ sorted.drop p, rank z < rank y := by
    intro z hz y hy
    rw [List.mem_singleton.mp hz]
    simpa using hp.of_mem_drop hy
  have hmerge : sorted.merge [x] (atMost rank) = sorted.insertIdx p x := by
    calc sorted.merge [x] (atMost rank)
        = (sorted.take p ++ sorted.drop p).merge [x] (atMost rank) := by
          rw [List.take_append_drop]
      _ = sorted.take p ++ (sorted.drop p).merge ([x] ++ []) (atMost rank) :=
          merge_append_left hle
      _ = sorted.take p ++ x :: sorted.drop p := by
          rw [merge_append_right hgt, List.merge_right, List.singleton_append]
      _ = sorted.insertIdx p x := (insertIdx_eq hp.le_length).symm
  rw [← hmerge]
  exact stableSort_merge hsorted (List.pairwise_singleton _ x)

end Mediant.Sorting
