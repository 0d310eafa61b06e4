import Mediant.Proofs.Sorting.Merge
import Mediant.Sorting.Balance

/-!
# Sorting by merging runs

The order in which neighbouring runs are merged has no part in what sorting returns.  All that
matters is what finding a run, lengthening it and merging two runs do to a row: the premises of
`Sorts` say it with two predicates.  Whatever the comparisons say, these parts permute the items, so
sorting does (`sort_perm`).  Where the comparisons are those of a rank, they keep rows sorted and
equal items in order, so sorting is the standard merge sort (`sort_eq_mergeSort`).

`flat` is the row that a stack of pending runs stands for.  Each step of the balancing keeps it, up
to the relation of `Sorts`.
-/

namespace Mediant.Sorting

variable {ε α β γ κ : Type} [LinearOrder κ] {less : α → α → Except ε Bool} {mayFail : Prop}
  {P : α → Prop} {S : List α → Prop} {R : List α → List α → Prop} {rank : α → κ}
  {items : List α} {least total start steps : ℕ}

/-- The parts of sorting turn rows into rows that satisfy `S`, and what they return stands in the
relation `R` to what they were given. -/
structure Sorts (mayFail : Prop) (P : α → Prop) (S : List α → Prop) (R : List α → List α → Prop)
    (less : α → α → Except ε Bool) : Prop where
  perm {l l' : List α} : R l l' → l.Perm l'
  refl (l : List α) : R l l
  trans {l m n : List α} : R l m → R m n → R l n
  append {l l' m m' : List α} : R l l' → R m m' → R (l ++ m) (l' ++ m')
  nil : S []
  naturalRun {items : List α} : (∀ x ∈ items, P x) →
    Except.Gives mayFail (fun r => S r.1 ∧ R items (r.1 ++ r.2) ∧ (items ≠ [] → r.1 ≠ []))
      (naturalRun less items)
  insertSorted {sorted : List α} {x : α} : S sorted → P x →
    Except.Gives mayFail (fun l => S l ∧ R (sorted ++ [x]) l) (insertSorted less sorted x)
  merge (patience : ℕ) {first second : List α} : S first → S second →
    Except.Gives mayFail (fun r => S r.1 ∧ R (first ++ second) r.1)
      (merge less patience first second)

/-! ## Lengthening runs -/

namespace Sorts

variable (h : Sorts mayFail P S R less)

include h

lemma foldlM_insertSorted {run missing : List α} (hrun : S run) (hmissing : ∀ x ∈ missing, P x) :
    Except.Gives mayFail (fun l => S l ∧ R (run ++ missing) l)
      (missing.foldlM (Sorting.insertSorted less) run) := by
  induction missing generalizing run with
  | nil =>
    rw [List.append_nil]
    exact ⟨hrun, h.refl run⟩
  | cons x missing ih =>
    rw [List.forall_mem_cons] at hmissing
    rw [List.foldlM_cons]
    refine (h.insertSorted hrun hmissing.1).bind fun l hl => ?_
    refine (ih hl.1 hmissing.2).imp fun l' hl' => ⟨hl'.1, ?_⟩
    rw [List.append_cons]
    exact h.trans (h.append hl.2 (h.refl missing)) hl'.2

/-- The next run takes an item from those that are there, and loses none. -/
lemma nextRun (hitems : ∀ x ∈ items, P x) (hne : items ≠ []) :
    Except.Gives mayFail
      (fun r => S r.1 ∧ R items (r.1 ++ r.2) ∧ r.2.length < items.length)
      (nextRun less least items) := by
  refine (h.naturalRun hitems).bind fun (run, behind) ⟨hrun, hR, hr⟩ => ?_
  dsimp only at hrun hR hr
  have hbehind : ∀ x ∈ behind, P x :=
    fun x hx => hitems x ((h.perm hR).mem_iff.mpr (List.mem_append_right run hx))
  have hlength := (h.perm hR).length_eq
  rw [List.length_append] at hlength
  have hpos := List.length_pos_iff.mpr (hr hne)
  refine (h.foldlM_insertSorted hrun fun x hx => hbehind x (List.mem_of_mem_take hx)).bind
    fun l hl => ⟨hl.1, ?_, ?_⟩
  · have hsplit := h.append hl.2 (h.refl (behind.drop (least - run.length)))
    rw [List.append_assoc, List.take_append_drop] at hsplit
    exact h.trans hR hsplit
  · rw [List.length_drop]
    omega

end Sorts

/-! ## Keeping the patience -/

/-- What is known of the result of a sorter, whatever its patience is. -/
def Sorter.Gives (mayFail : Prop) (Q : β → Prop) (x : Sorter ε β) : Prop :=
  ∀ patience, Except.Gives mayFail (fun r => Q r.1) (x.run patience)

namespace Sorter.Gives

variable {Q Q' : β → Prop} {x : Sorter ε β}

lemma pure {b : β} (hb : Q b) : Gives mayFail Q (pure b : Sorter ε β) := fun _ => hb

lemma bind {Q' : γ → Prop} {f : β → Sorter ε γ} (h : Gives mayFail Q x)
    (hf : ∀ b, Q b → Gives mayFail Q' (f b)) : Gives mayFail Q' (x >>= f) :=
  fun patience => (h patience).bind fun r hr => hf r.1 hr r.2

lemma imp (h : Gives mayFail Q x) (hQ : ∀ b, Q b → Q' b) : Gives mayFail Q' x :=
  fun patience => (h patience).imp fun r => hQ r.1

lemma lift {y : Except ε β} (h : Except.Gives mayFail Q y) :
    Gives mayFail Q (liftM y : Sorter ε β) :=
  fun _ => h.bind fun _ hb => hb

end Sorter.Gives

/-! ## Pending runs -/

variable {last first second : PendingRun α} {pending : List (PendingRun α)}

/-- The row of items that pending runs stand for, the last run of which is listed first. -/
def flat : List (PendingRun α) → List α
  | [] => []
  | run :: rest => flat rest ++ run.items

/-- All pending runs are sorted. -/
def AllSorted (S : List α → Prop) (pending : List (PendingRun α)) : Prop :=
  ∀ run ∈ pending, S run.items

namespace Sorts

variable (h : Sorts mayFail P S R less)

include h

lemma mergeNeighbours (hfirst : S first.items) (hsecond : S second.items) :
    Sorter.Gives mayFail (fun run => S run.items ∧ R (first.items ++ second.items) run.items)
      (mergeNeighbours less first second) := by
  have hget : Sorter.Gives mayFail (fun _ => True) (get : Sorter ε ℕ) := fun _ => trivial
  refine hget.bind fun patience _ => ?_
  refine (Sorter.Gives.lift (h.merge patience hfirst hsecond)).bind fun r hr => ?_
  have hset : Sorter.Gives mayFail (fun _ => True) (set r.2 : Sorter ε PUnit) := fun _ => trivial
  exact hset.bind fun _ _ => .pure hr

lemma mergeDeeper (depth : ℕ) (hlast : S last.items) (hpending : AllSorted S pending) :
    Sorter.Gives mayFail (fun runs => AllSorted S runs ∧ R (flat (last :: pending)) (flat runs))
      (mergeDeeper less depth last pending) := by
  induction pending generalizing last with
  | nil => exact .pure ⟨List.forall_mem_singleton.mpr hlast, h.refl _⟩
  | cons before rest ih =>
    obtain ⟨hbefore, hrest⟩ := List.forall_mem_cons.mp hpending
    rw [Sorting.mergeDeeper]
    split
    · refine (h.mergeNeighbours hbefore hlast).bind fun run hrun => ?_
      refine (ih hrun.1 hrest).imp fun runs hruns => ⟨hruns.1, ?_⟩
      have hmerged := h.append (h.refl (flat rest)) hrun.2
      rw [← List.append_assoc] at hmerged
      exact h.trans hmerged hruns.2
    · exact .pure ⟨List.forall_mem_cons.mpr ⟨hlast, hpending⟩, h.refl _⟩

lemma addRun (run : PendingRun α) (hrun : S run.items) (hpending : AllSorted S pending) :
    Sorter.Gives mayFail (fun runs => AllSorted S runs ∧ R (flat pending ++ run.items) (flat runs))
      (addRun less total run pending) := by
  cases pending with
  | nil => exact .pure ⟨List.forall_mem_singleton.mpr hrun, h.refl _⟩
  | cons last rest =>
    obtain ⟨hlast, hrest⟩ := List.forall_mem_cons.mp hpending
    exact (h.mergeDeeper _ hlast hrest).bind fun runs hruns =>
      .pure ⟨List.forall_mem_cons.mpr ⟨hrun, hruns.1⟩, h.append hruns.2 (h.refl run.items)⟩

/-- Merging all pending runs keeps the row, whichever neighbours are merged first. -/
lemma mergeAll (hlast : S last.items) (hpending : AllSorted S pending) :
    Sorter.Gives mayFail (fun l => S l ∧ R (flat (last :: pending)) l)
      (mergeAll less last pending) := by
  fun_induction Sorting.mergeAll less last pending with
  | case1 last => exact .pure ⟨hlast, h.refl _⟩
  | case2 last before =>
    have hbefore : S before.items := hpending before (List.mem_singleton_self before)
    exact (h.mergeNeighbours hbefore hlast).bind fun run hrun => .pure hrun
  | case3 last middle before rest hshorter ih =>
    obtain ⟨hmiddle, hbehind⟩ := List.forall_mem_cons.mp hpending
    obtain ⟨hbefore, hrest⟩ := List.forall_mem_cons.mp hbehind
    refine (h.mergeNeighbours hbefore hmiddle).bind fun run hrun => ?_
    refine (ih run hlast (List.forall_mem_cons.mpr ⟨hrun.1, hrest⟩)).imp fun l hl => ⟨hl.1, ?_⟩
    have hmerged := h.append (h.append (h.refl (flat rest)) hrun.2) (h.refl last.items)
    rw [← List.append_assoc] at hmerged
    exact h.trans hmerged hl.2
  | case4 last middle before rest hshorter ih =>
    obtain ⟨hmiddle, hbehind⟩ := List.forall_mem_cons.mp hpending
    refine (h.mergeNeighbours hmiddle hlast).bind fun run hrun => ?_
    refine (ih run hrun.1 hbehind).imp fun l hl => ⟨hl.1, ?_⟩
    have hmerged := h.append (h.refl (flat (before :: rest))) hrun.2
    rw [← List.append_assoc] at hmerged
    exact h.trans hmerged hl.2

lemma finish (hpending : AllSorted S pending) :
    Sorter.Gives mayFail (fun l => S l ∧ R (flat pending) l) (mergeRuns.finish less pending) := by
  cases pending with
  | nil => exact .pure ⟨h.nil, h.refl _⟩
  | cons last rest =>
    obtain ⟨hlast, hrest⟩ := List.forall_mem_cons.mp hpending
    exact h.mergeAll hlast hrest

/-- The pending runs and the items behind them stay the same row until all of it is merged. -/
lemma mergeRuns (hpending : AllSorted S pending) (hitems : ∀ x ∈ items, P x)
    (hsteps : items.length ≤ steps) :
    Sorter.Gives mayFail (fun l => S l ∧ R (flat pending ++ items) l)
      (mergeRuns less total pending start items steps) := by
  induction steps generalizing pending start items with
  | zero =>
    rw [List.length_eq_zero_iff.mp (Nat.le_zero.mp hsteps), List.append_nil]
    exact h.finish hpending
  | succ steps ih =>
    rw [Sorting.mergeRuns]
    split
    · rename_i hempty
      rw [List.isEmpty_iff.mp hempty, List.append_nil]
      exact h.finish hpending
    · rename_i hempty
      have hne : items ≠ [] := fun hnil => hempty (List.isEmpty_iff.mpr hnil)
      refine (Sorter.Gives.lift (h.nextRun hitems hne)).bind
        fun (run, behind) ⟨hrun, hR, hlt⟩ => ?_
      dsimp only at hrun hR hlt
      have hbehind : ∀ x ∈ behind, P x :=
        fun x hx => hitems x ((h.perm hR).mem_iff.mpr (List.mem_append_right run hx))
      refine (h.addRun ⟨start, run, 0⟩ hrun hpending).bind fun runs hruns => ?_
      refine (ih hruns.1 hbehind (by omega)).imp fun l hl => ⟨hl.1, ?_⟩
      have hfound := h.append (h.refl (flat pending)) hR
      rw [← List.append_assoc] at hfound
      exact h.trans (h.trans hfound (h.append hruns.2 (h.refl behind))) hl.2

/-- Sorting does to all items what its parts do to a few. -/
lemma sort (hitems : ∀ x ∈ items, P x) :
    Except.Gives mayFail (fun l => S l ∧ R items l) (sort less items) := by
  have hnone : AllSorted S ([] : List (PendingRun α)) := nofun
  exact ((h.mergeRuns hnone hitems le_rfl) _).map fun r hr => hr

end Sorts

/-! ## What sorting returns -/

lemma sorts_of_compares (h : Compares mayFail P less) :
    Sorts mayFail P (fun l => ∀ x ∈ l, P x) List.Perm less where
  perm := id
  refl := .refl
  trans := .trans
  append := .append
  nil := nofun
  naturalRun hitems := (naturalRun_perm h hitems).imp fun r ⟨hperm, hne⟩ =>
    ⟨fun x hx => hitems x (hperm.mem_iff.mpr (List.mem_append_left r.2 hx)), hperm, hne⟩
  insertSorted hsorted hx := (insertSorted_perm h hsorted hx).imp fun _ hperm =>
    ⟨fun y hy => List.forall_mem_append.mpr ⟨hsorted, List.forall_mem_singleton.mpr hx⟩ y
      (hperm.mem_iff.mpr hy), hperm⟩
  merge _ _ _ hfirst hsecond := (merge_perm h hfirst hsecond).imp fun _ hperm =>
    ⟨fun x hx => List.forall_mem_append.mpr ⟨hfirst, hsecond⟩ x (hperm.mem_iff.mpr hx), hperm⟩

lemma sorts_of_ranks (h : Ranks rank P less) :
    Sorts False P (fun l => (∀ x ∈ l, P x) ∧ Ascending rank l) (SameLevels rank) less where
  perm := SameLevels.perm
  refl := .refl
  trans := .trans
  append := .append
  nil := ⟨nofun, .nil⟩
  naturalRun hitems := (naturalRun_stable h hitems).imp fun r ⟨hascending, hlevels, hne⟩ =>
    ⟨⟨fun x hx => hitems x (hlevels.mem_iff.mpr (List.mem_append_left r.2 hx)), hascending⟩,
      hlevels, hne⟩
  insertSorted hsorted hx := (insertSorted_stable h hsorted.1 hsorted.2 hx).imp fun _ hl =>
    ⟨⟨fun y hy => List.forall_mem_append.mpr ⟨hsorted.1, List.forall_mem_singleton.mpr hx⟩ y
      (hl.levels.mem_iff.mpr hy), hl.ascending⟩, hl.levels⟩
  merge _ _ _ hfirst hsecond := by
    have hmerge := stableSort_merge hfirst.2 hsecond.2
    refine (merge_gives h hfirst.1 hsecond.1 hfirst.2 hsecond.2).imp fun r hr => ?_
    rw [hr]
    exact ⟨⟨fun x hx => List.forall_mem_append.mpr ⟨hfirst.1, hsecond.1⟩ x
      (hmerge.levels.mem_iff.mpr hx), hmerge.ascending⟩, hmerge.levels⟩

/-- **Sorting permutes the items**, whatever their comparisons say, and fails only if comparing
two of them can fail. -/
theorem sort_perm (h : Compares mayFail P less) (hitems : ∀ x ∈ items, P x) :
    Except.Gives mayFail (fun sorted => items.Perm sorted) (sort less items) :=
  ((sorts_of_compares h).sort hitems).imp fun _ hl => hl.2

/-- **Sorting by rank is the standard merge sort**: the items in the order of their ranks, those of
one rank as they were. -/
theorem sort_eq_mergeSort (h : Ranks rank P less) (hitems : ∀ x ∈ items, P x) :
    sort less items = .ok (items.mergeSort (atMost rank)) := by
  have hsort := (sorts_of_ranks h).sort hitems
  cases heq : sort less items with
  | error e =>
    rw [heq] at hsort
    exact hsort.elim
  | ok sorted =>
    rw [heq] at hsort
    rw [StableSort.eq_mergeSort ⟨hsort.1.2, hsort.2⟩]

end Mediant.Sorting
