import Mediant.Proofs.Sorting.Run
import Mediant.Sorting.Merge

/-!
# Merging runs

A contest has its items in three rows, and each of its steps moves items between them, so nothing is
lost whatever the comparisons say (`merge_perm`).

Where the comparisons are those of a rank, what has been placed and the standard merge of the rest
make the standard merge of both runs, before and after every step (`Contest.Goes`).  A contest that
places the items from the end is one from the beginning in the opposite order, so the steps are
looked at for one direction only.  At the end of a contest the rest is merged by joining it: either
one row is used up, or what is held is a single item that comes behind all others, as the last item
of the first run does from the start.  So merging two runs is the standard merge (`merge_gives`).
-/

namespace Mediant.Sorting

variable {ε α κ : Type} [LinearOrder κ] {less : α → α → Except ε Bool} {mayFail : Prop}
  {P : α → Prop} {rank : α → κ} {first second : List α} {patience steps n : ℕ}

namespace Contest

variable {c : Contest α} {row : List α} {wins : α → Except ε Bool} {front : α → Bool} {p : ℕ}

/-! ## Nothing is lost -/

/-- All items of a contest. -/
def items (c : Contest α) : List α := c.placed ++ (c.held ++ c.other)

lemma result_perm (c : Contest α) : c.items.Perm c.result := by
  have hrow : c.items.Perm (c.placed.reverse ++ c.other ++ c.held) := by
    rw [List.append_assoc]
    exact (List.reverse_perm c.placed).symm.append List.perm_append_comm
  unfold result
  extract_lets row
  split
  · exact hrow.trans (List.reverse_perm _).symm
  · exact hrow

/-- Items from the beginning of a row are placed in front of what was placed before. -/
lemma perm_placed (placed row rest : List α) (n : ℕ) :
    (placed ++ (row ++ rest)).Perm ((row.take n).reverse ++ placed ++ (row.drop n ++ rest)) := by
  have htake : (placed ++ row.take n).Perm ((row.take n).reverse ++ placed) :=
    List.perm_append_comm.trans ((List.reverse_perm _).symm.append_right _)
  have hsplit : placed ++ (row ++ rest) = placed ++ row.take n ++ (row.drop n ++ rest) := by
    rw [List.append_assoc, ← List.append_assoc (row.take n), List.take_append_drop]
  rw [hsplit]
  exact htake.append_right _

lemma placeHeld_perm (n : ℕ) (c : Contest α) : c.items.Perm (c.placeHeld n).items :=
  perm_placed c.placed c.held c.other n

lemma placeOther_perm (n : ℕ) (c : Contest α) : c.items.Perm (c.placeOther n).items := by
  have hcomm : ∀ d : Contest α, d.items.Perm (d.placed ++ (d.other ++ d.held)) :=
    fun d => List.perm_append_comm.append_left d.placed
  exact (hcomm c).trans
    ((perm_placed c.placed c.other c.held n).trans (hcomm (c.placeOther n)).symm)

lemma mem_items_of_other {x : α} (hx : x ∈ c.other) : x ∈ c.items :=
  List.mem_append_right _ (List.mem_append_right _ hx)

lemma mem_items_of_held {x : α} (hx : x ∈ c.held) : x ∈ c.items :=
  List.mem_append_right _ (List.mem_append_left _ hx)

lemma otherWins_gives (h : Compares mayFail P less) {x y : α} (hx : P x) (hy : P y) :
    Except.Gives mayFail (fun _ => True) (c.otherWins less x y) := by
  unfold otherWins
  split
  · exact h y x hy hx
  · exact h x y hx hy

lemma stretch_gives (h : ∀ x ∈ row, Except.Gives mayFail (fun _ => True) (wins x)) :
    Except.Gives mayFail (fun _ => True) (c.stretch wins row) := by
  unfold stretch
  split
  · refine Except.Gives.bind (boundary_gives fun x hx => ?_) fun _ _ => trivial
    exact (h x (List.mem_reverse.mp hx)).map fun _ _ => trivial
  · exact boundary_gives h

section

variable (h : Compares mayFail P less) (hP : ∀ x ∈ c.items, P x)

include h hP

lemma gallopHeld_perm :
    Except.Gives mayFail (fun r => c.items.Perm r.2.items) (c.gallopHeld less) := by
  unfold gallopHeld
  split
  · exact .refl _
  · rename_i x rest hother
    have hx : P x := hP x (mem_items_of_other (hother ▸ List.mem_cons_self))
    refine (stretch_gives fun y hy =>
      (otherWins_gives h hx (hP y (mem_items_of_held hy))).map fun _ _ => trivial).bind
      fun n _ => ?_
    have hplaced := placeHeld_perm n c
    dsimp only
    split
    · exact hplaced
    · exact hplaced.trans (placeOther_perm 1 _)

lemma gallopOther_perm :
    Except.Gives mayFail (fun r => c.items.Perm r.2.items) (c.gallopOther less) := by
  unfold gallopOther
  split
  · exact .refl _
  · rename_i y rest hheld
    have hy : P y := hP y (mem_items_of_held (hheld ▸ List.mem_cons_self))
    refine (stretch_gives fun x hx => otherWins_gives h (hP x (mem_items_of_other hx)) hy).bind
      fun n _ => ?_
    have hplaced := placeOther_perm n c
    dsimp only
    split
    · exact hplaced
    · exact hplaced.trans (placeHeld_perm 1 _)

lemma placeOne_perm (heldWins otherWins : ℕ) :
    Except.Gives mayFail (fun r => c.items.Perm r.2.items)
      (c.placeOne less patience heldWins otherWins) := by
  unfold placeOne
  split
  · rename_i x others y helds hother hheld
    have hx : P x := hP x (mem_items_of_other (hother ▸ List.mem_cons_self))
    have hy : P y := hP y (mem_items_of_held (hheld ▸ List.mem_cons_self))
    refine (otherWins_gives h hx hy).bind fun b _ => ?_
    split
    · exact placeOther_perm 1 c
    · exact placeHeld_perm 1 c
  · exact .refl _

end

/-- The stretch of the run that is the first in the row of both. -/
def gallopFirst (less : α → α → Except ε Bool) (c : Contest α) : Except ε (ℕ × Contest α) :=
  if c.fromEnd then c.gallopOther less else c.gallopHeld less

/-- The stretch of the run behind it. -/
def gallopSecond (less : α → α → Except ε Bool) (c : Contest α) : Except ε (ℕ × Contest α) :=
  if c.fromEnd then c.gallopHeld less else c.gallopOther less

lemma placeStretches_eq (less : α → α → Except ε Bool) (c : Contest α) :
    c.placeStretches less = (do
      let r ← c.gallopFirst less
      if r.2.isOver then return (false, r.2)
      let r' ← r.2.gallopSecond less
      return (longStretch ≤ r.1 || longStretch ≤ r'.1, r'.2)) := by
  unfold placeStretches gallopFirst
  split
  all_goals
    refine congrArg _ (funext fun r => ?_)
    dsimp only
    unfold gallopSecond
    split
    · rfl
    · split <;> rfl

lemma placeStretches_perm (h : Compares mayFail P less) (hP : ∀ x ∈ c.items, P x) :
    Except.Gives mayFail (fun r => c.items.Perm r.2.items) (c.placeStretches less) := by
  have hfirst : Except.Gives mayFail (fun r => c.items.Perm r.2.items) (c.gallopFirst less) := by
    unfold gallopFirst
    split
    · exact gallopOther_perm h hP
    · exact gallopHeld_perm h hP
  rw [placeStretches_eq]
  refine hfirst.bind fun r hr => ?_
  have hPr : ∀ x ∈ r.2.items, P x := fun x hx => hP x (hr.mem_iff.mpr hx)
  have hsecond : Except.Gives mayFail (fun r' => r.2.items.Perm r'.2.items)
      (r.2.gallopSecond less) := by
    unfold gallopSecond
    split
    · exact gallopHeld_perm h hPr
    · exact gallopOther_perm h hPr
  split
  · exact hr
  · exact hsecond.bind fun r' hr' => hr.trans hr'

lemma settle_perm (h : Compares mayFail P less) (hP : ∀ x ∈ c.items, P x) (pace : Pace) :
    Except.Gives mayFail (fun r => c.items.Perm r.1.items) (c.settle less pace patience steps) := by
  induction steps generalizing c pace patience with
  | zero => exact .refl _
  | succ steps ih =>
    unfold settle
    split
    · exact .refl _
    · cases pace with
      | single heldWins otherWins =>
        refine (placeOne_perm h hP heldWins otherWins).bind fun r hr => ?_
        exact (ih (fun x hx => hP x (hr.mem_iff.mpr hx)) r.1).imp fun _ h => hr.trans h
      | galloping =>
        refine (placeStretches_perm h hP).bind fun r hr => ?_
        have hnext : ∀ pace patience, Except.Gives mayFail (fun r' => c.items.Perm r'.1.items)
            (r.2.settle less pace patience steps) := fun pace patience =>
          (ih (fun x hx => hP x (hr.mem_iff.mpr hx)) pace).imp fun _ h => hr.trans h
        dsimp only
        split
        · exact hr
        · split
          · exact hnext _ _
          · exact hnext _ _

lemma start_perm (first second : List α) : (first ++ second).Perm (start first second).items := by
  unfold start
  split
  · exact placeOther_perm 1 ⟨false, first, second, []⟩
  · have hreverse : (first ++ second).Perm (second.reverse ++ first.reverse) := by
      rw [← List.reverse_append]
      exact (List.reverse_perm _).symm
    exact hreverse.trans (placeOther_perm 1 ⟨true, second.reverse, first.reverse, []⟩)

end Contest

/-- A merge has the items of both runs. -/
lemma merge_perm (h : Compares mayFail P less) (hfirst : ∀ x ∈ first, P x)
    (hsecond : ∀ x ∈ second, P x) :
    Except.Gives mayFail (fun r => (first ++ second).Perm r.1)
      (merge less patience first second) := by
  unfold merge
  extract_lets whole
  split
  · rename_i smallest hsmallest
    have hsmallestP : P smallest := hsecond smallest (List.mem_of_mem_head? hsmallest)
    refine (boundary_gives fun x hx =>
      (h smallest x hsmallestP (hfirst x hx)).map fun _ _ => trivial).bind fun p _ => ?_
    rw [List.splitAt_eq]
    dsimp only
    split
    · rename_i greatest hgreatest
      have hgreatestP : P greatest :=
        hfirst greatest (List.mem_of_mem_drop (List.mem_of_mem_getLast? hgreatest))
      refine (boundary_gives fun x hx => h x greatest (hsecond x hx) hgreatestP).bind fun q _ => ?_
      rw [List.splitAt_eq]
      dsimp only
      split
      · exact .refl _
      · have hstart := Contest.start_perm (first.drop p) (second.take q)
        have hP : ∀ x ∈ (Contest.start (first.drop p) (second.take q)).items, P x := by
          intro x hx
          rcases List.mem_append.mp (hstart.mem_iff.mpr hx) with hx | hx
          · exact hfirst x (List.mem_of_mem_drop hx)
          · exact hsecond x (List.mem_of_mem_take hx)
        refine (Contest.settle_perm h hP _).bind fun r hr => ?_
        have hresult : (first.drop p ++ second.take q).Perm r.1.result :=
          hstart.trans (hr.trans r.1.result_perm)
        have hsplit : first ++ second =
            first.take p ++ (first.drop p ++ second.take q) ++ second.drop q := by
          rw [← List.append_assoc, List.take_append_drop, List.append_assoc, List.take_append_drop]
        change (first ++ second).Perm (first.take p ++ r.1.result ++ second.drop q)
        rw [hsplit]
        exact (hresult.append_left _).append_right _
    · exact .refl _
  · exact .refl _

/-! ## Merging by rank -/

namespace Contest

variable {c d e : Contest α} {row : List α} {wins : α → Except ε Bool} {front : α → Bool} {p : ℕ}

/-- The items that are left to be placed. -/
def left (c : Contest α) : ℕ := c.held.length + c.other.length

/-- What has been placed, and the standard merge of the rest. -/
def merged (rank : α → κ) (c : Contest α) : List α :=
  c.placed.reverse ++ c.held.merge c.other (atMost rank)

/-- An item of the other row wins if its rank is less. -/
def Prefers (rank : α → κ) (P : α → Prop) (less : α → α → Except ε Bool) (c : Contest α) : Prop :=
  ∀ x y, P x → P y → c.otherWins less x y = .ok (decide (rank x < rank y))

/-- Both rows are sorted, and the last of the held items comes behind all others. -/
structure Fair (rank : α → κ) (P : α → Prop) (c : Contest α) : Prop where
  mem_held : ∀ y ∈ c.held, P y
  mem_other : ∀ x ∈ c.other, P x
  held : Ascending rank c.held
  other : Ascending rank c.other
  last {y : α} : c.held.getLast? = some y → ∀ x ∈ c.other, rank x < rank y

/-- A contest goes on to another one in which the merge of both runs is the same. -/
structure Goes (rank : α → κ) (P : α → Prop) (c d : Contest α) : Prop where
  fair : d.Fair rank P
  merged_eq : d.merged rank = c.merged rank
  fromEnd_eq : d.fromEnd = c.fromEnd
  left_le : d.left ≤ c.left

lemma Goes.refl (h : c.Fair rank P) : c.Goes rank P c := ⟨h, rfl, rfl, le_rfl⟩

lemma Goes.trans (h : c.Goes rank P d) (h' : d.Goes rank P e) : c.Goes rank P e :=
  ⟨h'.fair, h'.merged_eq.trans h.merged_eq, h'.fromEnd_eq.trans h.fromEnd_eq,
    h'.left_le.trans h.left_le⟩

lemma Goes.prefers (h : c.Goes rank P d) (hless : c.Prefers rank P less) :
    d.Prefers rank P less := by
  intro x y hx hy
  rw [← hless x y hx hy, otherWins, otherWins, h.fromEnd_eq]

namespace Fair

/-- At the end of a contest joining the rows merges them. -/
lemma merged_eq_of_isOver (h : c.Fair rank P) (hover : c.isOver = true) :
    c.merged rank = c.placed.reverse ++ c.other ++ c.held := by
  rw [merged, List.append_assoc]
  congr 1
  rw [isOver, Bool.or_eq_true, List.isEmpty_iff, decide_eq_true_eq] at hover
  rcases hover with hother | hheld
  · rw [hother, List.merge_right, List.nil_append]
  · match hc : c.held, hheld with
    | [], _ => rw [List.nil_merge, List.append_nil]
    | [y], _ =>
      have hlast : ∀ x ∈ c.other, ∀ z ∈ [y], rank x < rank z := by
        intro x hx z hz
        rw [List.mem_singleton.mp hz]
        exact h.last (by rw [hc]; rfl) x hx
      rw [← List.append_nil c.other, merge_append_right hlast, List.merge_right, List.append_nil]

/-- Held items that do not come after any other may be placed. -/
lemma placeHeld (h : c.Fair rank P) {n : ℕ}
    (hle : ∀ y ∈ c.held.take n, ∀ x ∈ c.other, rank y ≤ rank x) :
    c.Goes rank P (c.placeHeld n) := by
  refine ⟨⟨fun y hy => h.mem_held y (List.mem_of_mem_drop hy), h.mem_other, h.held.drop, h.other,
    fun {y} hy => h.last ?_⟩, ?_, rfl, ?_⟩
  · change (c.held.drop n).getLast? = some y at hy
    rw [List.getLast?_drop] at hy
    split at hy
    · cases hy
    · exact hy
  · change ((c.held.take n).reverse ++ c.placed).reverse ++
      (c.held.drop n).merge c.other (atMost rank) = _
    rw [List.reverse_append, List.reverse_reverse, List.append_assoc, ← merge_append_left hle,
      List.take_append_drop, merged]
  · change (c.held.drop n).length + c.other.length ≤ _
    rw [List.length_drop, left]
    omega

/-- Other items that come before all held ones may be placed. -/
lemma placeOther (h : c.Fair rank P) {n : ℕ}
    (hlt : ∀ x ∈ c.other.take n, ∀ y ∈ c.held, rank x < rank y) :
    c.Goes rank P (c.placeOther n) := by
  refine ⟨⟨h.mem_held, fun x hx => h.mem_other x (List.mem_of_mem_drop hx), h.held, h.other.drop,
    fun {y} hy x hx => h.last hy x (List.mem_of_mem_drop hx)⟩, ?_, rfl, ?_⟩
  · change ((c.other.take n).reverse ++ c.placed).reverse ++
      c.held.merge (c.other.drop n) (atMost rank) = _
    rw [List.reverse_append, List.reverse_reverse, List.append_assoc, ← merge_append_right hlt,
      List.take_append_drop, merged]
  · change c.held.length + (c.other.drop n).length ≤ _
    rw [List.length_drop, left]
    omega

end Fair

/-- A stretch is as long as its items win. -/
lemma stretch_eq (hp : Divides front row p) (hwins : ∀ x ∈ row, wins x = .ok (front x)) :
    c.stretch wins row = .ok p := by
  have hle := hp.le_length
  unfold stretch
  split
  · have htest : ∀ x ∈ row.reverse, (not <$> wins x) = .ok (!front x) := by
      intro x hx
      rw [hwins x (List.mem_reverse.mp hx)]
      rfl
    rw [boundary_eq hp.reverse htest (by rw [List.length_reverse]; omega), Except.bind_ok,
      Nat.sub_sub_self hle, Except.pure_eq]
  · exact boundary_eq hp hwins (Nat.zero_le _)

lemma other_ne_nil_of_not_isOver (h : ¬c.isOver = true) : c.other ≠ [] := by
  intro hnil
  exact h (by rw [isOver, hnil]; rfl)

lemma held_ne_nil_of_not_isOver (h : ¬c.isOver = true) : c.held ≠ [] := by
  intro hnil
  exact h (by rw [isOver, hnil, Bool.or_eq_true]; exact .inr rfl)

lemma left_placeOther_lt (h : c.other ≠ []) : (c.placeOther 1).left < c.left := by
  have hpos := List.length_pos_iff.mpr h
  change c.held.length + (c.other.drop 1).length < _
  rw [List.length_drop, left]
  omega

lemma left_placeHeld_lt (h : c.held ≠ []) : (c.placeHeld 1).left < c.left := by
  have hpos := List.length_pos_iff.mpr h
  change (c.held.drop 1).length + c.other.length < _
  rw [List.length_drop, left]
  omega

/-- Either the contest is over, or items have been placed. -/
def Advanced (c d : Contest α) : Prop := d.isOver = true ∨ d.left < c.left

section

variable (h : c.Fair rank P) (hless : c.Prefers rank P less)

include h hless

lemma gallopHeld_goes (hover : ¬c.isOver = true) :
    Except.Gives False (fun r => c.Goes rank P r.2 ∧ c.Advanced r.2) (c.gallopHeld less) := by
  unfold gallopHeld
  split
  · rename_i hnil
    exact absurd hnil (other_ne_nil_of_not_isOver hover)
  · rename_i x rest hother
    have hx : P x := h.mem_other x (hother ▸ List.mem_cons_self)
    have hleast : ∀ z ∈ c.other, rank x ≤ rank z := fun z hz =>
      Ascending.head_le (hother ▸ h.other) (hother ▸ hz)
    obtain ⟨p, hp⟩ := exists_divides (fun y => !decide (rank x < rank y))
      (h.held.imp fun hle hy => by
        simp only [Bool.not_eq_true', decide_eq_false_iff_not, not_lt] at hy ⊢
        exact hle.trans hy)
    have hstretch : c.stretch (fun y => not <$> c.otherWins less x y) c.held = .ok p :=
      stretch_eq hp fun y hy => by rw [hless x y hx (h.mem_held y hy)]; rfl
    have hheld : c.Goes rank P (c.placeHeld p) := h.placeHeld fun y hy z hz => by
      have hyx : rank y ≤ rank x := by simpa using hp.of_mem_take hy
      exact hyx.trans (hleast z hz)
    rw [hstretch, Except.bind_ok]
    dsimp only
    split
    · rename_i hend
      exact ⟨hheld, .inl hend⟩
    · rename_i hgoesOn
      have hother' : (c.placeHeld p).Goes rank P ((c.placeHeld p).placeOther 1) :=
        hheld.fair.placeOther fun z hz y hy => by
          change z ∈ c.other.take 1 at hz
          rw [hother, List.take_succ_cons, List.take_zero, List.mem_singleton] at hz
          rw [hz]
          simpa using hp.of_mem_drop hy
      exact ⟨hheld.trans hother', .inr ((left_placeOther_lt
        (other_ne_nil_of_not_isOver hgoesOn)).trans_le hheld.left_le)⟩

lemma gallopOther_goes (hover : ¬c.isOver = true) :
    Except.Gives False (fun r => c.Goes rank P r.2 ∧ c.Advanced r.2) (c.gallopOther less) := by
  unfold gallopOther
  split
  · rename_i hnil
    exact absurd hnil (held_ne_nil_of_not_isOver hover)
  · rename_i y rest hheld
    have hy : P y := h.mem_held y (hheld ▸ List.mem_cons_self)
    have hleast : ∀ z ∈ c.held, rank y ≤ rank z := fun z hz =>
      Ascending.head_le (hheld ▸ h.held) (hheld ▸ hz)
    obtain ⟨p, hp⟩ := exists_divides (fun x => decide (rank x < rank y))
      (h.other.imp fun hle hx => by
        simp only [decide_eq_true_eq] at hx ⊢
        exact hle.trans_lt hx)
    have hstretch : c.stretch (fun x => c.otherWins less x y) c.other = .ok p :=
      stretch_eq hp fun x hx => hless x y (h.mem_other x hx) hy
    have hother : c.Goes rank P (c.placeOther p) := h.placeOther fun x hx z hz => by
      have hxy : rank x < rank y := by simpa using hp.of_mem_take hx
      exact hxy.trans_le (hleast z hz)
    rw [hstretch, Except.bind_ok]
    dsimp only
    split
    · rename_i hend
      exact ⟨hother, .inl hend⟩
    · rename_i hgoesOn
      have hheld' : (c.placeOther p).Goes rank P ((c.placeOther p).placeHeld 1) :=
        hother.fair.placeHeld fun z hz x hx => by
          change z ∈ c.held.take 1 at hz
          rw [hheld, List.take_succ_cons, List.take_zero, List.mem_singleton] at hz
          rw [hz]
          simpa using hp.of_mem_drop hx
      exact ⟨hother.trans hheld', .inr ((left_placeHeld_lt
        (held_ne_nil_of_not_isOver hgoesOn)).trans_le hother.left_le)⟩

lemma placeOne_goes (hover : ¬c.isOver = true) (heldWins otherWins : ℕ) :
    Except.Gives False (fun r => c.Goes rank P r.2 ∧ r.2.left < c.left)
      (c.placeOne less patience heldWins otherWins) := by
  unfold placeOne
  split
  · rename_i x others y helds hother hheld
    have hx : P x := h.mem_other x (hother ▸ List.mem_cons_self)
    have hy : P y := h.mem_held y (hheld ▸ List.mem_cons_self)
    rw [hless x y hx hy, Except.bind_ok]
    split
    · rename_i hlt
      refine ⟨h.placeOther fun z hz w hw => ?_, left_placeOther_lt (hother ▸ List.cons_ne_nil x _)⟩
      rw [hother, List.take_succ_cons, List.take_zero, List.mem_singleton] at hz
      rw [hz]
      exact (decide_eq_true_eq.mp hlt).trans_le (Ascending.head_le (hheld ▸ h.held) (hheld ▸ hw))
    · rename_i hge
      refine ⟨h.placeHeld fun z hz w hw => ?_, left_placeHeld_lt (hheld ▸ List.cons_ne_nil y _)⟩
      rw [hheld, List.take_succ_cons, List.take_zero, List.mem_singleton] at hz
      rw [hz]
      have hyx : rank y ≤ rank x := by simpa using hge
      exact hyx.trans (Ascending.head_le (hother ▸ h.other) (hother ▸ hw))
  · rename_i hnone
    obtain ⟨x, others, hother⟩ := List.exists_cons_of_ne_nil (other_ne_nil_of_not_isOver hover)
    obtain ⟨y, helds, hheld⟩ := List.exists_cons_of_ne_nil (held_ne_nil_of_not_isOver hover)
    exact absurd hheld (hnone x others y helds hother)

lemma placeStretches_goes (hover : ¬c.isOver = true) :
    Except.Gives False (fun r => c.Goes rank P r.2 ∧ c.Advanced r.2) (c.placeStretches less) := by
  have hfirst : Except.Gives False (fun r => c.Goes rank P r.2 ∧ c.Advanced r.2)
      (c.gallopFirst less) := by
    unfold gallopFirst
    split
    · exact gallopOther_goes h hless hover
    · exact gallopHeld_goes h hless hover
  rw [placeStretches_eq]
  refine hfirst.bind fun r ⟨hr, hadvanced⟩ => ?_
  split
  · exact ⟨hr, hadvanced⟩
  · rename_i hgoesOn
    have hsecond : Except.Gives False (fun r' => r.2.Goes rank P r'.2 ∧ r.2.Advanced r'.2)
        (r.2.gallopSecond less) := by
      unfold gallopSecond
      split
      · exact gallopHeld_goes hr.fair (hr.prefers hless) hgoesOn
      · exact gallopOther_goes hr.fair (hr.prefers hless) hgoesOn
    refine hsecond.bind fun r' ⟨hr', hadvanced'⟩ => ⟨hr.trans hr', ?_⟩
    exact hadvanced'.imp_right fun hlt => hlt.trans (hadvanced.resolve_left hgoesOn)

end

/-- A contest is settled in as many steps as there are items. -/
lemma settle_goes (h : c.Fair rank P) (hless : c.Prefers rank P less) (hsteps : c.left ≤ steps)
    (pace : Pace) : Except.Gives False (fun r => c.Goes rank P r.1 ∧ r.1.isOver = true)
      (c.settle less pace patience steps) := by
  induction steps generalizing c pace patience with
  | zero =>
    have hother : c.other = [] := List.length_eq_zero_iff.mp (by rw [left] at hsteps; omega)
    exact ⟨.refl h, by rw [isOver, hother]; rfl⟩
  | succ steps ih =>
    have hnext : ∀ d, c.Goes rank P d → d.left < c.left → ∀ pace patience,
        Except.Gives False (fun r => c.Goes rank P r.1 ∧ r.1.isOver = true)
          (d.settle less pace patience steps) := fun d hd hlt pace patience =>
      (ih hd.fair (hd.prefers hless) (by omega) pace).imp fun r hr => ⟨hd.trans hr.1, hr.2⟩
    unfold settle
    split
    · rename_i hover
      exact ⟨.refl h, hover⟩
    · rename_i hover
      cases pace with
      | single heldWins otherWins =>
        exact (placeOne_goes h hless hover heldWins otherWins).bind fun r ⟨hr, hlt⟩ =>
          hnext r.2 hr hlt r.1 patience
      | galloping =>
        refine (placeStretches_goes h hless hover).bind fun r ⟨hr, hadvanced⟩ => ?_
        dsimp only
        split
        · rename_i hend
          exact ⟨hr, hend⟩
        · rename_i hgoesOn
          have hlt := hadvanced.resolve_left hgoesOn
          split
          · exact hnext r.2 hr hlt _ _
          · exact hnext r.2 hr hlt _ _

end Contest

/-! ## Whole runs -/

/-- Two sorted runs overlap: the first item of the second comes before all of the first, and the
last item of the first comes behind all of the second. -/
structure Overlap (rank : α → κ) (P : α → Prop) (first second : List α) : Prop where
  mem_first : ∀ x ∈ first, P x
  mem_second : ∀ x ∈ second, P x
  ascending_first : Ascending rank first
  ascending_second : Ascending rank second
  head {x : α} : second.head? = some x → ∀ y ∈ first, rank x < rank y
  last {y : α} : first.getLast? = some y → ∀ x ∈ second, rank x < rank y

namespace Overlap

/-- From the end they overlap in the opposite order. -/
lemma reverse (h : Overlap rank P first second) :
    Overlap (fun x => OrderDual.toDual (rank x)) P second.reverse first.reverse := by
  refine ⟨fun x hx => h.mem_second x (List.mem_reverse.mp hx),
    fun x hx => h.mem_first x (List.mem_reverse.mp hx),
    List.pairwise_reverse.mpr h.ascending_second, List.pairwise_reverse.mpr h.ascending_first,
    fun {y} hy x hx => ?_, fun {x} hx y hy => ?_⟩
  · rw [List.head?_reverse] at hy
    exact h.last hy x (List.mem_reverse.mp hx)
  · rw [List.getLast?_reverse] at hx
    exact h.head hx y (List.mem_reverse.mp hy)

/-- A contest between them ends with their merge. -/
lemma settle_gives (h : Overlap rank P first second) (fromEnd : Bool)
    (hless : Contest.Prefers rank P less ⟨fromEnd, first, second, []⟩) (pace : Contest.Pace)
    (hsteps : first.length + second.length ≤ steps) :
    Except.Gives False (fun r => r.1.fromEnd = fromEnd ∧
      r.1.placed.reverse ++ r.1.other ++ r.1.held = first.merge second (atMost rank))
      ((Contest.placeOther 1 ⟨fromEnd, first, second, []⟩).settle less pace patience steps) := by
  have hfair : Contest.Fair rank P ⟨fromEnd, first, second, []⟩ :=
    ⟨h.mem_first, h.mem_second, h.ascending_first, h.ascending_second, h.last⟩
  have hstart := hfair.placeOther (n := 1) fun x hx y hy => by
    change x ∈ second.take 1 at hx
    rw [List.take_one, Option.mem_toList] at hx
    exact h.head hx y hy
  refine (Contest.settle_goes hstart.fair (hstart.prefers hless) (hstart.left_le.trans hsteps)
    pace).imp fun r ⟨hr, hover⟩ => ⟨hr.fromEnd_eq.trans hstart.fromEnd_eq, ?_⟩
  rw [← hr.fair.merged_eq_of_isOver hover, hr.merged_eq, hstart.merged_eq]
  rfl

/-- Whichever way it goes, its result is the merge. -/
lemma result_gives (h : Overlap rank P first second) (hless : Ranks rank P less) :
    Except.Gives False (fun r => r.1.result = first.merge second (atMost rank))
      ((Contest.start first second).settle less (.single 0 0) patience
        (first.length + second.length)) := by
  unfold Contest.start
  split
  · refine (h.settle_gives false hless _ le_rfl).imp fun r ⟨hfromEnd, hrow⟩ => ?_
    rw [Contest.result, hfromEnd, ← hrow]
    rfl
  · have hdual : Contest.Prefers (fun x => OrderDual.toDual (rank x)) P less
        ⟨true, second.reverse, first.reverse, []⟩ := fun x y hx hy => hless y x hy hx
    refine (h.reverse.settle_gives true hdual _
      (by rw [List.length_reverse, List.length_reverse, Nat.add_comm])).imp
      fun r ⟨hfromEnd, hrow⟩ => ?_
    have hsorted := (stableSort_merge h.reverse.ascending_first h.reverse.ascending_second).reverse
    rw [← List.reverse_append, List.reverse_reverse, ← hrow] at hsorted
    rw [Contest.result, hfromEnd]
    exact hsorted.unique (stableSort_merge h.ascending_first h.ascending_second)

end Overlap

section

variable (h : Ranks rank P less) (hP : ∀ x ∈ first, P x) (hP' : ∀ x ∈ second, P x)
  (hfirst : Ascending rank first) (hsecond : Ascending rank second)

include h hP hP' hfirst hsecond

/-- The items of the first run that do not come after the first one of the second stay where they
are. -/
lemma exists_boundary_before {smallest : α} (hsmallest : second.head? = some smallest) :
    ∃ p, boundary (fun x => not <$> less smallest x) first 0 = .ok p ∧
      Divides (fun x => !decide (rank smallest < rank x)) first p ∧
      first.merge second (atMost rank) =
        first.take p ++ (first.drop p).merge second (atMost rank) := by
  have hmem : P smallest := hP' smallest (List.mem_of_mem_head? hsmallest)
  have hleast : ∀ y ∈ second, rank smallest ≤ rank y := by
    obtain ⟨rest, rfl⟩ := List.head?_eq_some_iff.mp hsmallest
    exact fun y hy => hsecond.head_le hy
  obtain ⟨p, hp⟩ := exists_divides (fun x => !decide (rank smallest < rank x))
    (hfirst.imp fun hle hx => by
      simp only [Bool.not_eq_true', decide_eq_false_iff_not, not_lt] at hx ⊢
      exact hle.trans hx)
  have htest : ∀ x ∈ first, (not <$> less smallest x) =
      .ok (!decide (rank smallest < rank x)) := by
    intro x hx
    rw [h smallest x hmem (hP x hx)]
    rfl
  have hbefore : ∀ x ∈ first.take p, ∀ y ∈ second, rank x ≤ rank y := by
    intro x hx y hy
    have hle : rank x ≤ rank smallest := by simpa using hp.of_mem_take hx
    exact hle.trans (hleast y hy)
  refine ⟨p, boundary_eq hp htest (Nat.zero_le _), hp, ?_⟩
  rw [← merge_append_left hbefore, List.take_append_drop]

/-- So do the items of the second run that do not come before the last one of the first. -/
lemma exists_boundary_behind {greatest : α} (hgreatest : first.getLast? = some greatest) :
    ∃ q, boundary (fun x => less x greatest) second (second.length - 1) = .ok q ∧
      Divides (fun x => decide (rank x < rank greatest)) second q ∧
      first.merge second (atMost rank) =
        first.merge (second.take q) (atMost rank) ++ second.drop q := by
  have hmem : P greatest := hP greatest (List.mem_of_mem_getLast? hgreatest)
  obtain ⟨q, hq⟩ := exists_divides (fun x => decide (rank x < rank greatest))
    (hsecond.imp fun hle hx => by
      simp only [decide_eq_true_eq] at hx ⊢
      exact hle.trans_lt hx)
  have htest : ∀ x ∈ second, less x greatest = .ok (decide (rank x < rank greatest)) :=
    fun x hx => h x greatest (hP' x hx) hmem
  have hbehind : ∀ x ∈ first, ∀ z ∈ second.drop q, rank x ≤ rank z := by
    intro x hx z hz
    have hle : rank greatest ≤ rank z := by simpa using hq.of_mem_drop hz
    exact (hfirst.le_getLast hgreatest hx).trans hle
  refine ⟨q, boundary_eq hq htest (Nat.sub_le _ _), hq, ?_⟩
  rw [← merge_append_of_le hbehind, List.take_append_drop]

omit h in
/-- What is left of both overlaps. -/
lemma overlap_of_divides {smallest greatest : α} {p q : ℕ}
    (hsmallest : second.head? = some smallest)
    (hgreatest : (first.drop p).getLast? = some greatest)
    (hp : Divides (fun x => !decide (rank smallest < rank x)) first p)
    (hq : Divides (fun x => decide (rank x < rank greatest)) second q) :
    Overlap rank P (first.drop p) (second.take q) := by
  refine ⟨fun x hx => hP x (List.mem_of_mem_drop hx), fun x hx => hP' x (List.mem_of_mem_take hx),
    hfirst.drop, hsecond.take, fun {x} hx y hy => ?_, fun {y} hy x hx => ?_⟩
  · rw [List.head?_take, hsmallest] at hx
    split at hx
    · cases hx
    · rw [← Option.some.inj hx]
      simpa using hp.of_mem_drop hy
  · rw [hgreatest] at hy
    rw [← Option.some.inj hy]
    simpa using hq.of_mem_take hx

/-- **Merging two runs is the standard merge.** -/
lemma merge_gives :
    Except.Gives False (fun r => r.1 = first.merge second (atMost rank))
      (merge less patience first second) := by
  unfold merge
  extract_lets whole
  split
  · rename_i smallest hsmallest
    obtain ⟨p, hboundary, hp, hfront⟩ :=
      exists_boundary_before h hP hP' hfirst hsecond hsmallest
    rw [hboundary, Except.bind_ok, List.splitAt_eq]
    dsimp only
    split
    · rename_i greatest hgreatest
      have hleft : ∀ x ∈ first.drop p, P x := fun x hx => hP x (List.mem_of_mem_drop hx)
      have hsorted : Ascending rank (first.drop p) := hfirst.drop
      obtain ⟨q, hboundary', hq, hback⟩ :=
        exists_boundary_behind h hleft hP' hsorted hsecond hgreatest
      rw [hboundary', Except.bind_ok, List.splitAt_eq]
      dsimp only
      split
      · rename_i hempty
        have hnil : second.take q = [] := List.isEmpty_iff.mp hempty
        have hall : second.drop q = second := by
          rw [← List.nil_append (second.drop q), ← hnil, List.take_append_drop]
        change first ++ second = _
        rw [hfront, hback, hnil, hall, List.merge_right, ← List.append_assoc,
          List.take_append_drop]
      · have hoverlap := overlap_of_divides hP hP' hfirst hsecond hsmallest hgreatest hp hq
        refine (hoverlap.result_gives h).bind fun r hr => ?_
        change first.take p ++ r.1.result ++ second.drop q = _
        rw [hr, hfront, hback, List.append_assoc]
    · rename_i hnone
      have hnil : first.drop p = [] := by
        rw [← List.getLast?_eq_none_iff, Option.eq_none_iff_forall_ne_some]
        exact hnone
      have hall : first.take p = first := by
        rw [← List.append_nil (first.take p), ← hnil, List.take_append_drop]
      change first ++ second = _
      rw [hfront, hnil, hall, List.nil_merge]
  · rename_i hnone
    have hnil : second = [] := by
      rw [← List.head?_eq_none_iff, Option.eq_none_iff_forall_ne_some]
      exact hnone
    change first ++ second = _
    rw [hnil, List.merge_right, List.append_nil]

end

end Mediant.Sorting
