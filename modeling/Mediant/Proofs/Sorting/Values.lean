import Mediant.Proofs.Fraction.Order
import Mediant.Proofs.Sorting.Balance
import Mediant.Value.Sorting

/-!
# Sorting values

Values that stand for rational numbers are compared as these are, so they are sorted by them
(`arrange_eq`).  Sorting in decreasing order sorts from the end, and equal values keep their order
all the same.  The least and the greatest value are found by a pass of its own, which comes to the
same as taking the first of the sorted ones.

Of values of any kind, sorting loses none.
-/

namespace Mediant.Value

open Sorting

variable {κ : Type} [LinearOrder κ] {items rest : List Value} {P : Value → Prop} {v : Value}
  {r : Relation} {rank : Value → κ}

/-- **Sorting permutes the values**, and fails only if two of them cannot be compared. -/
theorem sort_perm (items : List Value) :
    Except.Gives (∃ v ∈ items, ∃ w ∈ items, ∃ e, v.holds .less w = .error e)
      (fun sorted => items.Perm sorted) (sort items) := by
  refine Sorting.sort_perm (P := (· ∈ items)) (fun v w hv hw => ?_) fun v hv => hv
  cases hless : isLess v w with
  | error e => exact ⟨v, hv, w, hw, e, hless⟩
  | ok b => trivial

/-- The item that is chosen is the first one that stands in the relation to all others. -/
lemma choose_eq (h : Ranks rank P fun v w => v.holds r w) (hv : P v) (hrest : ∀ w ∈ rest, P w) :
    ∃ m, choose r v rest = .ok m ∧ FirstLeast rank (v :: rest) m := by
  induction rest generalizing v with
  | nil => exact ⟨v, rfl, .singleton v⟩
  | cons w rest ih =>
    rw [List.forall_mem_cons] at hrest
    have hnext : P (if rank w < rank v then w else v) := by
      split
      · exact hrest.1
      · exact hv
    obtain ⟨m, hm, hfirst⟩ := ih hnext hrest.2
    refine ⟨m, ?_, hfirst.cons_cons⟩
    have hless : w.holds r v = .ok (decide (rank w < rank v)) := h w v hrest.1 hv
    rw [choose, hless, Except.bind_ok, ← hm]
    simp only [decide_eq_true_eq]
    split <;> rfl

/-- Values in increasing and decreasing order, and the first of either. -/
def arrangedBy (rank : Value → ℚ) (items : List Value) : Arrangement :=
  let increasing := items.mergeSort (atMost rank)
  let decreasing := items.mergeSort (atMost fun v => OrderDual.toDual (rank v))
  { increasing, decreasing
    least := increasing.head?.elim (.error (.noItems "min")) .ok
    greatest := decreasing.head?.elim (.error (.noItems "max")) .ok }

section

variable {rank : Value → ℚ} (h : ∀ v ∈ items, v.IsRational (rank v))

include h

lemma ranks_less : Ranks rank (· ∈ items) fun v w => v.holds .less w :=
  fun v w hv hw => (h v hv).holds_eq (h w hw) .less

lemma ranks_more :
    Ranks (fun v => OrderDual.toDual (rank v)) (· ∈ items) fun v w => v.holds .more w :=
  fun v w hv hw => (h v hv).holds_eq (h w hw) .more

/-- Values in increasing order are sorted by the numbers they stand for. -/
lemma sort_eq : sort items = .ok (items.mergeSort (atMost rank)) :=
  sort_eq_mergeSort (ranks_less h) fun _ hv => hv

/-- In decreasing order equal values keep their order, too. -/
lemma sortDescending_eq :
    sortDescending items = .ok (items.mergeSort (atMost fun v => OrderDual.toDual (rank v))) := by
  have hfall := (stableSort_mergeSort (fun v => OrderDual.toDual (rank v)) items).reverse
  rw [sortDescending, sort_eq fun v hv => h v (List.mem_reverse.mp hv), Except.bind_ok,
    ← hfall.eq_mergeSort, List.reverse_reverse]
  rfl

lemma minimum_eq :
    minimum items = (items.mergeSort (atMost rank)).head?.elim (.error (.noItems "min")) .ok := by
  cases items with
  | nil =>
    rw [List.mergeSort_nil]
    rfl
  | cons v rest =>
    obtain ⟨m, hm, hfirst⟩ := choose_eq (ranks_less h) List.mem_cons_self
      fun w hw => List.mem_cons_of_mem v hw
    rw [(stableSort_mergeSort rank _).head?_eq hfirst]
    exact hm

lemma maximum_eq :
    maximum items = (items.mergeSort (atMost fun v => OrderDual.toDual (rank v))).head?.elim
      (.error (.noItems "max")) .ok := by
  cases items with
  | nil =>
    rw [List.mergeSort_nil]
    rfl
  | cons v rest =>
    obtain ⟨m, hm, hfirst⟩ := choose_eq (ranks_more h) List.mem_cons_self
      fun w hw => List.mem_cons_of_mem v hw
    rw [(stableSort_mergeSort (fun v => OrderDual.toDual (rank v)) _).head?_eq hfirst]
    exact hm

/-- **Values that stand for rational numbers are arranged by them.**  The least one is the first in
increasing order, and the greatest one the first in decreasing order. -/
theorem arrange_eq : arrange items = .ok (arrangedBy rank items) := by
  rw [arrange, sort_eq h, Except.bind_ok, sortDescending_eq h, Except.bind_ok, minimum_eq h,
    maximum_eq h]
  rfl

end

end Mediant.Value
