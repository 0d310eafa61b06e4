import Mediant.Sorting.Merge
import Mediant.Sorting.Run

/-!
# Sorting by merging runs

Sorting uses nothing but the question whether one item is less than another, which may fail for
two items that have no order, and may answer inconsistently if some items are comparable to none.
The result then depends on which pairs are asked about, so the procedure is part of what sorting
means here.

The items are split into runs from the beginning on.  Runs that were found are pending until they
are merged, and only neighbours are merged, so sorting is stable.  Which neighbours are merged when
is decided by the *depth* of the border between two runs: imagine the row of all items halved, its
halves halved again, and so on; the depth is the number of halvings after which the middles of the
two runs are apart.  A border that is deeper than the next one is merged first.  At the end the
pending runs are merged from the last one on.
-/

namespace Mediant.Sorting

variable {ε α : Type}

/-- A run that has not been merged yet. -/
structure PendingRun (α : Type) where
  /-- How many items are in front of the run. -/
  start : Nat
  items : List α
  /-- The depth of the border behind the run, once the next run has been found. -/
  depth : Nat

/-- The depth of the border between two neighbouring runs in a row of `total` items: the first
binary digit in which the places of their middles differ, as parts of the row. -/
def borderDepth (total start firstLength secondLength : Nat) : Nat :=
  let first := 2 * start + firstLength
  let second := first + firstLength + secondLength
  ((List.range (Nat.log2 total + 2)).find? fun k =>
    (first <<< k) / total != (second <<< k) / total).getD 0

/-- A computation that can fail and keeps the patience for galloping. -/
abbrev Sorter (ε : Type) := StateT Nat (Except ε)

/-- Merges a pending run with the one behind it. -/
def mergeNeighbours (less : α → α → Except ε Bool) (first second : PendingRun α) :
    Sorter ε (PendingRun α) := do
  let (items, patience) ← merge less (← get) first.items second.items
  set patience
  return { first with items }

/-- Merges the last pending run with those in front of it, as long as their borders are deeper
than a new one.  The pending runs are listed from the last one on. -/
def mergeDeeper (less : α → α → Except ε Bool) (depth : Nat) (last : PendingRun α) :
    List (PendingRun α) → Sorter ε (List (PendingRun α))
  | [] => return [{ last with depth }]
  | before :: rest => do
    if depth < before.depth then
      mergeDeeper less depth (← mergeNeighbours less before last) rest
    else return { last with depth } :: before :: rest

/-- Adds a run that was found behind the pending ones. -/
def addRun (less : α → α → Except ε Bool) (total : Nat) (run : PendingRun α) :
    List (PendingRun α) → Sorter ε (List (PendingRun α))
  | [] => return [run]
  | last :: rest => do
    let depth := borderDepth total last.start last.items.length run.items.length
    return run :: (← mergeDeeper less depth last rest)

/-- Merges all pending runs, from the last one on.  Of three runs the middle one is merged with
the shorter of its neighbours. -/
def mergeAll (less : α → α → Except ε Bool) (last : PendingRun α) :
    List (PendingRun α) → Sorter ε (List α)
  | [] => return last.items
  | [before] => return (← mergeNeighbours less before last).items
  | middle :: before :: rest => do
    if before.items.length < last.items.length then
      mergeAll less last ((← mergeNeighbours less before middle) :: rest)
    else mergeAll less (← mergeNeighbours less middle last) (before :: rest)
termination_by runs => runs.length
decreasing_by all_goals simp

/-- Splits items into runs and merges them with the pending ones.  Every run takes an item, so as
many steps as there are items suffice. -/
def mergeRuns (less : α → α → Except ε Bool) (total : Nat) (pending : List (PendingRun α))
    (start : Nat) (items : List α) : Nat → Sorter ε (List α)
  | 0 => finish
  | steps + 1 => do
    if items.isEmpty then finish
    else
      let (run, behind) ← nextRun less (leastRun total) items
      let pending ← addRun less total ⟨start, run, 0⟩ pending
      mergeRuns less total pending (start + run.length) behind steps
where
  /-- Merges what is pending when no items are left. -/
  finish : Sorter ε (List α) :=
    match pending with
    | [] => return []
    | last :: rest => mergeAll less last rest

/-- The items in increasing order; equal items keep their order. -/
def sort (less : α → α → Except ε Bool) (items : List α) : Except ε (List α) :=
  (mergeRuns less items.length [] 0 items items.length).run' Contest.longStretch

end Mediant.Sorting
