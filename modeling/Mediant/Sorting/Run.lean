import Mediant.Sorting.Boundary

/-!
# Runs

A run is a stretch of items that is in order already: each item is at least its predecessor, or
each is less than its predecessor, in which case the run is reversed.  Strictness in the second
case keeps equal items in their order.

A run that is too short to be worth merging is made longer.  The items behind it are inserted one
by one, each at a place found by bisection, behind all items that are equal to it.
-/

namespace Mediant.Sorting

variable {ε α : Type}

/-- Splits off the longest beginning in which each item does, or does not, come before its
predecessor.  The beginning is returned reversed. -/
def takeRun (less : α → α → Except ε Bool) (descending : Bool) (run : List α) (last : α) :
    List α → Except ε (List α × List α)
  | [] => return (last :: run, [])
  | x :: rest => do
    if (← less x last) == descending then takeRun less descending (last :: run) x rest
    else return (last :: run, x :: rest)

/-- The sorted run at the beginning of the items, and the items behind it. -/
def naturalRun (less : α → α → Except ε Bool) : List α → Except ε (List α × List α)
  | [] => return ([], [])
  | [x] => return ([x], [])
  | x :: y :: rest => do
    let descending ← less y x
    let (run, behind) ← takeRun less descending [x] y rest
    return (if descending then run else run.reverse, behind)

/-- Inserts an item into sorted ones, behind all that are equal to it. -/
def insertSorted (less : α → α → Except ε Bool) (sorted : List α) (x : α) :
    Except ε (List α) := do
  let place ← bisect (fun y => not <$> less x y) sorted 0 sorted.length
  return sorted.insertIdx place x

/-- The run at the beginning of the items, made as long as `least` if there are enough items, and
the items behind it. -/
def nextRun (less : α → α → Except ε Bool) (least : Nat) (items : List α) :
    Except ε (List α × List α) := do
  let (run, behind) ← naturalRun less items
  let missing := least - run.length
  return (← (behind.take missing).foldlM (insertSorted less) run, behind.drop missing)

/-- The length up to which runs are made longer, for the given number of items: the number itself
if it is below 64, and else its six highest bits, rounded up.  Runs of this length number a power
of two, or slightly less, which is best for merging. -/
def leastRun (n : Nat) : Nat := go n false
where
  /-- Halves until the number is below 64, and counts any bit that was lost as one. -/
  go (n : Nat) (lost : Bool) : Nat :=
    if _h : n < 64 then n + lost.toNat else go (n / 2) (lost || n % 2 != 0)
  termination_by n
  decreasing_by omega

end Mediant.Sorting
