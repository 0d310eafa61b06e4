import Mediant.Sorting.Boundary

/-!
# Merging two runs

Two neighbouring runs are merged into one.  The items at the beginning of the first run that stay
where they are, and those at the end of the second, are set aside; what is left of the shorter run
is *held*, and its items and those of the *other* run are placed one after the other, from the
beginning if the first run is the shorter one, and else from the end.  The state of this is a
`Contest`.  Both rows of a contest begin with the item that is next in turn, so a contest from the
end has its rows reversed.

As long as neither side wins many times in a row, one item is placed at a time.  A side that wins
as often as the patience of the sorter lasts is expected to go on winning: then whole stretches are
placed, whose ends are found by galloping, until stretches become short again.  The patience is a
number that is kept from one merge to the next.  It grows when galloping is left, and shrinks while
galloping goes on.

Of two equal items the one in the first run comes first.
-/

namespace Mediant.Sorting

variable {ε α : Type}

/-- Two sorted rows on their way into one, each with its next item first. -/
structure Contest (α : Type) where
  /-- Whether the items are placed from the end. -/
  fromEnd : Bool
  /-- What is left of the shorter run. -/
  held : List α
  /-- What is left of the other run. -/
  other : List α
  /-- The items that have been placed, the latest first. -/
  placed : List α

namespace Contest

/-- A contest is over if one row is used up, or if only the last of the held items is left: it
comes behind all others, since at the start of a contest it is known to do so. -/
def isOver (c : Contest α) : Bool := c.other.isEmpty || c.held.length ≤ 1

/-- The items in order, once a contest is over. -/
def result (c : Contest α) : List α :=
  let row := c.placed.reverse ++ c.other ++ c.held
  if c.fromEnd then row.reverse else row

/-- Places the next `n` held items. -/
def placeHeld (n : Nat) (c : Contest α) : Contest α :=
  { c with held := c.held.drop n, placed := (c.held.take n).reverse ++ c.placed }

/-- Places the next `n` other items. -/
def placeOther (n : Nat) (c : Contest α) : Contest α :=
  { c with other := c.other.drop n, placed := (c.other.take n).reverse ++ c.placed }

/-- Whether an item of the other row is placed before a held one. -/
def otherWins (less : α → α → Except ε Bool) (c : Contest α) (x held : α) : Except ε Bool :=
  if c.fromEnd then less held x else less x held

/-- How many items at the beginning of a row win, found by galloping. -/
def stretch (c : Contest α) (wins : α → Except ε Bool) (row : List α) : Except ε Nat :=
  if c.fromEnd then do
    let place ← boundary (fun x => not <$> wins x) row.reverse (row.length - 1)
    return row.length - place
  else boundary wins row 0

/-- Places the held items that come before the next other one, and then that one, unless the
contest is over before.  The number is that of the held items. -/
def gallopHeld (less : α → α → Except ε Bool) (c : Contest α) : Except ε (Nat × Contest α) := do
  match c.other with
  | [] => return (0, c)
  | x :: _ =>
    let n ← c.stretch (fun y => not <$> c.otherWins less x y) c.held
    let c := c.placeHeld n
    return (n, if c.isOver then c else c.placeOther 1)

/-- Places the other items that come before the next held one, and then that one, unless the
contest is over before.  The number is that of the other items. -/
def gallopOther (less : α → α → Except ε Bool) (c : Contest α) : Except ε (Nat × Contest α) := do
  match c.held with
  | [] => return (0, c)
  | y :: _ =>
    let n ← c.stretch (fun x => c.otherWins less x y) c.other
    let c := c.placeOther n
    return (n, if c.isOver then c else c.placeHeld 1)

/-- How a contest goes on. -/
inductive Pace where
  /-- One item at a time, after so many wins in a row of either side. -/
  | single (heldWins otherWins : Nat)
  /-- By whole stretches. -/
  | galloping

/-- Stretches at least this long make galloping worth its while. -/
def longStretch : Nat := 7

/-- Places one item, and counts the wins in a row. -/
def placeOne (less : α → α → Except ε Bool) (patience heldWins otherWins : Nat)
    (c : Contest α) : Except ε (Pace × Contest α) := do
  match c.other, c.held with
  | x :: _, y :: _ =>
    if ← c.otherWins less x y then
      let wins := otherWins + 1
      return (if patience ≤ wins then .galloping else .single 0 wins, c.placeOther 1)
    else
      let wins := heldWins + 1
      return (if patience ≤ wins then .galloping else .single wins 0, c.placeHeld 1)
  | _, _ => return (.galloping, c)

/-- One round of galloping: a stretch of either run, the first run first. -/
def placeStretches (less : α → α → Except ε Bool) (c : Contest α) :
    Except ε (Bool × Contest α) := do
  let (m, c) ← if c.fromEnd then c.gallopOther less else c.gallopHeld less
  if c.isOver then return (false, c)
  let (n, c) ← if c.fromEnd then c.gallopHeld less else c.gallopOther less
  return (longStretch ≤ m || longStretch ≤ n, c)

/-- Goes on until the contest is over.  Every step places an item, so as many steps as there are
items suffice.  The answer comes with the patience that is left. -/
def settle (less : α → α → Except ε Bool) (c : Contest α) (pace : Pace) (patience : Nat) :
    Nat → Except ε (Contest α × Nat)
  | 0 => return (c, patience)
  | steps + 1 => do
    if c.isOver then return (c, patience)
    match pace with
    | .single heldWins otherWins =>
      let (pace, c) ← c.placeOne less patience heldWins otherWins
      c.settle less pace patience steps
    | .galloping =>
      let (worthwhile, c) ← c.placeStretches less
      if c.isOver then return (c, patience)
      if worthwhile then
        c.settle less .galloping (if 1 < patience then patience - 1 else patience) steps
      else c.settle less (.single 0 0) (patience + 1) steps

/-- The contest between what is left of two neighbouring runs.  The first item of the second run
is known to come before all of the first, and the last item of the first behind all of the second,
so the next other item is placed at once. -/
def start (first second : List α) : Contest α :=
  if first.length ≤ second.length then placeOther 1 ⟨false, first, second, []⟩
  else placeOther 1 ⟨true, second.reverse, first.reverse, []⟩

end Contest

/-- Merges two neighbouring runs.  The answer comes with the patience that is left. -/
def merge (less : α → α → Except ε Bool) (patience : Nat) (first second : List α) :
    Except ε (List α × Nat) := do
  let whole := first ++ second
  let some smallest := second.head? | return (whole, patience)
  let (before, first) := first.splitAt
    (← boundary (fun x => not <$> less smallest x) first 0)
  let some greatest := first.getLast? | return (whole, patience)
  let (second, behind) := second.splitAt
    (← boundary (fun x => less x greatest) second (second.length - 1))
  if second.isEmpty then return (whole, patience)
  let (contest, patience) ← (Contest.start first second).settle less (.single 0 0) patience
    (first.length + second.length)
  return (before ++ contest.result ++ behind, patience)

end Mediant.Sorting
