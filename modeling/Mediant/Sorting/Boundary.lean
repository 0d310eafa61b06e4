/-!
# Boundaries in a row of items

A test that holds at the beginning of a row and fails from some place on divides the row at a
boundary.  The functions here look for that place by asking about as few items as they can.  The
test may fail to answer, and then the search fails; it may also answer inconsistently, and then
the place that is found depends on which items were asked about, in which order.  The places that
are asked about are therefore part of what these functions promise.

`bisect` halves the stretch between two places.  `boundary` starts from a place that is given as a
hint and goes away from it in growing strides, to the distances 1, 3, 7, 15 and so on, until the
test changes its answer; then it bisects between the last two places.
-/

namespace Mediant.Sorting

variable {ε α : Type}

/-- The boundary between the places `low` and `high`, found by halving. -/
def bisect (isFront : α → Except ε Bool) (row : List α) (low high : Nat) : Except ε Nat :=
  if _h : low < high then
    let middle := low + (high - low) / 2
    match row[middle]? with
    | none => .ok low
    | some x =>
      match isFront x with
      | .error e => .error e
      | .ok true => bisect isFront row (middle + 1) high
      | .ok false => bisect isFront row low middle
  else .ok low
termination_by high - low
decreasing_by all_goals omega

/-- Goes to distances that double and grow by one, as long as `goesOn` holds there and the limit
is not reached.  The answer is the last distance at which it held, and the first one at which it
did not or which the limit allows no more. -/
def gallop (goesOn : Nat → Except ε Bool) (limit near far : Nat) : Except ε (Nat × Nat) :=
  if _h : far < limit then
    match goesOn far with
    | .error e => .error e
    | .ok true => gallop goesOn limit far (2 * far + 1)
    | .ok false => .ok (near, far)
  else .ok (near, limit)
termination_by limit - far
decreasing_by omega

/-- The boundary of a row, searched from the hint. -/
def boundary (isFront : α → Except ε Bool) (row : List α) (hint : Nat) : Except ε Nat := do
  let test (place : Nat) : Except ε Bool :=
    match row[place]? with
    | some x => isFront x
    | none => .ok false
  if ← test hint then
    let (near, far) ← gallop (fun distance => test (hint + distance)) (row.length - hint) 0 1
    bisect isFront row (hint + near + 1) (hint + far)
  else
    let (near, far) ← gallop (fun distance => not <$> test (hint - distance)) (hint + 1) 0 1
    bisect isFront row (hint + 1 - far) (hint - near)

end Mediant.Sorting
