import Mediant.Sorting.Balance
import Mediant.Value.Comparison

/-!
# Sorting values

Values are sorted by asking whether one is less than another.  Two values that have no order make
sorting fail; not-a-numbers do not, but leave the items in an order that depends on the pairs that
were compared.

The least and the greatest item are found by one pass over the items.  They compare other pairs
than sorting does, so they may fail where sorting does not, and so may the one where the other does
not.
-/

namespace Mediant
namespace Value

/-- Whether the first value is less than the second. -/
def isLess (v w : Value) : Except Fault Bool := v.holds .less w

/-- The items in increasing order; equal items keep their order. -/
def sort (items : List Value) : Except Fault (List Value) := Sorting.sort isLess items

/-- The items in decreasing order; equal items keep their order. -/
def sortDescending (items : List Value) : Except Fault (List Value) := do
  return (← sort items.reverse).reverse

/-- The first item that stands in the relation to the item chosen before it, from the first item
on. -/
def choose (r : Relation) (chosen : Value) : List Value → Except Fault Value
  | [] => return chosen
  | v :: rest => do
    if ← v.holds r chosen then choose r v rest else choose r chosen rest

/-- The first least item. -/
def minimum : List Value → Except Fault Value
  | [] => .error (.noItems "min")
  | v :: rest => choose .less v rest

/-- The first greatest item. -/
def maximum : List Value → Except Fault Value
  | [] => .error (.noItems "max")
  | v :: rest => choose .more v rest

/-- Items in both orders, and the least and greatest of them, each of which may be missing. -/
structure Arrangement where
  increasing : List Value
  decreasing : List Value
  least : Except Fault Value
  greatest : Except Fault Value

/-- Arranges items that can be sorted. -/
def arrange (items : List Value) : Except Fault Arrangement := do
  return {
    increasing := ← sort items
    decreasing := ← sortDescending items
    least := minimum items
    greatest := maximum items }

end Value
end Mediant
