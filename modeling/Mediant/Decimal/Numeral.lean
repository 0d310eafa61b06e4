import Mediant.Decimal.PowerOfTen

/-!
# Numerals

An integer is written as a numeral, and read from one, only if the numeral has at most `digitLimit`
digits.  The sign does not count, and neither do underscores between digits.
-/

namespace Mediant
namespace Decimal

/-- How many digits a numeral may have. -/
def digitLimit : Nat := 4300

/-- Whether the numeral of an integer keeps to the limit. -/
def isShort (n : Int) : Bool := n.natAbs < powerOfTen digitLimit

theorem isShort_iff (n : Int) : isShort n = true ↔ n.natAbs < powerOfTen digitLimit := by
  rw [isShort, decide_eq_true_eq]

@[simp] theorem isShort_neg (n : Int) : isShort (-n) = isShort n := by
  rw [isShort, isShort, Int.natAbs_neg]

end Decimal
end Mediant
