/-!
# Powers of ten

The places of decimal numbers are powers of ten.  `powerOfTen` is the power with the given
exponent, and its two equations are those of any power.
-/

namespace Mediant
namespace Decimal

/-- The power of ten with the given exponent. -/
def powerOfTen (n : Nat) : Nat := Nat.pow 10 n

@[simp] theorem powerOfTen_zero : powerOfTen 0 = 1 := rfl

theorem powerOfTen_succ (n : Nat) : powerOfTen (n + 1) = powerOfTen n * 10 := rfl

theorem powerOfTen_pos (n : Nat) : 0 < powerOfTen n := Nat.pow_pos (by decide)

end Decimal
end Mediant
