/-!
# Rounding of natural numbers to doubles

A double holds 53 significant binary digits. A larger natural number is taken to the nearest one
that has no more, and of two that are equally near to the one whose last digit is even.

## Main definitions

* `Rounding.toUnits` — the nearest number of units
* `Rounding.toDouble` — the nearest number of 53 significant digits
* `Rounding.overflows` — whether a number is beyond all doubles
-/

namespace EngineLink.Rounding

/-- The number of units that is nearest to `n`, the even one of two that are equally near. -/
def toUnits (n unit : Nat) : Nat :=
  let q := n / unit
  let twice := 2 * (n % unit)
  if twice < unit ∨ (twice = unit ∧ q % 2 = 0) then q else q + 1

/-- The number of 53 significant binary digits that is nearest to `n`. -/
def toDouble (n : Nat) : Nat :=
  let unit := 1 <<< (n.log2 + 1 - 53)
  toUnits n unit * unit

/-- Whether a number is beyond all doubles. It is if it lies no nearer to the largest double than to
the next power of two. -/
def overflows (n : Nat) : Bool := (1 <<< 1024) - (1 <<< 970) ≤ n

end EngineLink.Rounding
