import ArrowLang.Binary64.Decimal

/-!
# Shortest decimals

A binary64 number is printed with the fewest digits that read back as the same number.  The grid
with exponent `n` consists of the multiples of `10 ^ (n - 1074)`.  From coarse grids to fine ones
the two grid points around the number are tried, and the first grid on which one of them reads back
gives the digits.  Every finite number lies on the grid with exponent zero.
-/

namespace ArrowLang.Binary64

/-- A finite absolute value in units of `10 ^ (-1074)`. -/
def decimalUnits (x : Binary64) : Nat := x.units * Nat.pow 5 1074

/-- The given multiple of `10 ^ (exponent - 1074)`. -/
def gridPoint (multiple exponent : Nat) : Decimal :=
  ⟨multiple * Nat.pow 10 (exponent - 1074), 1074 - exponent⟩

/-- The grid point next to the number that reads back as it: the nearer one if both do, and the
upper one on a tie. -/
def gridPoint? (x : Binary64) (exponent : Nat) : Option Decimal :=
  let value := x.decimalUnits
  let unit := Nat.pow 10 exponent
  let lower := gridPoint (value / unit) exponent
  let upper := gridPoint (value / unit + 1) exponent
  if lower.toBinary64 = x ∧ (upper.toBinary64 ≠ x ∨ 2 * (value % unit) < unit) then some lower
  else if upper.toBinary64 = x then some upper
  else none

/-- The first hit on the grids from the given exponent downwards. -/
def shortestFrom (x : Binary64) : Nat → Decimal
  | 0 => gridPoint x.decimalUnits 0
  | exponent + 1 => (gridPoint? x (exponent + 1)).getD (shortestFrom x exponent)

/-- The decimal with the fewest digits that reads back as the nonnegative finite number `x`. -/
def shortest (x : Binary64) : Decimal :=
  shortestFrom x (1074 + (Nat.toDigits 10 (x.decimalUnits / Nat.pow 10 1074)).length)

/-- The text of a number; a negative one, zero included, has a minus sign. -/
def text (x : Binary64) : String :=
  if x.isNaN then "NaN"
  else
    let sign := if x.isNegative then "-" else ""
    sign ++ if x.isFinite then (shortest x.abs).text else "inf"

end ArrowLang.Binary64
