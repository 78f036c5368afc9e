import ArrowLang.Binary64.Basic

/-!
# Rounding to binary64

A quotient of natural numbers is rounded to the nearest binary64 number, a tie to the even
significand.  The scale is the least one at which the significand has at most fifty-three bits; a
significand that rounds up to fifty-four bits carries into the scale by itself, because magnitudes
are consecutive.
-/

namespace ArrowLang.Binary64

/-- The quotient rounded to the nearest natural number, a tie to the even one. -/
def roundHalfEven (num den : Nat) : Nat :=
  let below := num / den
  let rest := num % den
  if 2 * rest < den ∨ (2 * rest = den ∧ below % 2 = 0) then below else below + 1

/-- The scale at which so many units of `2 ^ (-1074)` have a significand of at most 53 bits. -/
def scaleOfUnits (units : Nat) : Nat := Nat.log2 units - 52

/-- The binary64 number nearest to `num / den`; quotients past the finite numbers give infinity. -/
def ofRatio (num den : Nat) : Binary64 :=
  let units := num * Nat.pow 2 1074
  let scale := scaleOfUnits (units / den)
  let significand := roundHalfEven units (den * Nat.pow 2 scale)
  ofMagnitude (min infinityMagnitude (scale * Nat.pow 2 52 + significand))

end ArrowLang.Binary64
