/-!
# Binary64 numbers

A number is its sixty-four bits.  The low sixty-three, the magnitude, list the nonnegative numbers
in increasing order: from zero through the finite ones up to infinity, and past infinity the codes
that stand for no number.  Every finite magnitude is a whole number of units `2 ^ (-1074)`, so that
values are compared and rounded with natural numbers only.
-/

namespace ArrowLang

/-- A binary64 number, given by its bits. -/
structure Binary64 where
  bits : UInt64
deriving DecidableEq

namespace Binary64

/-- The magnitude of infinity: finite numbers lie below it, codes of no number above it. -/
def infinityMagnitude : Nat := 0x7FF0000000000000

/-- The nonnegative number of a magnitude. -/
def ofMagnitude (magnitude : Nat) : Binary64 := ⟨UInt64.ofNat magnitude⟩

def magnitude (x : Binary64) : Nat := x.bits.toNat % Nat.pow 2 63

def isNegative (x : Binary64) : Bool := Nat.pow 2 63 ≤ x.bits.toNat

def isNaN (x : Binary64) : Bool := infinityMagnitude < x.magnitude

def isFinite (x : Binary64) : Bool := x.magnitude < infinityMagnitude

/-- The same number without its sign. -/
def abs (x : Binary64) : Binary64 := ofMagnitude x.magnitude

/-- The binary exponent of the last place, counted from `-1074`. -/
def scale (x : Binary64) : Nat := x.magnitude / Nat.pow 2 52 - 1

/-- The integer significand; a magnitude is `scale * 2 ^ 52 + significand`. -/
def significand (x : Binary64) : Nat := x.magnitude - x.scale * Nat.pow 2 52

/-- A finite absolute value in units of `2 ^ (-1074)`. -/
def units (x : Binary64) : Nat := x.significand * Nat.pow 2 x.scale

/-- Numeric equality: a code of no number differs from everything, and the two zeros are equal. -/
def numericEq (x y : Binary64) : Bool :=
  !x.isNaN && !y.isNaN && (x == y || (x.magnitude == 0 && y.magnitude == 0))

end Binary64

end ArrowLang
