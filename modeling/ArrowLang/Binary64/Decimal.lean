import ArrowLang.Binary64.Rounding

/-!
# Decimals

A decimal is written as digits with an optional fraction and never with an exponent.  Reading a
text and rounding the decimal it denotes is how number literals get their value.
-/

namespace ArrowLang

/-- The decimal `digits / 10 ^ places`. -/
structure Decimal where
  digits : Nat
  places : Nat
deriving DecidableEq

namespace Decimal

/-- The digits of the whole part, then a point and exactly `places` digits unless there are none. -/
def text (d : Decimal) : String :=
  let whole := Nat.toDigits 10 (d.digits / Nat.pow 10 d.places)
  if d.places = 0 then String.ofList whole
  else
    let fraction := (Nat.toDigits 10 (d.digits % Nat.pow 10 d.places)).leftpad d.places '0'
    String.ofList (whole ++ '.' :: fraction)

/-- Reads ASCII digits, with a point and further digits if there is a fraction. -/
def ofText? (text : String) : Option Decimal :=
  let chars := text.toList
  let whole := chars.takeWhile Char.isDigit
  match chars.dropWhile Char.isDigit with
  | [] => if whole.isEmpty then none else some ⟨Nat.ofDigitChars 10 whole 0, 0⟩
  | '.' :: fraction =>
    if whole.isEmpty || fraction.isEmpty || !fraction.all Char.isDigit then none
    else some ⟨Nat.ofDigitChars 10 (whole ++ fraction) 0, fraction.length⟩
  | _ => none

/-- The nearest binary64 number. -/
def toBinary64 (d : Decimal) : Binary64 := Binary64.ofRatio d.digits (Nat.pow 10 d.places)

end Decimal

end ArrowLang
