import ArrowLang.Binary64.Shortest
import ArrowLang.Proofs.Token.Numeral
import Mathlib.Algebra.Group.Nat.Defs

/-!
# Printed numbers read back

The text of a decimal is a numeral that denotes the decimal, and the shortest decimal of a finite
nonnegative number rounds to the number.  So the text of such a number reads back as the number.  At
the finest grid the decimal is exactly the number, and rounding is the identity on the values of
numbers.
-/

namespace ArrowLang

namespace Decimal

theorem isDigits_toDigits (n : Nat) : IsDigits (Nat.toDigits 10 n) where
  ne_nil := Nat.toDigits_ne_nil
  isDigit _ hmem := Nat.isDigit_of_mem_toDigits (by decide) (by decide) hmem

theorem isDigits_leftpad {digits : List Char} (hdigits : IsDigits digits) (length : Nat) :
    IsDigits (digits.leftpad length '0') where
  ne_nil := by simp [List.leftpad, hdigits.ne_nil]
  isDigit c hmem := by
    obtain hmem | hmem := List.mem_append.mp hmem
    · obtain ⟨-, rfl⟩ := List.mem_replicate.mp hmem
      rfl
    · exact hdigits.isDigit c hmem

theorem length_leftpad_toDigits {n places : Nat} (hplaces : 0 < places) (hn : n < 10 ^ places) :
    ((Nat.toDigits 10 n).leftpad places '0').length = places := by
  have hlength := (Nat.length_toDigits_le_iff (by decide) hplaces).mpr hn
  rw [List.leftpad, List.length_append, List.length_replicate]
  omega

/-- Zeros in front of a number do not change it. -/
theorem ofDigitChars_leftpad (n places : Nat) :
    Nat.ofDigitChars 10 ((Nat.toDigits 10 n).leftpad places '0') 0 = n := by
  have hzeros : ∀ count, Nat.ofDigitChars 10 (List.replicate count '0') 0 = 0 := by
    intro count
    induction count with
    | zero => rfl
    | succ count ih => rw [List.replicate_succ, Nat.ofDigitChars_cons]; exact ih
  rw [List.leftpad, Nat.ofDigitChars_append, hzeros,
    Nat.ofDigitChars_toDigits (by decide) (by decide)]

theorem text_eq_whole {d : Decimal} (hplaces : d.places = 0) :
    d.text = String.ofList (Nat.toDigits 10 d.digits) := by
  simp [text, hplaces]

theorem text_eq_fraction {d : Decimal} (hplaces : d.places ≠ 0) :
    d.text = String.ofList (Nat.toDigits 10 (d.digits / 10 ^ d.places) ++
      '.' :: (Nat.toDigits 10 (d.digits % 10 ^ d.places)).leftpad d.places '0') := by
  simp [text, hplaces]

theorem isNumeral_text (d : Decimal) : IsNumeral d.text.toList := by
  by_cases hplaces : d.places = 0
  · rw [text_eq_whole hplaces, String.toList_ofList]
    exact .whole (isDigits_toDigits _)
  · rw [text_eq_fraction hplaces, String.toList_ofList]
    exact .fraction (isDigits_toDigits _) (isDigits_leftpad (isDigits_toDigits _) _)

/-- The text of a decimal denotes the decimal. -/
theorem ofText?_text (d : Decimal) : ofText? d.text = some d := by
  by_cases hplaces : d.places = 0
  · rw [text_eq_whole hplaces, ofText?_digits (isDigits_toDigits _),
      Nat.ofDigitChars_toDigits (by decide) (by decide), ← hplaces]
  · have hlt : d.digits % 10 ^ d.places < 10 ^ d.places :=
      Nat.mod_lt _ (Nat.pow_pos (by decide))
    have hlength := length_leftpad_toDigits (Nat.pos_of_ne_zero hplaces) hlt
    rw [text_eq_fraction hplaces, ofText?_fraction (isDigits_toDigits _)
      (isDigits_leftpad (isDigits_toDigits _) _), Nat.ofDigitChars_append,
      Nat.ofDigitChars_eq_ofDigitChars_zero, ofDigitChars_leftpad, hlength,
      Nat.ofDigitChars_toDigits (by decide) (by decide), Nat.div_add_mod]

end Decimal

namespace Binary64

theorem roundHalfEven_mul (n : Nat) {den : Nat} (hden : 0 < den) :
    roundHalfEven (n * den) den = n := by
  simp [roundHalfEven, Nat.mul_div_cancel n hden, hden]

/-- A magnitude is made of its scale and its significand. -/
theorem scale_add_significand (x : Binary64) : x.scale * 2 ^ 52 + x.significand = x.magnitude := by
  have hscale : x.scale * 2 ^ 52 ≤ x.magnitude := by
    have hquotient := Nat.div_mul_le_self x.magnitude (2 ^ 52)
    have hle := Nat.mul_le_mul_right (2 ^ 52) (Nat.sub_le (x.magnitude / 2 ^ 52) 1)
    exact Nat.le_trans hle hquotient
  exact Nat.add_sub_of_le hscale

/-- The scale of the units of a number is the scale of the number. -/
theorem scaleOfUnits_units (x : Binary64) : scaleOfUnits x.units = x.scale := by
  have hwhole := x.scale_add_significand
  have hquotient : x.scale = x.magnitude / 2 ^ 52 - 1 := rfl
  unfold scaleOfUnits units
  generalize x.scale = scale at *
  generalize x.significand = significand at *
  have hbound : significand < 2 ^ 53 := by omega
  change Nat.log2 (significand * 2 ^ scale) - 52 = scale
  by_cases hscale : scale = 0
  · subst hscale
    by_cases hzero : significand = 0
    · simp [hzero]
    · have hlog := (Nat.log2_lt hzero).mpr hbound
      rw [Nat.pow_zero, Nat.mul_one]
      omega
  · -- A number above the smallest scale has a significand of exactly fifty-three bits.
    have hnormal : 2 ^ 52 ≤ significand := by omega
    have hlog : Nat.log2 (significand * 2 ^ scale) = 52 + scale := by
      have hpos : significand * 2 ^ scale ≠ 0 :=
        Nat.mul_ne_zero (by omega) (Nat.ne_of_gt (Nat.two_pow_pos scale))
      rw [Nat.log2_eq_iff hpos, Nat.pow_add, Nat.add_right_comm, Nat.pow_add _ 53]
      exact ⟨Nat.mul_le_mul_right _ hnormal,
        Nat.mul_lt_mul_of_pos_right hbound (Nat.two_pow_pos scale)⟩
    omega

/-- Rounding is the identity on quotients that are values of numbers. -/
theorem ofRatio_eq {num den : Nat} {x : Binary64} (hden : 0 < den)
    (hvalue : num * Nat.pow 2 1074 = x.units * den) :
    ofRatio num den = ofMagnitude (min infinityMagnitude x.magnitude) := by
  have hround : roundHalfEven (x.units * den) (den * Nat.pow 2 x.scale) = x.significand := by
    have hproduct : x.units * den = x.significand * (den * Nat.pow 2 x.scale) := by
      rw [units, Nat.mul_assoc, Nat.mul_comm (Nat.pow 2 x.scale)]
    rw [hproduct]
    exact roundHalfEven_mul _ (Nat.mul_pos hden (Nat.two_pow_pos x.scale))
  unfold ofRatio
  rw [hvalue]
  dsimp only
  rw [Nat.mul_div_cancel _ hden, scaleOfUnits_units, hround]
  exact congrArg (fun magnitude ↦ ofMagnitude (min infinityMagnitude magnitude))
    x.scale_add_significand

theorem ofMagnitude_magnitude {x : Binary64} (hsign : x.isNegative = false) :
    ofMagnitude x.magnitude = x := by
  have hbits : x.bits.toNat < Nat.pow 2 63 := Nat.lt_of_not_le (of_decide_eq_false hsign)
  rw [ofMagnitude, magnitude, Nat.mod_eq_of_lt hbits, UInt64.ofNat_toNat]

/-- A decimal has no sign. -/
theorem isNegative_toBinary64 (d : Decimal) : d.toBinary64.isNegative = false := by
  unfold Decimal.toBinary64 ofRatio ofMagnitude isNegative
  refine decide_eq_false (Nat.not_le.mpr ?_)
  rw [UInt64.toNat_ofNat']
  refine Nat.lt_of_le_of_lt (Nat.mod_le _ _) ?_
  exact Nat.lt_of_le_of_lt (Nat.min_le_left _ _) (by decide)

/-- On the finest grid a finite number is exactly a grid point. -/
theorem toBinary64_gridPoint_zero {x : Binary64} (hsign : x.isNegative = false)
    (hfinite : x.isFinite) : (gridPoint x.decimalUnits 0).toBinary64 = x := by
  have hpos : ∀ n, 0 < Nat.pow 10 n := fun n ↦ Nat.pow_pos (by decide)
  have hmagnitude : x.magnitude ≤ infinityMagnitude :=
    Nat.le_of_lt (by simpa [isFinite] using hfinite)
  have hvalue : ∀ n, x.units * Nat.pow 5 n * Nat.pow 10 (0 - n) * Nat.pow 2 n =
      x.units * Nat.pow 10 n := by
    intro n
    have hproduct : Nat.pow 5 n * Nat.pow 2 n = Nat.pow 10 n := (Nat.mul_pow 5 2 n).symm
    have hone : Nat.pow 10 0 = 1 := rfl
    rw [Nat.zero_sub, hone, Nat.mul_one, Nat.mul_assoc, hproduct]
  rw [Decimal.toBinary64, gridPoint, Nat.sub_zero, decimalUnits,
    ofRatio_eq (hpos 1074) (hvalue 1074), Nat.min_eq_right hmagnitude, ofMagnitude_magnitude hsign]

theorem toBinary64_of_gridPoint? {x : Binary64} {exponent : Nat} {d : Decimal}
    (h : gridPoint? x exponent = some d) : d.toBinary64 = x := by
  unfold gridPoint? at h
  dsimp only at h
  split at h
  · rename_i hlower
    rw [Option.some.injEq] at h
    rw [← h, hlower.1]
  · split at h
    · rename_i hupper
      rw [Option.some.injEq] at h
      rw [← h, hupper]
    · cases h

/-- Whatever the first grid, the decimal that is found reads back. -/
theorem toBinary64_shortestFrom {x : Binary64} (hsign : x.isNegative = false)
    (hfinite : x.isFinite) (exponent : Nat) : (shortestFrom x exponent).toBinary64 = x := by
  induction exponent with
  | zero =>
    rw [shortestFrom]
    exact toBinary64_gridPoint_zero hsign hfinite
  | succ exponent ih =>
    rw [shortestFrom]
    cases hgrid : gridPoint? x (exponent + 1) with
    | none => exact ih
    | some d => exact toBinary64_of_gridPoint? hgrid

theorem text_eq_shortest {x : Binary64} (hsign : x.isNegative = false) (hfinite : x.isFinite) :
    x.text = (shortest x).text := by
  have hnumber : x.isNaN = false := by
    simp only [isFinite, decide_eq_true_eq] at hfinite
    simp only [isNaN, decide_eq_false_iff_not]
    omega
  rw [text, hnumber, if_neg Bool.false_ne_true, hsign, if_neg Bool.false_ne_true, if_pos hfinite,
    abs, ofMagnitude_magnitude hsign, String.empty_append]

theorem isNumeral_text {x : Binary64} (hsign : x.isNegative = false) (hfinite : x.isFinite) :
    IsNumeral x.text.toList := by
  rw [text_eq_shortest hsign hfinite]
  exact (shortest x).isNumeral_text

/-- The text of a finite number without a sign reads back as the number. -/
theorem ofText?_text {x : Binary64} (hsign : x.isNegative = false) (hfinite : x.isFinite) :
    (Decimal.ofText? x.text).map Decimal.toBinary64 = some x := by
  rw [text_eq_shortest hsign hfinite, Decimal.ofText?_text, Option.map_some]
  exact congrArg some (toBinary64_shortestFrom hsign hfinite _)

end Binary64

end ArrowLang
