import ArrowLang.Binary64.Decimal
import ArrowLang.Token.Lexer

/-!
# Numerals

A numeral is a run of digits, with a point and another run of digits or without.  The texts that are
scanned as numbers are numerals, every numeral denotes a decimal, and a numeral before a text that
does not continue it is scanned whole.
-/

namespace ArrowLang

/-- The text does not start with a character of the class. -/
def Stops (p : Char → Bool) (rest : List Char) : Prop := ∀ c ∈ rest.head?, p c = false

namespace Stops

variable {p : Char → Bool} {run rest : List Char} {c : Char}

theorem nil : Stops p [] := nofun

theorem cons (hc : p c = false) : Stops p (c :: rest) := by
  intro c' hmem
  obtain rfl : c = c' := by simpa using hmem
  exact hc

theorem takeWhile_eq_nil (h : Stops p rest) : rest.takeWhile p = [] := by
  cases rest with
  | nil => rfl
  | cons c rest => exact List.takeWhile_cons_of_neg (by simp [h c rfl])

theorem dropWhile_eq_self (h : Stops p rest) : rest.dropWhile p = rest := by
  cases rest with
  | nil => rfl
  | cons c rest => exact List.dropWhile_cons_of_neg (by simp [h c rfl])

/-- A run before a text that does not continue it is the longest one. -/
theorem takeWhile_append (h : Stops p rest) (hrun : ∀ c ∈ run, p c) :
    (run ++ rest).takeWhile p = run := by
  rw [List.takeWhile_append_of_pos hrun, h.takeWhile_eq_nil, List.append_nil]

theorem dropWhile_append (h : Stops p rest) (hrun : ∀ c ∈ run, p c) :
    (run ++ rest).dropWhile p = rest := by
  rw [List.dropWhile_append_of_pos hrun, h.dropWhile_eq_self]

end Stops

/-- At least one character, all of them digits. -/
structure IsDigits (digits : List Char) : Prop where
  ne_nil : digits ≠ []
  isDigit : ∀ c ∈ digits, c.isDigit

inductive IsNumeral : List Char → Prop
  | whole {digits : List Char} (hdigits : IsDigits digits) : IsNumeral digits
  | fraction {digits fraction : List Char} (hdigits : IsDigits digits)
      (hfraction : IsDigits fraction) : IsNumeral (digits ++ '.' :: fraction)

theorem IsNumeral.exists_cons {chars : List Char} (hchars : IsNumeral chars) :
    ∃ c rest, chars = c :: rest ∧ c.isDigit := by
  cases hchars with
  | whole hdigits | fraction hdigits =>
    obtain ⟨c, rest, rfl⟩ := List.exists_cons_of_ne_nil hdigits.ne_nil
    exact ⟨c, _, rfl, hdigits.isDigit c List.mem_cons_self⟩

namespace Decimal

theorem ofText?_digits {digits : List Char} (hdigits : IsDigits digits) :
    ofText? (String.ofList digits) = some ⟨Nat.ofDigitChars 10 digits 0, 0⟩ := by
  have htake := Stops.nil.takeWhile_append hdigits.isDigit
  have hdrop := Stops.nil.dropWhile_append hdigits.isDigit
  rw [List.append_nil] at htake hdrop
  simp [ofText?, htake, hdrop, hdigits.ne_nil]

theorem ofText?_fraction {digits fraction : List Char} (hdigits : IsDigits digits)
    (hfraction : IsDigits fraction) :
    ofText? (String.ofList (digits ++ '.' :: fraction)) =
      some ⟨Nat.ofDigitChars 10 (digits ++ fraction) 0, fraction.length⟩ := by
  have hpoint : Stops Char.isDigit ('.' :: fraction) := .cons rfl
  have htake := hpoint.takeWhile_append hdigits.isDigit
  have hdrop := hpoint.dropWhile_append hdigits.isDigit
  have hall : fraction.all Char.isDigit := List.all_eq_true.mpr hfraction.isDigit
  simp [ofText?, htake, hdrop, hdigits.ne_nil, hfraction.ne_nil, hall]

/-- Every numeral denotes a decimal. -/
theorem isSome_ofText? {chars : List Char} (hchars : IsNumeral chars) :
    (ofText? (String.ofList chars)).isSome := by
  cases hchars with
  | whole hdigits => rw [ofText?_digits hdigits]; rfl
  | fraction hdigits hfraction => rw [ofText?_fraction hdigits hfraction]; rfl

end Decimal

namespace Token

/-- A number is scanned as a numeral. -/
theorem isNumeral_spanNumber {c : Char} (chars : List Char) (hc : c.isDigit) :
    IsNumeral (spanNumber (c :: chars)).1 := by
  have hwhole : IsDigits ((c :: chars).takeWhile Char.isDigit) := by
    refine ⟨?_, fun c' hmem ↦ List.all_eq_true.mp List.all_takeWhile c' hmem⟩
    rw [List.takeWhile_cons_of_pos hc]
    exact List.cons_ne_nil _ _
  unfold spanNumber
  split
  · rename_i digit rest hdrop
    split
    · rename_i hdigit
      refine .fraction hwhole ⟨List.cons_ne_nil _ _, fun c' hmem ↦ ?_⟩
      obtain rfl | hmem := List.mem_cons.mp hmem
      · exact hdigit
      · exact List.all_eq_true.mp List.all_takeWhile c' hmem
    · exact .whole hwhole
  · exact .whole hwhole

/-- A numeral is scanned whole before a text that starts with neither a digit nor a point. -/
theorem spanNumber_append_of_isNumeral {chars rest : List Char} (hchars : IsNumeral chars)
    (hrest : Stops (fun c ↦ c.isDigit || c == '.') rest) :
    spanNumber (chars ++ rest) = (chars, rest) := by
  have hstop : Stops Char.isDigit rest := fun c hmem ↦ (Bool.or_eq_false_iff.mp (hrest c hmem)).1
  cases hchars with
  | whole hdigits =>
    rw [spanNumber, hstop.takeWhile_append hdigits.isDigit, hstop.dropWhile_append hdigits.isDigit]
    split
    · rename_i digit rest
      have hpoint := hrest '.' rfl
      cases hpoint
    · rfl
  | @fraction digits fraction hdigits hfraction =>
    have hpoint : Stops Char.isDigit ('.' :: (fraction ++ rest)) := .cons rfl
    rw [List.append_assoc, List.cons_append, spanNumber, hpoint.takeWhile_append hdigits.isDigit,
      hpoint.dropWhile_append hdigits.isDigit]
    obtain ⟨digit, others, rfl⟩ := List.exists_cons_of_ne_nil hfraction.ne_nil
    have hdigit := hfraction.isDigit digit List.mem_cons_self
    have hothers : ∀ c ∈ others, c.isDigit := fun c hmem ↦
      hfraction.isDigit c (List.mem_cons_of_mem _ hmem)
    simp [hdigit, hstop.takeWhile_append hothers, hstop.dropWhile_append hothers]

end Token

end ArrowLang
