import ArrowLang.Proofs.Grammar.Completeness
import ArrowLang.Proofs.Grammar.Soundness
import ArrowLang.Proofs.Token.Lexing

/-!
# The parser decides the grammar

A text is a program if and only if its sentence has a derivation, and the derivation is then the
only one.  Parsing gives the term of that derivation, or refuses its nesting.
-/

namespace ArrowLang

open Grammar Parsing
open Token (sentence)

/-- What a terminal of a text may be. -/
theorem isLexeme_sentence {chars : List Char} {terminal : Terminal}
    (hmem : terminal ∈ sentence chars) :
    terminal.kind.isMark ∨ Token.IsLexeme terminal.kind terminal.text.toList := by
  obtain ⟨token, htoken, rfl⟩ := List.mem_map.mp hmem
  have hlexeme := Token.Cursor.isLexeme_tokens chars .start token htoken
  by_cases hmark : token.kind.isMark
  · exact .inl hmark
  · exact .inr (by simpa [Token.terminal, hmark] using hlexeme)

theorem isNumeral_of_mem_sentence {chars : List Char} {lexeme : String}
    (hmem : .number lexeme ∈ sentence chars) : IsNumeral lexeme.toList := by
  obtain hmark | hlexeme := isLexeme_sentence hmem
  · cases hmark
  · exact hlexeme

theorem wellFormed_ofString (source : String) : (State.ofString source).WellFormed where
  finish_kind := rfl
  ahead_kind terminal hmem hkind := by
    obtain hmark | hlexeme := isLexeme_sentence hmem
    · rw [hkind] at hmark
      cases hmark
    · rw [hkind] at hlexeme
      exact hlexeme
  numerals lexeme hmem := by
    have hlexeme := Decimal.isSome_ofText? (isNumeral_of_mem_sentence hmem)
    rwa [String.ofList_toList] at hlexeme

variable {source : String}

theorem parse_eq_ok {term : Term} {t : State}
    (h : program .basic (State.ofString source) = .ok term t) : parse source = .ok term := by
  simp [parse, Session.parse, Session.run, Session.ofString, h]

theorem parse_eq_error {error : ParseError} {t : State}
    (h : program .basic (State.ofString source) = .error error t) :
    parse source = .error error := by
  simp [parse, Session.parse, Session.run, Session.ofString, h]

/-- The accepted texts and their terms. -/
theorem parse_eq_ok_iff {term : Term} :
    parse source = .ok term ↔ ∃ d : Derivation .program,
      d.Derives (sentence source.toList) ∧ d.depth ≤ nestingLimit ∧ d.term = term := by
  constructor
  · intro h
    cases hrun : program .basic (State.ofString source) with
    | error error t =>
      rw [parse_eq_error hrun] at h
      cases h
    | ok term' t =>
      rw [parse_eq_ok hrun] at h
      cases h
      exact derives_program (wellFormed_ofString source) hrun
  · rintro ⟨d, hd, hdepth, rfl⟩
    obtain ⟨-, term, t, hrun⟩ | ⟨hdeep, -⟩ := program_of_derives (wellFormed_ofString source) hd
    · -- The run has a derivation too, which can only be `d`.
      obtain ⟨d', hd', -, rfl⟩ := derives_program (wellFormed_ofString source) hrun
      rw [hd.unique hd']
      exact parse_eq_ok hrun
    · exact absurd hdepth hdeep

theorem parse_of_too_deep {d : Derivation .program} (hd : d.Derives (sentence source.toList))
    (hdepth : nestingLimit < d.depth) :
    ∃ position, parse source = .error ⟨.nestingTooDeep, position⟩ := by
  obtain ⟨hfits, -⟩ | ⟨-, position, t, hrun⟩ :=
    program_of_derives (wellFormed_ofString source) hd
  · exact absurd hdepth (Nat.not_lt.mpr hfits)
  · exact ⟨position, parse_eq_error hrun⟩

/-- Parsing decides the grammar: a text has at most one derivation, parsing gives its term within
the nesting limit and refuses its nesting beyond, and a text without a derivation is refused. -/
theorem parse_decides_grammar (source : String) :
    (∀ d d' : Derivation .program,
      d.Derives (sentence source.toList) → d'.Derives (sentence source.toList) → d = d') ∧
    (∀ d : Derivation .program, d.Derives (sentence source.toList) → d.depth ≤ nestingLimit →
      parse source = .ok d.term) ∧
    (∀ d : Derivation .program, d.Derives (sentence source.toList) → nestingLimit < d.depth →
      ∃ position, parse source = .error ⟨.nestingTooDeep, position⟩) ∧
    ((¬∃ d : Derivation .program, d.Derives (sentence source.toList)) →
      ∃ error, parse source = .error error) := by
  refine ⟨fun d d' hd hd' ↦ hd.unique hd', fun d hd hdepth ↦ ?_,
    fun d hd hdepth ↦ parse_of_too_deep hd hdepth, fun hnone ↦ ?_⟩
  · exact parse_eq_ok_iff.mpr ⟨d, hd, hdepth, rfl⟩
  · cases hparse : parse source with
    | error error => exact ⟨error, rfl⟩
    | ok term =>
      obtain ⟨d, hd, -⟩ := parse_eq_ok_iff.mp hparse
      exact absurd ⟨d, hd⟩ hnone

end ArrowLang
