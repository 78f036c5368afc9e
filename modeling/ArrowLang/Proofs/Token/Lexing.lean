import ArrowLang.Proofs.Grammar.Derivation
import ArrowLang.Proofs.Token.Numeral

/-!
# The sentence of a text

The terminals of a text do not depend on where the text stands.  A blank before a text adds nothing
to its sentence, and a lexeme adds one terminal if what follows does not continue the lexeme.
-/

namespace ArrowLang.Token

open Grammar

/-- A word that is not a keyword. -/
inductive IsName : List Char → Prop
  | intro {c : Char} {chars : List Char} (hstart : isIdentStart c)
      (hpart : ∀ c ∈ chars, isIdentPart c) (hkind : wordKind (c :: chars) = .ident) :
      IsName (c :: chars)

theorem isIdentPart_of_isIdentStart {c : Char} (h : isIdentStart c) : isIdentPart c := by
  simp only [isIdentStart, isIdentPart, Bool.or_eq_true] at h ⊢
  obtain (halphabetic | hunderscore) | hdollar := h
  · exact .inl (.inl (.inl halphabetic))
  · exact .inl (.inr hunderscore)
  · exact .inr hdollar

/-- The lexemes of a kind, for the kinds that have more than one. -/
def IsLexeme : TokenKind → List Char → Prop
  | .number, chars => IsNumeral chars
  | .ident, chars => IsName chars
  | .endOfInput, _ => False
  | _, _ => True

theorem isLexeme_of_isMark {kind : TokenKind} (hkind : kind.isMark) (chars : List Char) :
    IsLexeme kind chars := by
  cases kind <;> trivial

theorem isMark_of_punctuation {c : Char} {kind : TokenKind} (h : punctuation? c = some kind) :
    kind.isMark := by
  unfold punctuation? at h
  split at h <;> cases h <;> rfl

theorem isLexeme_word {c : Char} {chars : List Char} (hstart : isIdentStart c)
    (hpart : ∀ c ∈ chars, isIdentPart c) : IsLexeme (wordKind (c :: chars)) (c :: chars) := by
  cases hkind : wordKind (c :: chars) with
  | ident => exact .intro hstart hpart hkind
  | boolean | const => trivial
  | _ =>
    unfold wordKind at hkind
    repeat' split at hkind
    all_goals cases hkind

/-- Every token has a lexeme of its kind, and none has the kind of the end token. -/
theorem isLexeme_scan (c : Char) (chars : List Char) :
    IsLexeme (scan c chars).kind (scan c chars).lexeme := by
  unfold scan
  split
  · rename_i kind hkind
    exact isLexeme_of_isMark (isMark_of_punctuation hkind) _
  · split
    · split <;> trivial
    · split
      · rename_i hdigit
        exact isNumeral_spanNumber chars hdigit
      · split
        · rename_i hstart
          exact isLexeme_word hstart fun c' hmem ↦ List.all_eq_true.mp List.all_takeWhile c' hmem
        · trivial

theorem spanGap_blank {c : Char} (hc : isBlank c) (chars : List Char) :
    spanGap false (c :: chars) = (c :: (spanGap false chars).1, (spanGap false chars).2) := by
  rw [spanGap, if_pos hc]

/-- Where no gap starts, nothing is skipped. -/
theorem spanGap_eq_self {c : Char} {chars : List Char} (hblank : isBlank c = false)
    (hslash : c = '/' → chars.head? ≠ some '/') :
    spanGap false (c :: chars) = ([], c :: chars) := by
  rw [spanGap, if_neg (by simp [hblank]), if_neg]
  rw [Bool.and_eq_true, beq_iff_eq, beq_iff_eq]
  exact fun h ↦ hslash h.1 h.2

namespace Cursor

theorem next?_eq_none {chars : List Char} (p : Position) (hgap : (spanGap false chars).2 = []) :
    (Cursor.mk chars p).next? = none := by
  simp [next?, hgap]

/-- The first token stands where the gap before it ends, and its lexeme is behind the cursor. -/
theorem next?_eq_some {c : Char} {chars rest : List Char} (p : Position)
    (hgap : (spanGap false chars).2 = c :: rest) :
    (Cursor.mk chars p).next? = some
      (⟨(scan c rest).kind, String.ofList (scan c rest).lexeme, p.after (spanGap false chars).1⟩,
        ⟨(scan c rest).rest, (p.after (spanGap false chars).1).after (scan c rest).lexeme⟩) := by
  simp [next?, hgap]

theorem tokens_of_next?_none {cursor : Cursor} (hnext : cursor.next? = none) :
    cursor.tokens = [] := by
  rw [tokens]
  split
  · rfl
  · rename_i hsome
    rw [hnext] at hsome
    cases hsome

theorem tokens_of_next?_some {cursor after : Cursor} {token : Token}
    (hnext : cursor.next? = some (token, after)) : cursor.tokens = token :: after.tokens := by
  rw [tokens]
  split
  · rename_i hnone
    rw [hnext] at hnone
    cases hnone
  · rename_i hsome
    rw [hnext] at hsome
    cases hsome
    rfl

theorem scan_of_next? {cursor after : Cursor} {token : Token}
    (hnext : cursor.next? = some (token, after)) :
    ∃ c rest, (spanGap false cursor.rest).2 = c :: rest ∧ token.kind = (scan c rest).kind ∧
      after = ⟨(scan c rest).rest,
        (cursor.position.after (spanGap false cursor.rest).1).after (scan c rest).lexeme⟩ := by
  cases hgap : (spanGap false cursor.rest).2 with
  | nil =>
    rw [next?_eq_none cursor.position hgap] at hnext
    cases hnext
  | cons c rest =>
    rw [next?_eq_some cursor.position hgap] at hnext
    cases hnext
    exact ⟨c, rest, rfl, rfl, rfl⟩

/-- The end token is none of the tokens. -/
theorem kind_ne_endOfInput_of_next? {cursor after : Cursor} {token : Token}
    (hnext : cursor.next? = some (token, after)) : token.kind ≠ .endOfInput := by
  obtain ⟨c, rest, -, hkind, -⟩ := scan_of_next? hnext
  have hlexeme := isLexeme_scan c rest
  intro hend
  rw [← hkind, hend] at hlexeme
  exact hlexeme

/-- Every step leads towards the same end of the text. -/
theorem finish_of_next? {cursor after : Cursor} {token : Token}
    (hnext : cursor.next? = some (token, after)) : after.finish = cursor.finish := by
  obtain ⟨c, rest, hgap, -, rfl⟩ := scan_of_next? hnext
  have hwhole : (spanGap false cursor.rest).1 ++ ((scan c rest).lexeme ++ (scan c rest).rest) =
      cursor.rest := by
    rw [scan_append, ← hgap, spanGap_append]
  have hposition := congrArg cursor.position.after hwhole
  rw [Position.after_append, Position.after_append] at hposition
  rw [finish, finish, hposition]

theorem tokens_eq_nil {chars : List Char} (p : Position) (hgap : (spanGap false chars).2 = []) :
    (Cursor.mk chars p).tokens = [] :=
  tokens_of_next?_none (next?_eq_none p hgap)

/-- The other tokens follow the lexeme of the first one. -/
theorem tokens_eq_cons_after {c : Char} {chars rest : List Char} (p : Position)
    (hgap : (spanGap false chars).2 = c :: rest) :
    (Cursor.mk chars p).tokens =
      ⟨(scan c rest).kind, String.ofList (scan c rest).lexeme, p.after (spanGap false chars).1⟩ ::
        (Cursor.mk (scan c rest).rest
          ((p.after (spanGap false chars).1).after (scan c rest).lexeme)).tokens :=
  tokens_of_next?_some (next?_eq_some p hgap)

theorem tokens_eq_cons {c : Char} {chars rest : List Char} (p : Position)
    (hgap : (spanGap false chars).2 = c :: rest) :
    ∃ q q', (Cursor.mk chars p).tokens =
      ⟨(scan c rest).kind, String.ofList (scan c rest).lexeme, q⟩ ::
        (Cursor.mk (scan c rest).rest q').tokens :=
  ⟨_, _, tokens_eq_cons_after p hgap⟩

/-- What holds of a gap, and of a text if it holds of what follows the first token, holds of every
text. -/
theorem text_induction {P : List Char → Prop}
    (hgap : ∀ chars, (spanGap false chars).2 = [] → P chars)
    (htoken : ∀ chars c rest, (spanGap false chars).2 = c :: rest → P (scan c rest).rest → P chars)
    (chars : List Char) : P chars := by
  induction hlength : chars.length using Nat.strongRecOn generalizing chars with
  | ind length ih =>
    cases hspan : (spanGap false chars).2 with
    | nil => exact hgap chars hspan
    | cons c rest =>
      have hwhole := congrArg List.length (spanGap_append false chars)
      have hshorter := scan_rest_length_le c rest
      simp only [hspan, List.length_append, List.length_cons] at hwhole
      exact htoken chars c rest hspan (ih _ (by omega) _ rfl)

/-- What `P` says of the text before each token it says of every token. -/
theorem tokens_induction {P : List Char → List Token → Prop}
    (hnil : ∀ chars, (spanGap false chars).2 = [] → P chars [])
    (hcons : ∀ chars c rest q tokens, (spanGap false chars).2 = c :: rest →
      P (scan c rest).rest tokens →
      P chars (⟨(scan c rest).kind, String.ofList (scan c rest).lexeme, q⟩ :: tokens))
    (chars : List Char) (p : Position) : P chars (Cursor.mk chars p).tokens := by
  refine text_induction (P := fun chars ↦ ∀ p, P chars (Cursor.mk chars p).tokens) ?_ ?_ chars p
  · intro chars hgap p
    rw [tokens_eq_nil p hgap]
    exact hnil chars hgap
  · intro chars c rest hgap ih p
    obtain ⟨q, q', htokens⟩ := tokens_eq_cons p hgap
    rw [htokens]
    exact hcons chars c rest q _ hgap (ih q')

theorem isLexeme_tokens (chars : List Char) (p : Position) :
    ∀ token ∈ (Cursor.mk chars p).tokens, IsLexeme token.kind token.lexeme.toList := by
  refine tokens_induction (P := fun _ tokens ↦
    ∀ token ∈ tokens, IsLexeme token.kind token.lexeme.toList) (fun _ _ ↦ nofun) ?_ chars p
  intro chars c rest q tokens hgap ih token hmem
  obtain rfl | hmem := List.mem_cons.mp hmem
  · simpa using isLexeme_scan c rest
  · exact ih token hmem

end Cursor

/-! ## Sentences -/

/-- The terminals of a text. -/
def sentence (chars : List Char) : List Terminal :=
  (Cursor.mk chars .start).tokens.map Token.terminal

def Scanned.terminal (scanned : Scanned) : Terminal :=
  ⟨scanned.kind, if scanned.kind.isMark then "" else String.ofList scanned.lexeme⟩

/-- The terminals of a text are the same wherever it stands. -/
theorem map_terminal_tokens (chars : List Char) (p q : Position) :
    (Cursor.mk chars p).tokens.map Token.terminal =
      (Cursor.mk chars q).tokens.map Token.terminal := by
  refine Cursor.tokens_induction (P := fun chars tokens ↦ ∀ q,
    tokens.map Token.terminal = (Cursor.mk chars q).tokens.map Token.terminal) ?_ ?_ chars p q
  · intro chars hgap q
    rw [Cursor.tokens_eq_nil q hgap]
  · intro chars c rest p' tokens hgap ih q
    obtain ⟨q', q'', htokens⟩ := Cursor.tokens_eq_cons q hgap
    rw [htokens, List.map_cons, List.map_cons, ih q'']
    rfl

theorem sentence_of_gap_nil {chars : List Char} (hgap : (spanGap false chars).2 = []) :
    sentence chars = [] := by
  rw [sentence, Cursor.tokens_eq_nil _ hgap]
  rfl

@[simp]
theorem sentence_nil : sentence [] = [] := sentence_of_gap_nil rfl

theorem sentence_of_gap {c : Char} {chars rest : List Char}
    (hgap : (spanGap false chars).2 = c :: rest) :
    sentence chars = (scan c rest).terminal :: sentence (scan c rest).rest := by
  obtain ⟨q, q', htokens⟩ := Cursor.tokens_eq_cons .start hgap
  rw [sentence, htokens, List.map_cons, map_terminal_tokens _ q' .start]
  rfl

variable {c : Char} {chars rest : List Char}

theorem sentence_blank (hc : isBlank c) : sentence (c :: chars) = sentence chars := by
  have hgap : (spanGap false (c :: chars)).2 = (spanGap false chars).2 := by
    rw [spanGap_blank hc]
  cases hrest : (spanGap false chars).2 with
  | nil => rw [sentence_of_gap_nil hrest, sentence_of_gap_nil (hgap.trans hrest)]
  | cons c' rest => rw [sentence_of_gap hrest, sentence_of_gap (hgap.trans hrest)]

@[simp]
theorem sentence_space : sentence (' ' :: chars) = sentence chars := sentence_blank rfl

/-- A text that starts with neither a blank nor a slash starts with a token. -/
theorem sentence_scan (hblank : isBlank c = false) (hslash : c ≠ '/') :
    sentence (c :: chars) = (scan c chars).terminal :: sentence (scan c chars).rest := by
  refine sentence_of_gap ?_
  rw [spanGap_eq_self hblank fun hc ↦ absurd hc hslash]

theorem sentence_punctuation {kind : TokenKind} (hkind : punctuation? c = some kind) :
    sentence (c :: chars) = .mark kind :: sentence chars := by
  have hmark := isMark_of_punctuation hkind
  have hstart : isBlank c = false ∧ c ≠ '/' := by
    unfold punctuation? at hkind
    split at hkind <;> first | decide | cases hkind
  rw [sentence_scan hstart.1 hstart.2, scan, hkind]
  simp [Scanned.terminal, hmark, Terminal.mark]

@[simp]
theorem sentence_leftParen : sentence ('(' :: chars) = .mark .leftParen :: sentence chars :=
  sentence_punctuation rfl

@[simp]
theorem sentence_rightParen : sentence (')' :: chars) = .mark .rightParen :: sentence chars :=
  sentence_punctuation rfl

@[simp]
theorem sentence_comma : sentence (',' :: chars) = .mark .comma :: sentence chars :=
  sentence_punctuation rfl

@[simp]
theorem sentence_semicolon : sentence (';' :: chars) = .mark .semicolon :: sentence chars :=
  sentence_punctuation rfl

@[simp]
theorem sentence_colon : sentence (':' :: chars) = .mark .colon :: sentence chars :=
  sentence_punctuation rfl

@[simp]
theorem sentence_question : sentence ('?' :: chars) = .mark .question :: sentence chars :=
  sentence_punctuation rfl

@[simp]
theorem sentence_plus : sentence ('+' :: chars) = .mark .plus :: sentence chars :=
  sentence_punctuation rfl

@[simp]
theorem sentence_arrow : sentence ('=' :: '>' :: chars) = .mark .arrow :: sentence chars := by
  rw [sentence_scan (by decide) (by decide)]
  rfl

@[simp]
theorem sentence_equals_space :
    sentence ('=' :: ' ' :: chars) = .mark .equals :: sentence chars := by
  rw [sentence_scan (by decide) (by decide)]
  exact congrArg (Terminal.mark .equals :: ·) sentence_space

/-- Characters below the letters that are no dollar sign start no word. -/
theorem isIdentStart_eq_false (hc : c.toNat < 0x41) (hdollar : c ≠ '$') :
    isIdentStart c = false := by
  have hunderscore : c ≠ '_' := by
    rintro rfl
    exact absurd hc (by decide)
  have hranges : Text.alphabeticRanges = (0x41, 0x5A) :: Text.alphabeticRanges.tail := rfl
  have halphabetic : Text.isAlphabetic c = false := by
    rw [Text.isAlphabetic, hranges, Text.inRanges, decide_eq_false (by omega), Bool.false_and]
  simp [isIdentStart, halphabetic, hunderscore, hdollar]

/-- A digit starts no word. -/
theorem isDigit_eq_false (hstart : isIdentStart c) : c.isDigit = false := by
  refine Bool.eq_false_iff.mpr fun hdigit ↦ ?_
  have hbounds : 0x30 ≤ c.toNat ∧ c.toNat ≤ 0x39 := by
    rw [Char.isDigit, Bool.and_eq_true, decide_eq_true_eq, decide_eq_true_eq] at hdigit
    exact ⟨UInt32.le_iff_toNat_le.mp hdigit.1, UInt32.le_iff_toNat_le.mp hdigit.2⟩
  have hdollar : c ≠ '$' := by
    rintro rfl
    exact absurd hbounds (by decide)
  rw [isIdentStart_eq_false (by omega) hdollar] at hstart
  cases hstart

/-- The characters of blanks, comments and punctuation, none of which starts a word or a number. -/
def signs : List Char := [' ', '\t', '\r', '\n', '/', '=', '(', ')', ',', ';', ':', '?', '+']

theorem isBlank_eq_false (hc : c ∉ signs) : isBlank c = false := by
  refine Bool.eq_false_iff.mpr fun hblank ↦ hc ?_
  simp only [isBlank, Bool.or_eq_true, beq_iff_eq] at hblank
  obtain ((rfl | rfl) | rfl) | rfl := hblank <;> decide

theorem punctuation_eq_none (hc : c ∉ signs) : punctuation? c = none := by
  unfold punctuation?
  split <;> first | rfl | exact absurd (by decide) hc

/-- A text that starts with no sign starts with a word, a number or an unknown character. -/
theorem sentence_of_not_mem_signs (hc : c ∉ signs) :
    sentence (c :: chars) = (scan c chars).terminal :: sentence (scan c chars).rest := by
  refine sentence_scan (isBlank_eq_false hc) ?_
  rintro rfl
  exact hc (by decide)

theorem scan_of_not_mem_signs (hc : c ∉ signs) :
    scan c chars =
      if c.isDigit then ⟨.number, (spanNumber (c :: chars)).1, (spanNumber (c :: chars)).2⟩
      else if isIdentStart c then
        ⟨wordKind (c :: chars.takeWhile isIdentPart), c :: chars.takeWhile isIdentPart,
          chars.dropWhile isIdentPart⟩
      else ⟨.unknown, [c], chars⟩ := by
  have hequals : c ≠ '=' := by
    rintro rfl
    exact hc (by decide)
  rw [scan, punctuation_eq_none hc]
  dsimp only
  rw [if_neg hequals]

theorem sentence_word (hstart : isIdentStart c) (hpart : ∀ c ∈ chars, isIdentPart c)
    (hrest : Stops isIdentPart rest) :
    sentence (c :: chars ++ rest) =
      Scanned.terminal ⟨wordKind (c :: chars), c :: chars, rest⟩ :: sentence rest := by
  have hsign : c ∉ signs := by
    intro hmem
    have hsigns : signs.any isIdentStart = false := by decide
    exact List.any_eq_false.mp hsigns c hmem hstart
  rw [List.cons_append, sentence_of_not_mem_signs hsign, scan_of_not_mem_signs hsign,
    if_neg (by simp [isDigit_eq_false hstart]), if_pos hstart, hrest.takeWhile_append hpart,
    hrest.dropWhile_append hpart]

theorem sentence_name {name : String} (hname : IsName name.toList)
    (hrest : Stops isIdentPart rest) :
    sentence (name.toList ++ rest) = .ident name :: sentence rest := by
  rw [← String.ofList_toList (s := name)]
  generalize name.toList = chars at hname
  cases hname with
  | intro hstart hpart hkind =>
    rw [String.toList_ofList, sentence_word hstart hpart hrest, hkind]
    rfl

theorem sentence_boolean (value : Bool) (hrest : Stops isIdentPart rest) :
    sentence ((if value then "true" else "false").toList ++ rest) =
      .mark (.boolean value) :: sentence rest := by
  cases value with
  | true =>
    have hpart : ['r', 'u', 'e'].all isIdentPart := by decide
    exact sentence_word (c := 't') (by decide) (List.all_eq_true.mp hpart) hrest
  | false =>
    have hpart : ['a', 'l', 's', 'e'].all isIdentPart := by decide
    exact sentence_word (c := 'f') (by decide) (List.all_eq_true.mp hpart) hrest

@[simp]
theorem sentence_const_space :
    sentence ('c' :: 'o' :: 'n' :: 's' :: 't' :: ' ' :: chars) =
      .mark .const :: sentence chars := by
  have hspace : Stops isIdentPart (' ' :: chars) := .cons (by decide)
  have hpart : ['o', 'n', 's', 't'].all isIdentPart := by decide
  have hword := sentence_word (c := 'c') (by decide) (List.all_eq_true.mp hpart) hspace
  rw [sentence_space] at hword
  exact hword

theorem sentence_numeral {lexeme : String} (hlexeme : IsNumeral lexeme.toList)
    (hrest : Stops (fun c ↦ c.isDigit || c == '.') rest) :
    sentence (lexeme.toList ++ rest) = .number lexeme :: sentence rest := by
  obtain ⟨c, chars, hchars, hdigit⟩ := hlexeme.exists_cons
  have hspan := spanNumber_append_of_isNumeral hlexeme hrest
  have hsign : c ∉ signs := by
    intro hmem
    have hsigns : signs.any Char.isDigit = false := by decide
    exact List.any_eq_false.mp hsigns c hmem hdigit
  rw [hchars, List.cons_append] at hspan
  rw [hchars, List.cons_append, sentence_of_not_mem_signs hsign, scan_of_not_mem_signs hsign,
    if_pos hdigit, hspan, ← hchars]
  simp [Scanned.terminal, TokenKind.isMark, Terminal.number]

end ArrowLang.Token
