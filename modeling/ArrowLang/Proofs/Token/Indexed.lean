import ArrowLang.Proofs.Token.Exactness

/-!
# The lexer on indices

The lexer once more, with the characters looked up by index.  It counts the index, the line and the
column up as it goes, and beyond the end of the text it sees a null character, which is also a
character that a text may contain.  What is left of the text from the index on is what the other
lexer works on, so that the two take the same steps, one loop after the other, and find the same
tokens at the same positions.
-/

namespace ArrowLang.Indexed

open Token

structure Lexer where
  input : List Char
  /-- The index of the character to be read next. -/
  position : Nat
  line : Nat
  column : Nat

namespace Lexer

def ofString (source : String) : Lexer := ⟨source.toList, 0, 1, 1⟩

def atEnd (lexer : Lexer) : Bool := lexer.input.length ≤ lexer.position

/-- The next character, or the null character at the end of the text. -/
def peek (lexer : Lexer) : Char :=
  if h : lexer.position < lexer.input.length then lexer.input[lexer.position] else '\x00'

/-- The character after the next one. -/
def peekNext? (lexer : Lexer) : Option Char := lexer.input[lexer.position + 1]?

/-- Reads a character that does not end a line. -/
def advance (lexer : Lexer) : Lexer :=
  { lexer with position := lexer.position + 1, column := lexer.column + 1 }

/-- Reads the character that ends a line. -/
def newLine (lexer : Lexer) : Lexer := { lexer.advance with line := lexer.line + 1, column := 1 }

/-- Where the next character stands. -/
def place (lexer : Lexer) : Position := ⟨lexer.line, lexer.column⟩

/-- What is left of the text. -/
def rest (lexer : Lexer) : List Char := lexer.input.drop lexer.position

/-- The cursor that stands for the indices. -/
def cursor (lexer : Lexer) : Cursor := ⟨lexer.rest, lexer.place⟩

variable {lexer : Lexer}

theorem rest_eq_nil (h : lexer.atEnd) : lexer.rest = [] :=
  List.drop_eq_nil_of_le (of_decide_eq_true h)

theorem rest_eq_cons (h : ¬lexer.atEnd) : lexer.rest = lexer.peek :: lexer.advance.rest := by
  have hlt : lexer.position < lexer.input.length := by simpa [atEnd] using h
  rw [rest, List.drop_eq_getElem_cons hlt, peek, dif_pos hlt]
  rfl

/-- The next character is the first of what is left. -/
theorem of_rest_eq_cons {c : Char} {chars : List Char} (h : lexer.rest = c :: chars) :
    ¬lexer.atEnd ∧ lexer.peek = c ∧ lexer.advance.rest = chars := by
  have hend : ¬lexer.atEnd := by
    intro hend
    rw [rest_eq_nil hend] at h
    cases h
  rw [rest_eq_cons hend] at h
  exact ⟨hend, List.cons.inj h⟩

theorem peekNext?_eq (lexer : Lexer) : lexer.peekNext? = lexer.advance.rest.head? :=
  List.head?_drop.symm

theorem place_advance (h : lexer.peek ≠ '\n') :
    lexer.advance.place = lexer.place.advance lexer.peek :=
  (if_neg h).symm

theorem rest_advance_length_lt (h : ¬lexer.atEnd) :
    lexer.advance.rest.length < lexer.rest.length := by
  rw [rest_eq_cons h]
  exact Nat.lt_succ_self _

/-- Reads characters as long as they satisfy the predicate. -/
def readWhile (p : Char → Bool) (lexer : Lexer) : List Char × Lexer :=
  if lexer.atEnd then ([], lexer)
  else if p lexer.peek then
    let (chars, after) := lexer.advance.readWhile p
    (lexer.peek :: chars, after)
  else ([], lexer)
termination_by lexer.rest.length
decreasing_by exact rest_advance_length_lt (by assumption)

theorem readWhile_fst (p : Char → Bool) (lexer : Lexer) :
    (lexer.readWhile p).1 = lexer.rest.takeWhile p := by
  fun_induction readWhile p lexer with
  | case1 lexer hend => rw [rest_eq_nil hend, List.takeWhile_nil]
  | case2 lexer hend hpeek chars after hread ih =>
    rw [hread] at ih
    rw [rest_eq_cons hend, List.takeWhile_cons_of_pos hpeek, ← ih]
  | case3 lexer hend hpeek => rw [rest_eq_cons hend, List.takeWhile_cons_of_neg hpeek]

/-- The line does not change while characters are read that cannot end one. -/
theorem cursor_readWhile {p : Char → Bool} (hp : p '\n' = false) (lexer : Lexer) :
    (lexer.readWhile p).2.cursor =
      ⟨lexer.rest.dropWhile p, lexer.place.after (lexer.rest.takeWhile p)⟩ := by
  fun_induction readWhile p lexer with
  | case1 lexer hend =>
    rw [cursor, rest_eq_nil hend]
    rfl
  | case2 lexer hend hpeek chars after hread ih =>
    have hline : lexer.peek ≠ '\n' := by
      intro hnewline
      rw [hnewline, hp] at hpeek
      cases hpeek
    rw [hread] at ih
    rw [ih, rest_eq_cons hend, List.dropWhile_cons_of_pos hpeek, List.takeWhile_cons_of_pos hpeek,
      Position.after_cons, place_advance hline]
  | case3 lexer hend hpeek =>
    rw [cursor, rest_eq_cons hend, List.dropWhile_cons_of_neg hpeek,
      List.takeWhile_cons_of_neg hpeek]
    rfl

theorem rest_readWhile {p : Char → Bool} (hp : p '\n' = false) (lexer : Lexer) :
    (lexer.readWhile p).2.rest = lexer.rest.dropWhile p :=
  congrArg Cursor.rest (cursor_readWhile hp lexer)

theorem place_readWhile {p : Char → Bool} (hp : p '\n' = false) (lexer : Lexer) :
    (lexer.readWhile p).2.place = lexer.place.after (lexer.rest.takeWhile p) :=
  congrArg Cursor.position (cursor_readWhile hp lexer)

theorem rest_readWhile_length_lt {p : Char → Bool} (hp : p '\n' = false) (hend : ¬lexer.atEnd)
    (hpeek : p lexer.peek) : (lexer.readWhile p).2.rest.length < lexer.rest.length := by
  rw [rest_readWhile hp, rest_eq_cons hend, List.dropWhile_cons_of_pos hpeek]
  exact Nat.lt_succ_of_le (List.dropWhile_suffix p).length_le

/-- Reads blanks and comments. -/
def skipGap (lexer : Lexer) : Lexer :=
  if lexer.atEnd then lexer
  else if lexer.peek = ' ' ∨ lexer.peek = '\t' ∨ lexer.peek = '\r' then lexer.advance.skipGap
  else if lexer.peek = '\n' then lexer.newLine.skipGap
  else if lexer.peek = '/' ∧ lexer.peekNext? = some '/' then
    (lexer.readWhile (· != '\n')).2.skipGap
  else lexer
termination_by lexer.rest.length
decreasing_by
  · exact rest_advance_length_lt (by assumption)
  · exact rest_advance_length_lt (by assumption)
  · exact rest_readWhile_length_lt rfl (by assumption) (bne_iff_ne.mpr (by assumption))

theorem cursor_skipGap (lexer : Lexer) :
    lexer.skipGap.cursor =
      ⟨(spanGap false lexer.rest).2, lexer.place.after (spanGap false lexer.rest).1⟩ := by
  fun_induction skipGap lexer with
  | case1 lexer hend =>
    rw [cursor, rest_eq_nil hend]
    rfl
  | case2 lexer hend hblank ih =>
    have hpeek : isBlank lexer.peek ∧ lexer.peek ≠ '\n' := by
      obtain h | h | h := hblank <;> rw [h] <;> decide
    rw [ih, rest_eq_cons hend, spanGap_blank hpeek.1, Position.after_cons,
      ← place_advance hpeek.2]
  | case3 lexer hend hblank hline ih =>
    have hpeek : isBlank lexer.peek := by
      rw [hline]
      rfl
    have hplace : lexer.newLine.place = lexer.place.advance lexer.peek := (if_pos hline).symm
    have hrest : lexer.newLine.rest = lexer.advance.rest := rfl
    rw [ih, rest_eq_cons hend, spanGap_blank hpeek, Position.after_cons, hrest, hplace]
  | case4 lexer hend hblank hline hslashes ih =>
    rw [peekNext?_eq] at hslashes
    have hcomment : spanGap false lexer.rest =
        (lexer.rest.takeWhile (· != '\n') ++
          (spanGap false (lexer.rest.dropWhile (· != '\n'))).1,
          (spanGap false (lexer.rest.dropWhile (· != '\n'))).2) := by
      rw [rest_eq_cons hend, spanGap, if_neg (by simp [isBlank, hslashes.1]),
        if_pos (by simp [hslashes]), spanGap_true]
      simp [hline]
    rw [ih, rest_readWhile rfl, place_readWhile rfl, hcomment, Position.after_append]
  | case5 lexer hend hblank hline hslashes =>
    have hpeek : isBlank lexer.peek = false := by
      simp only [not_or] at hblank
      simp [isBlank, hblank, hline]
    rw [peekNext?_eq] at hslashes
    rw [cursor, rest_eq_cons hend, spanGap_eq_self hpeek (not_and.mp hslashes)]
    rfl

/-- Other characters than the null character are seen only where the text goes on with them. -/
theorem peek_eq_iff {c : Char} (hc : c ≠ '\x00') :
    lexer.peek = c ↔ lexer.rest.head? = some c := by
  by_cases hend : lexer.atEnd
  · have hpeek : lexer.peek = '\x00' := dif_neg (Nat.not_lt.mpr (of_decide_eq_true hend))
    simp [rest_eq_nil hend, hpeek, hc.symm]
  · simp [rest_eq_cons hend]

/-- A number; a point belongs to it only before a digit. -/
def number (lexer : Lexer) : Token × Lexer :=
  let (whole, after) := lexer.readWhile Char.isDigit
  if after.peek = '.' ∧ after.peekNext?.any Char.isDigit then
    let (digits, last) := after.advance.readWhile Char.isDigit
    (⟨.number, String.ofList (whole ++ after.peek :: digits), lexer.place⟩, last)
  else (⟨.number, String.ofList whole, lexer.place⟩, after)

def word (lexer : Lexer) : Token × Lexer :=
  let (chars, after) := lexer.readWhile isIdentPart
  (⟨wordKind chars, String.ofList chars, lexer.place⟩, after)

/-- The token that starts with the next character. -/
def token (lexer : Lexer) : Token × Lexer :=
  match punctuation? lexer.peek with
  | some kind => (⟨kind, String.ofList [lexer.peek], lexer.place⟩, lexer.advance)
  | none =>
    if lexer.peek = '=' then
      if lexer.advance.peek = '>' then (⟨.arrow, "=>", lexer.place⟩, lexer.advance.advance)
      else (⟨.equals, "=", lexer.place⟩, lexer.advance)
    else if lexer.peek.isDigit then lexer.number
    else if isIdentStart lexer.peek then lexer.word
    else (⟨.unknown, String.ofList [lexer.peek], lexer.place⟩, lexer.advance)

/-- The next token, which is the end token when nothing but a gap is left. -/
def nextToken (lexer : Lexer) : Token × Lexer :=
  let start := lexer.skipGap
  if start.atEnd then (⟨.endOfInput, "", start.place⟩, start) else start.token

/-- The step has read what was scanned, from where the lexer stands. -/
structure Yields (lexer : Lexer) (step : Token × Lexer) (scanned : Scanned) : Prop where
  token_eq : step.1 = ⟨scanned.kind, String.ofList scanned.lexeme, lexer.place⟩
  cursor_eq : step.2.cursor = ⟨scanned.rest, lexer.place.after scanned.lexeme⟩

theorem yields_char (kind : TokenKind) (hline : lexer.peek ≠ '\n') :
    lexer.Yields (⟨kind, String.ofList [lexer.peek], lexer.place⟩, lexer.advance)
      ⟨kind, [lexer.peek], lexer.advance.rest⟩ where
  token_eq := rfl
  cursor_eq := by
    rw [cursor, place_advance hline]
    rfl

/-- Whether a number goes on is seen from the next two characters. -/
theorem fraction_iff (lexer : Lexer) :
    (lexer.peek = '.' ∧ lexer.peekNext?.any Char.isDigit) ↔
      ∃ digit others, lexer.rest = '.' :: digit :: others ∧ digit.isDigit := by
  rw [peekNext?_eq]
  constructor
  · rintro ⟨hpoint, hnext⟩
    obtain ⟨chars, hchars⟩ := List.head?_eq_some_iff.mp ((peek_eq_iff (by decide)).mp hpoint)
    obtain ⟨-, -, hadvance⟩ := of_rest_eq_cons hchars
    obtain ⟨digit, hdigit, hisDigit⟩ := (Option.any_eq_true _ _).mp hnext
    rw [hadvance] at hdigit
    obtain ⟨others, rfl⟩ := List.head?_eq_some_iff.mp hdigit
    exact ⟨digit, others, hchars, hisDigit⟩
  · rintro ⟨digit, others, hrest, hdigit⟩
    obtain ⟨-, hpeek, hadvance⟩ := of_rest_eq_cons hrest
    rw [hadvance]
    exact ⟨hpeek, hdigit⟩

theorem yields_number (lexer : Lexer) :
    lexer.Yields lexer.number
      ⟨.number, (spanNumber lexer.rest).1, (spanNumber lexer.rest).2⟩ := by
  have hwhole := readWhile_fst Char.isDigit lexer
  have hrest := rest_readWhile (p := Char.isDigit) rfl lexer
  have hplace := place_readWhile (p := Char.isDigit) rfl lexer
  rw [number]
  generalize lexer.readWhile Char.isDigit = read at hwhole hrest hplace ⊢
  obtain ⟨whole, after⟩ := read
  obtain rfl : whole = lexer.rest.takeWhile Char.isDigit := hwhole
  dsimp only at hrest hplace ⊢
  by_cases hfraction : after.peek = '.' ∧ after.peekNext?.any Char.isDigit
  · obtain ⟨digit, others, hpoint, hdigit⟩ := (fraction_iff after).mp hfraction
    obtain ⟨-, hpeek, hadvance⟩ := of_rest_eq_cons hpoint
    have hline : after.peek ≠ '\n' := by
      rw [hpeek]
      decide
    rw [if_pos hfraction, spanNumber_fraction (hrest.symm.trans hpoint) hdigit]
    constructor
    · rw [readWhile_fst, hadvance, hpeek, List.takeWhile_cons_of_pos hdigit]
    · rw [cursor_readWhile rfl, hadvance, place_advance hline, hpeek, hplace,
        List.dropWhile_cons_of_pos hdigit, List.takeWhile_cons_of_pos hdigit,
        Position.after_append]
      rfl
  · have hnone : NoFraction (lexer.rest.dropWhile Char.isDigit) := by
      rw [fraction_iff, hrest] at hfraction
      intro digit others hpoint
      simpa using fun hdigit ↦ hfraction ⟨digit, others, hpoint, hdigit⟩
    rw [if_neg hfraction, spanNumber_whole hnone]
    exact ⟨rfl, by rw [cursor, hrest, hplace]⟩

theorem yields_word (hend : ¬lexer.atEnd) (hstart : isIdentStart lexer.peek) :
    lexer.Yields lexer.word
      ⟨wordKind (lexer.peek :: lexer.advance.rest.takeWhile isIdentPart),
        lexer.peek :: lexer.advance.rest.takeWhile isIdentPart,
        lexer.advance.rest.dropWhile isIdentPart⟩ := by
  have hpart := isIdentPart_of_isIdentStart hstart
  have hchars : (lexer.readWhile isIdentPart).1 =
      lexer.peek :: lexer.advance.rest.takeWhile isIdentPart := by
    rw [readWhile_fst, rest_eq_cons hend, List.takeWhile_cons_of_pos hpart]
  rw [word]
  constructor
  · dsimp only
    rw [hchars]
  · dsimp only
    rw [cursor_readWhile (by decide), rest_eq_cons hend, List.takeWhile_cons_of_pos hpart,
      List.dropWhile_cons_of_pos hpart]

theorem yields_equals (hequals : lexer.peek = '=') :
    lexer.Yields
      (if lexer.advance.peek = '>' then (⟨.arrow, "=>", lexer.place⟩, lexer.advance.advance)
        else (⟨.equals, "=", lexer.place⟩, lexer.advance))
      (if lexer.advance.rest.head? = some '>' then
          ⟨.arrow, ['=', '>'], lexer.advance.rest.tail⟩
        else ⟨.equals, ['='], lexer.advance.rest⟩) := by
  have hplace : lexer.advance.place = lexer.place.advance '=' := by
    rw [place_advance (by rw [hequals]; decide), hequals]
  by_cases harrow : lexer.advance.peek = '>'
  · have hhead := (peek_eq_iff (by decide)).mp harrow
    obtain ⟨chars, hchars⟩ := List.head?_eq_some_iff.mp hhead
    obtain ⟨-, -, hrest⟩ := of_rest_eq_cons hchars
    have hplace' : lexer.advance.advance.place = (lexer.place.advance '=').advance '>' := by
      rw [place_advance (by rw [harrow]; decide), harrow, hplace]
    rw [if_pos harrow, if_pos hhead]
    exact ⟨rfl, by rw [cursor, hplace', hrest, hchars]; rfl⟩
  · rw [if_neg harrow, if_neg fun hhead ↦ harrow ((peek_eq_iff (by decide)).mpr hhead)]
    exact ⟨rfl, by rw [cursor, hplace]; rfl⟩

theorem yields_token (hend : ¬lexer.atEnd) (hblank : isBlank lexer.peek = false) :
    lexer.Yields lexer.token (scan lexer.peek lexer.advance.rest) := by
  have hline : lexer.peek ≠ '\n' := by
    intro hpeek
    rw [hpeek] at hblank
    cases hblank
  rw [token, scan]
  cases punctuation? lexer.peek with
  | some kind => exact yields_char kind hline
  | none =>
    dsimp only
    split
    · rename_i hequals
      exact yields_equals hequals
    · split
      · rw [← rest_eq_cons hend]
        exact lexer.yields_number
      · split
        · rename_i hstart
          exact yields_word hend hstart
        · exact yields_char .unknown hline

/-- The two lexers take the same step. -/
theorem nextToken_eq_next (lexer : Lexer) :
    (lexer.nextToken.1, lexer.nextToken.2.cursor) = lexer.cursor.next := by
  have hcursor := lexer.cursor_skipGap
  have hrest : lexer.skipGap.rest = (spanGap false lexer.rest).2 := congrArg Cursor.rest hcursor
  have hplace : lexer.skipGap.place = lexer.place.after (spanGap false lexer.rest).1 :=
    congrArg Cursor.position hcursor
  rw [nextToken, Cursor.next]
  by_cases hend : lexer.skipGap.atEnd
  · have hgap : (spanGap false lexer.rest).2 = [] := hrest.symm.trans (rest_eq_nil hend)
    have hwhole : (spanGap false lexer.rest).1 = lexer.rest := by
      simpa [hgap] using spanGap_append false lexer.rest
    have hnext : lexer.cursor.next? = none := Cursor.next?_eq_none _ hgap
    rw [if_pos hend, hnext]
    dsimp only
    rw [hcursor, hplace, hgap, hwhole]
    rfl
  · have hgap := hrest.symm.trans (rest_eq_cons hend)
    have hstep := yields_token hend (isBlank_of_spanGap hgap)
    rw [if_neg hend, hstep.token_eq, hstep.cursor_eq, hplace,
      show lexer.cursor.next? = _ from Cursor.next?_eq_some _ hgap]

/-- Only the end token has its kind, so that the loop over the tokens stops where the text ends. -/
theorem next?_of_nextToken {token : Token} {after : Lexer}
    (hstep : lexer.nextToken = (token, after)) :
    if token.kind = .endOfInput then
      lexer.cursor.next? = none ∧ token = lexer.cursor.endToken ∧
        after.cursor = lexer.cursor.finish
    else lexer.cursor.next? = some (token, after.cursor) := by
  have hnext := lexer.nextToken_eq_next
  rw [hstep, Cursor.next] at hnext
  cases hcursor : lexer.cursor.next? with
  | none =>
    rw [hcursor] at hnext
    obtain ⟨rfl, hafter⟩ := Prod.mk.inj hnext
    exact if_pos rfl ▸ ⟨rfl, rfl, hafter⟩
  | some step =>
    rw [hcursor] at hnext
    obtain rfl : (token, after.cursor) = step := hnext
    rw [if_neg (Cursor.kind_ne_endOfInput_of_next? hcursor)]

theorem rest_nextToken_length_lt {token : Token} {after : Lexer}
    (hstep : lexer.nextToken = (token, after)) (hkind : token.kind ≠ .endOfInput) :
    after.rest.length < lexer.rest.length := by
  have hnext := next?_of_nextToken hstep
  rw [if_neg hkind] at hnext
  exact Cursor.next?_rest_length_lt hnext

/-- The tokens up to the end token, and the lexer after it. -/
def tokenize (lexer : Lexer) : List Token × Lexer :=
  match _ : lexer.nextToken with
  | (token, after) =>
    if token.kind = .endOfInput then ([token], after)
    else
      let (tokens, last) := after.tokenize
      (token :: tokens, last)
termination_by lexer.rest.length
decreasing_by exact rest_nextToken_length_lt (by assumption) (by assumption)

/-- Both lexers find the same tokens, at the same positions, and stop at the same place. -/
theorem tokenize_eq_tokensToEnd (lexer : Lexer) :
    lexer.tokenize.1 = lexer.cursor.tokensToEnd ∧
      lexer.tokenize.2.cursor = lexer.cursor.finish := by
  fun_induction tokenize lexer with
  | case1 lexer token after hstep hkind =>
    have hnext := next?_of_nextToken hstep
    rw [if_pos hkind] at hnext
    obtain ⟨hnone, rfl, hafter⟩ := hnext
    refine ⟨?_, hafter⟩
    rw [Cursor.tokensToEnd, Cursor.tokens_of_next?_none hnone, List.nil_append]
  | case2 lexer token after hstep hkind tokens last hrest ih =>
    have hnext := next?_of_nextToken hstep
    rw [if_neg hkind] at hnext
    rw [hrest] at ih
    obtain ⟨rfl, hlast⟩ := ih
    have hfinish := Cursor.finish_of_next? hnext
    refine ⟨?_, hlast.trans hfinish⟩
    rw [Cursor.tokensToEnd, Cursor.tokensToEnd, Cursor.tokens_of_next?_some hnext,
      Cursor.endToken, Cursor.endToken, hfinish, List.cons_append]

end Lexer

end ArrowLang.Indexed
