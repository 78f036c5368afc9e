import ArrowLang.Text.Alphabetic
import ArrowLang.Text.Numeric
import ArrowLang.Token.Basic

/-!
# From text to tokens

A text is a sequence of tokens with gaps between them.  A gap consists of blanks and of comments
that run from two slashes to the end of the line.  Every other character belongs to a token, and a
token is as long as its kind allows.  A cursor is a place in a text: what is left of the text and
the position where it starts.
-/

namespace ArrowLang.Token

def isBlank (c : Char) : Bool := c == ' ' || c == '\t' || c == '\r' || c == '\n'

/-- Splits a text after the gap at its start.  The flag tells whether the text starts inside a
comment. -/
def spanGap : Bool → List Char → List Char × List Char
  | _, [] => ([], [])
  | true, c :: chars =>
    let (gap, rest) := spanGap (c != '\n') chars
    (c :: gap, rest)
  | false, c :: chars =>
    if isBlank c then
      let (gap, rest) := spanGap false chars
      (c :: gap, rest)
    else if c == '/' && chars.head? == some '/' then
      let (gap, rest) := spanGap true chars
      (c :: gap, rest)
    else ([], c :: chars)

theorem spanGap_append (inComment : Bool) (chars : List Char) :
    (spanGap inComment chars).1 ++ (spanGap inComment chars).2 = chars := by
  fun_induction spanGap inComment chars <;> simp_all

/-- A token without its position, and the text after it. -/
structure Scanned where
  kind : TokenKind
  lexeme : List Char
  rest : List Char

/-- The tokens that are always a single character. -/
def punctuation? : Char → Option TokenKind
  | '(' => some .leftParen
  | ')' => some .rightParen
  | ',' => some .comma
  | ';' => some .semicolon
  | ':' => some .colon
  | '?' => some .question
  | '+' => some .plus
  | _ => none

def isIdentStart (c : Char) : Bool := Text.isAlphabetic c || c == '_' || c == '$'

def isIdentPart (c : Char) : Bool :=
  Text.isAlphabetic c || Text.isNumeric c || c == '_' || c == '$'

/-- The kind of a word: one of the keywords or an identifier. -/
def wordKind (word : List Char) : TokenKind :=
  if word = "true".toList then .boolean true
  else if word = "false".toList then .boolean false
  else if word = "const".toList then .const
  else .ident

/-- Splits a text after the digits at its start and, if a point and a digit follow, after the digits
of the fraction. -/
def spanNumber (chars : List Char) : List Char × List Char :=
  let whole := chars.takeWhile Char.isDigit
  match chars.dropWhile Char.isDigit with
  | '.' :: digit :: rest =>
    if digit.isDigit then
      (whole ++ '.' :: digit :: rest.takeWhile Char.isDigit, rest.dropWhile Char.isDigit)
    else (whole, '.' :: digit :: rest)
  | rest => (whole, rest)

theorem spanNumber_append (chars : List Char) :
    (spanNumber chars).1 ++ (spanNumber chars).2 = chars := by
  have split : chars.takeWhile Char.isDigit ++ chars.dropWhile Char.isDigit = chars :=
    List.takeWhile_append_dropWhile
  unfold spanNumber
  split
  · rename_i digit rest rest_eq
    rw [rest_eq] at split
    split <;> simp [split]
  · exact split

/-- The token that starts with the character `c`, outside a gap. -/
def scan (c : Char) (chars : List Char) : Scanned :=
  match punctuation? c with
  | some kind => ⟨kind, [c], chars⟩
  | none =>
    if c = '=' then
      if chars.head? = some '>' then ⟨.arrow, ['=', '>'], chars.tail⟩ else ⟨.equals, ['='], chars⟩
    else if c.isDigit then
      let (number, rest) := spanNumber (c :: chars)
      ⟨.number, number, rest⟩
    else if isIdentStart c then
      let word := c :: chars.takeWhile isIdentPart
      ⟨wordKind word, word, chars.dropWhile isIdentPart⟩
    else ⟨.unknown, [c], chars⟩

/-- Nothing is lost between a lexeme and the text after it. -/
theorem scan_append (c : Char) (chars : List Char) :
    (scan c chars).lexeme ++ (scan c chars).rest = c :: chars := by
  unfold scan
  split
  · rfl
  · split
    · rename_i equals
      subst equals
      split
      · rename_i head
        obtain ⟨tail, rfl⟩ := List.head?_eq_some_iff.mp head
        rfl
      · rfl
    · split
      · exact spanNumber_append (c :: chars)
      · split
        · simp
        · rfl

theorem scan_lexeme_ne_nil (c : Char) (chars : List Char) : (scan c chars).lexeme ≠ [] := by
  unfold scan
  split
  · simp
  · split
    · split <;> simp
    · split
      · rename_i digit
        simp only [spanNumber, List.takeWhile_cons, digit, if_true]
        split
        · split <;> simp
        · simp
      · split <;> simp

theorem scan_rest_length_le (c : Char) (chars : List Char) :
    (scan c chars).rest.length ≤ chars.length := by
  have whole := congrArg List.length (scan_append c chars)
  have lexeme := List.length_pos_iff.mpr (scan_lexeme_ne_nil c chars)
  simp only [List.length_append, List.length_cons] at whole
  omega

/-! ## Cursors -/

/-- A place in a text. -/
structure Cursor where
  rest : List Char
  position : Position

namespace Cursor

def ofString (source : String) : Cursor := ⟨source.toList, .start⟩

/-- The next token and the place after it, unless only a gap is left. -/
def next? (cursor : Cursor) : Option (Token × Cursor) :=
  let (gap, rest) := spanGap false cursor.rest
  let position := cursor.position.after gap
  match rest with
  | [] => none
  | c :: chars =>
    let scanned := scan c chars
    some (⟨scanned.kind, String.ofList scanned.lexeme, position⟩,
      ⟨scanned.rest, position.after scanned.lexeme⟩)

theorem next?_rest_length_lt {cursor after : Cursor} {token : Token}
    (step : cursor.next? = some (token, after)) : after.rest.length < cursor.rest.length := by
  have whole := congrArg List.length (spanGap_append false cursor.rest)
  simp only [next?] at step
  split at step
  · cases step
  · rename_i c chars rest_eq
    have shorter := scan_rest_length_le c chars
    obtain ⟨-, rfl⟩ := Prod.mk.inj (Option.some.inj step)
    simp only [rest_eq, List.length_append, List.length_cons] at whole
    dsimp only
    omega

/-- The end of the text. -/
def finish (cursor : Cursor) : Cursor := ⟨[], cursor.position.after cursor.rest⟩

/-- The token that stands for the end of the text. -/
def endToken (cursor : Cursor) : Token := ⟨.endOfInput, "", cursor.finish.position⟩

/-- The next token, which is the end token when nothing but a gap is left. -/
def next (cursor : Cursor) : Token × Cursor :=
  match cursor.next? with
  | some step => step
  | none => (cursor.endToken, cursor.finish)

/-- The tokens from the cursor to the end of the text, without the end token. -/
def tokens (cursor : Cursor) : List Token :=
  match _ : cursor.next? with
  | none => []
  | some (token, after) => token :: after.tokens
termination_by cursor.rest.length
decreasing_by exact next?_rest_length_lt (by assumption)

/-- The tokens from the cursor on, the end token last. -/
def tokensToEnd (cursor : Cursor) : List Token := cursor.tokens ++ [cursor.endToken]

end Cursor

end ArrowLang.Token
