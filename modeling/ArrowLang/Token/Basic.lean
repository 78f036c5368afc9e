/-!
# Tokens

A token is a kind, the text it was read from and the position where that text starts.  Lines and
columns count from one, and a column is one character wide whatever the character is.
-/

namespace ArrowLang

structure Position where
  line : Nat
  column : Nat
deriving DecidableEq

namespace Position

def start : Position := ⟨1, 1⟩

/-- The position after a character. -/
def advance (p : Position) (c : Char) : Position :=
  if c = '\n' then ⟨p.line + 1, 1⟩ else ⟨p.line, p.column + 1⟩

/-- The position after a text. -/
def after (p : Position) (chars : List Char) : Position := chars.foldl advance p

@[simp]
theorem after_nil (p : Position) : p.after [] = p := rfl

@[simp]
theorem after_cons (p : Position) (c : Char) (chars : List Char) :
    p.after (c :: chars) = (p.advance c).after chars := rfl

theorem after_append (p : Position) (left right : List Char) :
    p.after (left ++ right) = (p.after left).after right := by
  simp [after]

end Position

inductive TokenKind
  | number
  | boolean (value : Bool)
  | const
  | plus
  | question
  | colon
  | equals
  | arrow
  | leftParen
  | rightParen
  | comma
  | semicolon
  /-- A name: of a variable, a parameter or a type. -/
  | ident
  /-- A character that the language has no use for. -/
  | unknown
  | endOfInput
deriving DecidableEq

/-- The kind's name in messages. -/
def TokenKind.name : TokenKind → String
  | number => "NUMBER"
  | boolean true => "true"
  | boolean false => "false"
  | const => "const"
  | plus => "+"
  | question => "?"
  | colon => ":"
  | equals => "="
  | arrow => "=>"
  | leftParen => "("
  | rightParen => ")"
  | comma => ","
  | semicolon => ";"
  | ident => "IDENT"
  | unknown => "UNKNOWN"
  | endOfInput => "EOF"

structure Token where
  kind : TokenKind
  lexeme : String
  position : Position
deriving DecidableEq

end ArrowLang
