import ArrowLang.Parsing.Error
import ArrowLang.Token.Lexer

/-!
# Parser states

A parser walks over the tokens of a text.  Its state is the tokens already read, those still ahead,
the end token behind them, and the number of open nesting levels.  A failing parser keeps the state
it failed in, so that every error is at the current token and parsing can go on from there.
-/

namespace ArrowLang.Parsing

structure State where
  /-- The tokens read so far, the latest first. -/
  before : List Token
  ahead : List Token
  finish : Token
  depth : Nat

namespace State

/-- The state before the first token of a text. -/
def ofString (source : String) : State :=
  let cursor := Token.Cursor.ofString source
  ⟨[], cursor.tokens, cursor.endToken, 0⟩

/-- All tokens of the text, the end token last. -/
def tokens (s : State) : List Token := s.before.reverse ++ s.ahead ++ [s.finish]

/-- The token to be read next. -/
def current (s : State) : Token := s.ahead.headD s.finish

/-- The first token of the text. -/
def first (s : State) : Token := s.before.getLast?.getD s.current

/-- Reads a token; the end token is never read. -/
def advance (s : State) : State :=
  match s.ahead with
  | [] => s
  | token :: ahead => { s with before := token :: s.before, ahead }

end State

abbrev Parser := EStateM ParseError State

variable {α : Type}

def current : Parser Token := fun s ↦ .ok s.current s

def advance : Parser Unit := fun s ↦ .ok () s.advance

/-- Fails at the current token. -/
def fail (fault : ParseFault) : Parser α := fun s ↦ .error ⟨fault, s.current.position⟩ s

/-- Fails because the current token cannot come here. -/
def unexpected : Parser α := do
  let token ← current
  match token.kind with
  | .endOfInput => fail .unexpectedEnd
  | .unknown => fail (.unexpectedCharacter token.lexeme)
  | kind => fail (.unexpectedToken kind)

/-- Whether the current token has the given kind. -/
def isAt (kind : TokenKind) : Parser Bool := fun s ↦ .ok (s.current.kind == kind) s

/-- Reads a token of the given kind. -/
def consume (kind : TokenKind) (what : Expectation) : Parser Unit := do
  if ← isAt kind then advance else fail (.expected what)

/-- Reads an identifier. -/
def identifier (what : Expectation) : Parser String := do
  let token ← current
  consume .ident what
  return token.lexeme

/-- Refuses the construct that starts here where only arithmetic is allowed. -/
def requireExtended (dialect : Dialect) (construct : Construct) : Parser Unit :=
  match dialect with
  | .basic => pure ()
  | .arith => fail (.notArithmetic construct)

/-- Runs a parser one nesting level deeper. -/
def nested (parser : Parser α) : Parser α := fun s ↦
  match parser { s with depth := s.depth + 1 } with
  | .ok value t => .ok value { t with depth := t.depth - 1 }
  | .error error t => .error error { t with depth := t.depth - 1 }

/-- Fails on opening one level too many; the level stays open. -/
def tooDeep : Parser α := fun s ↦ fail .nestingTooDeep { s with depth := s.depth + 1 }

end ArrowLang.Parsing
