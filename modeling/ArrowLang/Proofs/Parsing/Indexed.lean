import ArrowLang.Proofs.Parsing.Sessions
import ArrowLang.Proofs.Token.Indexed

/-!
# The parser on indices

The parser once more, with the tokens looked up by index: the tokens come from the lexer on indices,
the cursor is a number, levels are counted up and down, and the dialect is part of the state, where
arithmetic sets it for the time of its run and puts back what was there before.  A run breaks off
without a result if an index is out of range, if a subtraction goes below zero, if a loop takes more
than a given number of rounds, or if calls are nested deeper than that.  Nothing here keeps it from
that, so a proof that a run has a result whenever the number is large enough shows that none of this
happens.
-/

namespace ArrowLang.Indexed

structure State where
  tokens : List Token
  /-- The index of the token to be read next. -/
  cursor : Nat
  /-- The number of open nesting levels. -/
  depth : Nat
  dialect : Dialect

namespace State

def current? (s : State) : Option Token := s.tokens[s.cursor]?

/-- The token before the current one, of which there is none at the first index. -/
def previous? (s : State) : Option Token :=
  match s.cursor with
  | 0 => none
  | last + 1 => s.tokens[last]?

/-- A look ahead, which may go beyond the last token. -/
def kindAhead (s : State) (offset : Nat) : Option TokenKind :=
  s.tokens[s.cursor + offset]?.map Token.kind

end State

/-- A run may fail with an error, or break off without a result. -/
abbrev Parser := ExceptT ParseError (StateT State Option)

variable {α : Type}

def breakOff : Parser α := fun _ ↦ none

def current : Parser Token := fun s ↦ s.current?.map fun token ↦ (.ok token, s)

/-- Reads a token unless it is the end token, and looks back at the token before the cursor. -/
def advance : Parser Unit := fun s ↦ do
  let token ← s.current?
  let t := if token.kind = .endOfInput then s else { s with cursor := s.cursor + 1 }
  let _ ← t.previous?
  return (.ok (), t)

def fail (fault : ParseFault) : Parser α := do
  let token ← current
  throw ⟨fault, token.position⟩

def unexpected : Parser α := do
  let token ← current
  match token.kind with
  | .endOfInput => fail .unexpectedEnd
  | .unknown => fail (.unexpectedCharacter token.lexeme)
  | kind => fail (.unexpectedToken kind)

def isAt (kind : TokenKind) : Parser Bool := do
  let token ← current
  return token.kind == kind

def consume (kind : TokenKind) (what : Expectation) : Parser Unit := do
  if ← isAt kind then advance else fail (.expected what)

def identifier (what : Expectation) : Parser String := do
  let token ← current
  consume .ident what
  return token.lexeme

def requireExtended (construct : Construct) : Parser Unit := fun s ↦
  match s.dialect with
  | .basic => some (.ok (), s)
  | .arith => fail (.notArithmetic construct) s

/-- Opens a level; one level too many stays open. -/
def openLevel : Parser Unit := fun s ↦
  let t := { s with depth := s.depth + 1 }
  if nestingLimit < t.depth then fail .nestingTooDeep t else some (.ok (), t)

/-- Closes a level after a run, whether it failed or not. -/
def closeLevel : Except ParseError α × State → Option (Except ParseError α × State)
  | (result, s) =>
    match s.depth with
    | 0 => none
    | depth + 1 => some (result, { s with depth })

def nested (parser : Parser α) : Parser α := do
  openLevel
  fun s ↦ parser s >>= closeLevel

def whileAt (kind : TokenKind) (step : α → Parser α) : Nat → α → Parser α
  | 0, _ => breakOff
  | limit + 1, value => do
    if ← isAt kind then
      let value ← step value
      whileAt kind step limit value
    else return value

def series (item : Parser α) : Nat → Parser (List α)
  | 0 => breakOff
  | limit + 1 => do
    let head ← item
    if ← isAt .comma then
      advance
      let tail ← series item limit
      return head :: tail
    else return [head]

def itemsToClose (limit : Nat) (item : Parser α) (what : Expectation) : Parser (List α) := do
  if ← isAt .rightParen then
    advance
    return []
  else
    let items ← series item limit
    consume .rightParen what
    return items

def param (type : Parser Ty) : Parser Param := do
  let name ← identifier .paramName
  consume .colon .paramColon
  let ty ← type
  return ⟨name, ty⟩

def params (limit : Nat) (type : Parser Ty) : Parser (List Param) := do
  consume .leftParen .paramsOpen
  itemsToClose limit (param type) .paramsClose

def typeName : Parser Ty := do
  let token ← current
  if token.kind = .ident then
    if token.lexeme = "number" then
      advance
      return .number
    else if token.lexeme = "boolean" then
      advance
      return .boolean
    else fail (.unknownType token.lexeme)
  else fail (.expected .typeName)

def typeForm (limit : Nat) (type : Parser Ty) : Parser Ty := do
  if ← isAt .leftParen then
    let params ← params limit type
    consume .arrow .typeArrow
    let result ← type
    return .function params result
  else typeName

/-- A type, with so many calls that may be nested. -/
def type (limit : Nat) : Nat → Parser Ty
  | 0 => breakOff
  | calls + 1 => nested (typeForm limit (type limit calls))

def numeral : Parser Term := do
  let token ← current
  match Decimal.ofText? token.lexeme with
  | some decimal =>
    advance
    return .number decimal.toBinary64
  | none => fail (.invalidNumber token.lexeme)

/-- Whether the opening parenthesis at the cursor starts a function. -/
def startsFunction : Parser Bool := fun s ↦
  let second := s.kindAhead 1
  let third := s.kindAhead 2
  let found := second == some .rightParen && third == some .arrow ||
    second == some .ident && third == some .colon
  some (.ok found, s)

def function (limit : Nat) (type : Parser Ty) (expression : Parser Term) :
    Parser Term := do
  requireExtended .function
  let params ← params limit type
  consume .arrow .functionArrow
  let body ← expression
  return .function params body

def group (expression : Parser Term) : Parser Term := do
  advance
  let inner ← expression
  consume .rightParen .groupClose
  return inner

def primary (limit : Nat) (type : Parser Ty) (expression : Parser Term) :
    Parser Term := do
  let token ← current
  match token.kind with
  | .number => numeral
  | .boolean value =>
    advance
    return .boolean value
  | .ident =>
    requireExtended .variableReference
    advance
    return .var token.lexeme
  | .leftParen =>
    if ← startsFunction then function limit type expression else group expression
  | _ => unexpected

def arguments (limit : Nat) (expression : Parser Term) (callee : Term) :
    Parser Term := do
  requireExtended .functionCall
  advance
  let args ← itemsToClose limit expression .argumentsClose
  return .call callee args

def operand (limit : Nat) (type : Parser Ty) (expression : Parser Term) :
    Parser Term := do
  let callee ← primary limit type expression
  whileAt .leftParen (arguments limit expression) limit callee

def plus (operand : Parser Term) (left : Term) : Parser Term := do
  advance
  let right ← operand
  return .add left right

def addition (limit : Nat) (operand : Parser Term) : Parser Term := do
  let left ← operand
  whileAt .plus (plus operand) limit left

def conditional (addition expression : Parser Term) : Parser Term := do
  let cond ← addition
  if ← isAt .question then
    advance
    let thenBranch ← expression
    consume .colon .conditionalColon
    let elseBranch ← expression
    return .conditional cond thenBranch elseBranch
  else return cond

/-- An expression, with so many calls that may be nested. -/
def expression (limit : Nat) : Nat → Parser Term
  | 0 => breakOff
  | calls + 1 =>
    let inner := expression limit calls
    nested (conditional (addition limit (operand limit (type limit calls) inner)) inner)

def constItem (expression : Parser Term) : Parser Item := do
  advance
  let name ← identifier .constName
  consume .equals .constEquals
  let init ← expression
  consume .semicolon .constEnd
  return .const name init

def itemsAndResult (expression : Parser Term) : Nat → Parser (List Item × Term)
  | 0 => breakOff
  | limit + 1 => do
    if ← isAt .const then
      requireExtended .constBinding
      let item ← constItem expression
      let (items, result) ← itemsAndResult expression limit
      return (item :: items, result)
    else
      let term ← expression
      if ← isAt .semicolon then
        advance
        if ← isAt .endOfInput then return ([], term)
        else
          requireExtended .statementSequence
          let (items, result) ← itemsAndResult expression limit
          return (.statement term :: items, result)
      else return ([], term)

def program (limit : Nat) : Parser Term := do
  let (items, result) ← itemsAndResult (expression limit limit) limit
  if ← isAt .endOfInput then return Item.assemble items result else unexpected

/-- Runs a parser in the given dialect.  Whether the run failed or not, the dialect is then what it
was before. -/
def inDialect (dialect : Dialect) (parser : Parser α) : Parser α := fun s ↦ do
  let (result, t) ← parser { s with dialect }
  return (result, { t with dialect := s.dialect })

/-- Fails at the first token of the text. -/
def failAtFirst (fault : ParseFault) : Parser α := fun s ↦
  s.tokens[0]?.map fun token ↦ (.error ⟨fault, token.position⟩, s)

def arithProgram (limit : Nat) : Parser Arith.Term := do
  let term ← inDialect .arith (program limit)
  match Arith.restrict term with
  | .ok term => return term
  | .error construct => failAtFirst (.notArithmetic construct)

def ofString (dialect : Dialect) (source : String) : State :=
  ⟨(Lexer.ofString source).tokenize.1, 0, 0, dialect⟩

/-- Answers a request, in the dialect of the state if it does not ask for arithmetic. -/
def answer (limit : Nat) : Request → StateT State Option Answer
  | .program => do
    let result ← (program limit).run
    return result.map .inl
  | .arithProgram => do
    let result ← (arithProgram limit).run
    return result.map .inr

/-- The answers to one request after the other. -/
def answers (limit : Nat) (requests : List Request) : StateT State Option (List Answer) :=
  requests.mapM (answer limit)

end ArrowLang.Indexed
