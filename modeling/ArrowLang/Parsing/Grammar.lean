import ArrowLang.Arith.Term
import ArrowLang.Parsing.State

/-!
# The grammar

One parser for each form of type and expression.  The parsers for forms that contain expressions or
types take the parsers for these as arguments, and `expression` and `type` tie the knot by recursion
on the number of levels that may still be opened.  Repetitions are bounded by the number of tokens
ahead, since every round reads at least one token.
-/

namespace ArrowLang.Parsing

variable {α : Type}

/-- Repeats a step while the current token has the given kind. -/
def repeatAt (kind : TokenKind) (step : α → Parser α) : Nat → α → Parser α
  | 0, value => pure value
  | rounds + 1, value => do
    if ← isAt kind then
      let value ← step value
      repeatAt kind step rounds value
    else pure value

/-- Repeats a step for as long as the current token has the given kind. -/
def whileAt (kind : TokenKind) (step : α → Parser α) (value : α) : Parser α := fun s ↦
  repeatAt kind step s.ahead.length value s

/-- At least one item, with commas between them. -/
def itemsWithin (item : Parser α) : Nat → Parser (List α)
  | 0 => do
    let last ← item
    return [last]
  | rounds + 1 => do
    let head ← item
    if ← isAt .comma then
      advance
      let tail ← itemsWithin item rounds
      return head :: tail
    else return [head]

/-- Items with commas between them up to a closing parenthesis, which is read too. -/
def itemsToClose (item : Parser α) (what : Expectation) : Parser (List α) := do
  if ← isAt .rightParen then
    advance
    return []
  else
    let items ← fun s ↦ itemsWithin item s.ahead.length s
    consume .rightParen what
    return items

def param (type : Parser Ty) : Parser Param := do
  let name ← identifier .paramName
  consume .colon .paramColon
  let ty ← type
  return ⟨name, ty⟩

def params (type : Parser Ty) : Parser (List Param) := do
  consume .leftParen .paramsOpen
  itemsToClose (param type) .paramsClose

def typeName : Parser Ty := do
  let token ← current
  if token.kind = .ident then
    if token.lexeme = "number" then
      advance
      return .number
    else if token.lexeme = "boolean" then
      advance
      return .boolean
    else fail (.unknownType token.lexeme)
  else fail (.expected .typeName)

def typeForm (type : Parser Ty) : Parser Ty := do
  if ← isAt .leftParen then
    let params ← params type
    consume .arrow .typeArrow
    let result ← type
    return .function params result
  else typeName

/-- A type, with so many levels still to open. -/
def type : Nat → Parser Ty
  | 0 => tooDeep
  | levels + 1 => nested (typeForm (type levels))

def numeral : Parser Term := do
  let token ← current
  match Decimal.ofText? token.lexeme with
  | some decimal =>
    advance
    return .number decimal.toBinary64
  | none => fail (.invalidNumber token.lexeme)

/-- Whether an opening parenthesis starts a function: the parameters are empty and an arrow follows,
or there is a name with a colon. -/
def startsFunction : List Token → Bool
  | _ :: second :: third :: _ =>
    second.kind == .rightParen && third.kind == .arrow ||
      second.kind == .ident && third.kind == .colon
  | _ => false

def function (dialect : Dialect) (type : Parser Ty) (expression : Parser Term) : Parser Term := do
  requireExtended dialect .function
  let params ← params type
  consume .arrow .functionArrow
  let body ← expression
  return .function params body

def group (expression : Parser Term) : Parser Term := do
  advance
  let inner ← expression
  consume .rightParen .groupClose
  return inner

def primary (dialect : Dialect) (type : Parser Ty) (expression : Parser Term) : Parser Term := do
  let token ← current
  match token.kind with
  | .number => numeral
  | .boolean value =>
    advance
    return .boolean value
  | .ident =>
    requireExtended dialect .variableReference
    advance
    return .var token.lexeme
  | .leftParen => fun s ↦
    if startsFunction s.ahead then function dialect type expression s else group expression s
  | _ => unexpected

/-- One argument list after a callee. -/
def arguments (dialect : Dialect) (expression : Parser Term) (callee : Term) : Parser Term := do
  requireExtended dialect .functionCall
  advance
  let args ← itemsToClose expression .argumentsClose
  return .call callee args

def operand (dialect : Dialect) (type : Parser Ty) (expression : Parser Term) : Parser Term := do
  let callee ← primary dialect type expression
  whileAt .leftParen (arguments dialect expression) callee

/-- A plus sign and the operand to its right. -/
def plus (operand : Parser Term) (left : Term) : Parser Term := do
  advance
  let right ← operand
  return .add left right

def addition (operand : Parser Term) : Parser Term := do
  let left ← operand
  whileAt .plus (plus operand) left

def conditional (addition expression : Parser Term) : Parser Term := do
  let cond ← addition
  if ← isAt .question then
    advance
    let thenBranch ← expression
    consume .colon .conditionalColon
    let elseBranch ← expression
    return .conditional cond thenBranch elseBranch
  else return cond

/-- An expression, with so many levels still to open. -/
def expression (dialect : Dialect) : Nat → Parser Term
  | 0 => tooDeep
  | levels + 1 =>
    let inner := expression dialect levels
    nested (conditional (addition (operand dialect (type levels) inner)) inner)

end ArrowLang.Parsing
