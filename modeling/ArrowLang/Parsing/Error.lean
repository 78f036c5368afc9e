import ArrowLang.Dialect
import ArrowLang.Token.Basic

/-!
# Parse errors

A parse error is a fault at the position of a token.
-/

namespace ArrowLang

/-- How many expressions and types may be nested in each other. -/
def nestingLimit : Nat := 100

/-- The place where a certain token has to come next. -/
inductive Expectation
  | constName
  | constEquals
  | constEnd
  | conditionalColon
  | argumentsClose
  | groupClose
  | functionArrow
  | paramsOpen
  | paramName
  | paramColon
  | paramsClose
  | typeArrow
  | typeName
deriving DecidableEq

def Expectation.message : Expectation → String
  | constName => "Expected variable name after 'const'"
  | constEquals => "Expected '=' in const binding"
  | constEnd => "Expected ';' after const binding"
  | conditionalColon => "Expected ':' in conditional expression"
  | argumentsClose => "Expected ')' after arguments"
  | groupClose => "Expected ')'"
  | functionArrow => "Expected '=>' after parameters"
  | paramsOpen => "Expected '(' before parameters"
  | paramName => "Expected parameter name"
  | paramColon => "Expected ':' after parameter name"
  | paramsClose => "Expected ')' after parameters"
  | typeArrow => "Expected '=>' in function type"
  | typeName => "Expected type"

/-- Why a token cannot be read as part of a program. -/
inductive ParseFault
  | nestingTooDeep
  | unexpectedEnd
  | unexpectedCharacter (lexeme : String)
  | unexpectedToken (kind : TokenKind)
  | expected (what : Expectation)
  | unknownType (name : String)
  | invalidNumber (lexeme : String)
  | notArithmetic (construct : Construct)
deriving DecidableEq

def ParseFault.message : ParseFault → String
  | nestingTooDeep => "Maximum nesting depth of " ++ toString nestingLimit ++ " exceeded"
  | unexpectedEnd => "Unexpected end of input"
  | unexpectedCharacter lexeme => "Unexpected character '" ++ lexeme ++ "'"
  | unexpectedToken kind => "Unexpected token: " ++ kind.name
  | expected what => what.message
  | unknownType name => "Unknown type '" ++ name ++ "'"
  | invalidNumber lexeme => "Invalid number: " ++ lexeme
  | notArithmetic construct => construct.refusal

structure ParseError where
  fault : ParseFault
  position : Position
deriving DecidableEq

def ParseError.message (error : ParseError) : String :=
  "Parse error at " ++ toString error.position.line ++ ":" ++ toString error.position.column ++ ": " ++
    error.fault.message

end ArrowLang
