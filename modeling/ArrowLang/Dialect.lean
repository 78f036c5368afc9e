/-!
# Dialects

The arithmetic dialect has literals, additions and conditionals only.  The extended dialect adds the
constructs listed here.
-/

namespace ArrowLang

inductive Dialect
  | arith
  | basic
deriving DecidableEq

/-- What the extended dialect adds to the arithmetic one. -/
inductive Construct
  | variableReference
  | function
  | functionCall
  | statementSequence
  | constBinding
deriving DecidableEq

namespace Dialect

def name : Dialect → String
  | arith => "arith"
  | basic => "basic"

/-- The dialect with a given name. -/
def ofName? : String → Option Dialect
  | "arith" => some arith
  | "basic" => some basic
  | _ => none

end Dialect

namespace Construct

def name : Construct → String
  | variableReference => "variable"
  | function => "function"
  | functionCall => "function call"
  | statementSequence => "statement sequence"
  | constBinding => "const binding"

/-- What is said of a construct where only arithmetic is allowed. -/
def refusal (construct : Construct) : String :=
  construct.name ++ " is not part of the arithmetic dialect"

end Construct

end ArrowLang
