/-!
# Type errors

The ways in which a term breaks a typing rule.  A message never shows more than the name of an
unknown variable.
-/

namespace ArrowLang

inductive TypeError
  /-- A summand is not a number. -/
  | numberExpected
  /-- A condition is not a boolean. -/
  | booleanExpected
  /-- The branches of a conditional have different types. -/
  | branchMismatch
  | unknownVariable (name : String)
  /-- What is called is not a function. -/
  | functionExpected
  | wrongArgumentCount (expected actual : Nat)
  /-- The argument at a position, counted from zero, has not the type of its parameter. -/
  | argumentMismatch (position : Nat)
deriving DecidableEq

def TypeError.message : TypeError → String
  | numberExpected => "number expected"
  | booleanExpected => "boolean expected"
  | branchMismatch => "then and else have different types"
  | unknownVariable name => "unknown variable: " ++ name
  | functionExpected => "function type expected"
  | wrongArgumentCount _ _ => "wrong number of arguments"
  | argumentMismatch _ => "argument type mismatch"

end ArrowLang
