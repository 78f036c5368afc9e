import ArrowLang.Arith.Checker
import ArrowLang.Parsing.Program
import ArrowLang.Typing.Checker

/-!
# Verdicts

A program text is read and checked in a dialect; the verdict is its type or the first error.
-/

namespace ArrowLang

/-- The type of a program, in the types of its dialect. -/
inductive ProgramType
  | arith (ty : Arith.Ty)
  | basic (ty : Ty)

namespace ProgramType

def text : ProgramType → String
  | arith ty => ty.text
  | basic ty => ty.text

/-- Equality up to parameter names; types of different dialects differ. -/
def equiv : ProgramType → ProgramType → Bool
  | arith ty, arith ty' => ty == ty'
  | basic ty, basic ty' => ty.equiv ty'
  | _, _ => false

end ProgramType

inductive CheckError
  | parse (error : ParseError)
  | type (error : TypeError)
deriving DecidableEq

def CheckError.message : CheckError → String
  | parse error => error.message
  | type error => error.message

abbrev Verdict := Except CheckError ProgramType

/-- Equality of verdicts: equivalent types, or the same error at the same place. -/
def Verdict.equiv : Verdict → Verdict → Bool
  | .ok ty, .ok ty' => ty.equiv ty'
  | .error error, .error error' => error == error'
  | _, _ => false

/-- Reads a program and infers its type. -/
def check (dialect : Dialect) (source : String) : Traced Event CheckError ProgramType := do
  Traced.emit (.checkingSource dialect source.utf8ByteSize)
  match dialect with
  | .arith =>
    let term ← (Traced.ofExcept (parseArith source)).mapError .parse
    let ty ← (Arith.check term).mapError .type
    return .arith ty
  | .basic =>
    let term ← (Traced.ofExcept (parse source)).mapError .parse
    let ty ← (checkClosed term).mapError .type
    return .basic ty

/-- The verdict on a program, without the events. -/
def verdict (dialect : Dialect) (source : String) : Verdict := (check dialect source).outcome

end ArrowLang
