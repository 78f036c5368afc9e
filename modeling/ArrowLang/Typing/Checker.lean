import ArrowLang.Typing.Context
import ArrowLang.Typing.Event

/-!
# Type inference

Every term has at most one type under a context, up to the names of parameters.  Subterms are
visited in the order in which they are written, and the first broken rule ends the check.
-/

namespace ArrowLang

open Traced

mutual

/-- The type of a term under a context. -/
def infer (context : Context) (term : Term) : Checking Ty := do
  emit (.visit term context.depth)
  match term with
  | .boolean _ => return .boolean
  | .number _ => return .number
  | .conditional cond thenBranch elseBranch =>
    let condTy ← infer context cond
    require (condTy.equiv .boolean) .booleanExpected
    let thenTy ← infer context thenBranch
    let elseTy ← infer context elseBranch
    require (thenTy.equiv elseTy) .branchMismatch
    return thenTy
  | .add left right =>
    let leftTy ← infer context left
    require (leftTy.equiv .number) .numberExpected
    let rightTy ← infer context right
    require (rightTy.equiv .number) .numberExpected
    return .number
  | .var name =>
    match context.lookup name with
    | some ty => return ty
    | none => fail (.unknownVariable name)
  | .function params body =>
    emit (.enterBody params.length)
    let result ← infer (context.extend params) body
    return .function params result
  | .call callee args =>
    let calleeTy ← infer context callee
    match calleeTy with
    | .function params result =>
      require (params.length == args.length) (.wrongArgumentCount params.length args.length)
      checkArgs context 0 args params
      return result
    | _ => fail .functionExpected
  | .sequence statements rest =>
    checkStatements context statements
    infer context rest
  | .const name init rest =>
    let ty ← infer context init
    emit (.bindConst name ty)
    infer (context.bind name ty) rest

/-- Checks arguments against parameters in order; the first argument stands at the given position. -/
def checkArgs (context : Context) (position : Nat) : List Term → List Param → Checking Unit
  | arg :: args, param :: params => do
    let ty ← infer context arg
    require (ty.equiv param.ty) (.argumentMismatch position)
    checkArgs context (position + 1) args params
  | _, _ => pure ()

/-- Checks statements in order and drops their types. -/
def checkStatements (context : Context) : List Term → Checking Unit
  | [] => pure ()
  | statement :: statements => do
    let _ ← infer context statement
    checkStatements context statements

end

/-- The type of a term or its first error, without the events. -/
def typeOf (context : Context) (term : Term) : Except TypeError Ty := (infer context term).outcome

/-- Checks a term with no free variables, and reports the start and the end of the check. -/
def checkClosed (term : Term) : Checking Ty :=
  let inference := infer .empty term
  let verdict :=
    match inference.outcome with
    | .ok ty => Event.accepted ty
    | .error error => Event.rejected error
  ⟨.checkingTerm term :: inference.events ++ [verdict], inference.outcome⟩

end ArrowLang
