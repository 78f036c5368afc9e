import ArrowLang.Typing.Event

/-!
# Type inference for arithmetic

Arithmetic terms need no context.  A condition may have either type here.
-/

namespace ArrowLang.Arith

open Traced

/-- The type of an arithmetic term. -/
def infer (term : Term) : Checking Ty := do
  emit (.visitArith term)
  match term with
  | .boolean _ => return .boolean
  | .number _ => return .number
  | .conditional cond thenBranch elseBranch =>
    let _ ← infer cond
    let thenTy ← infer thenBranch
    let elseTy ← infer elseBranch
    require (thenTy == elseTy) .branchMismatch
    return thenTy
  | .add left right =>
    let leftTy ← infer left
    require (leftTy == .number) .numberExpected
    let rightTy ← infer right
    require (rightTy == .number) .numberExpected
    return .number

/-- The type of a term or its first error, without the events. -/
def typeOf (term : Term) : Except TypeError Ty := (infer term).outcome

/-- Checks a term, and reports the start and the end of the check. -/
def check (term : Term) : Checking Ty :=
  let inference := infer term
  let verdict :=
    match inference.outcome with
    | .ok ty => Event.arithAccepted ty
    | .error error => Event.arithRejected error
  ⟨.checkingArith term :: inference.events ++ [verdict], inference.outcome⟩

end ArrowLang.Arith
