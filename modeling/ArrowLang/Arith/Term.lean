import ArrowLang.Dialect
import ArrowLang.Term

/-!
# Arithmetic terms

The terms and types of the arithmetic dialect, their embedding into the extended dialect, and the
partial way back, which names the first construct that arithmetic lacks.
-/

namespace ArrowLang.Arith

inductive Ty
  | boolean
  | number
deriving DecidableEq

inductive Term
  | boolean (value : Bool)
  | number (value : Binary64)
  | conditional (cond thenBranch elseBranch : Term)
  | add (left right : Term)

namespace Ty

def text : Ty → String
  | boolean => "boolean"
  | number => "number"

/-- The same type in the extended dialect. -/
def embed : Ty → ArrowLang.Ty
  | boolean => .boolean
  | number => .number

end Ty

namespace Term

/-- Equality of terms with numeric equality of literals. -/
def equiv : Term → Term → Bool
  | boolean b, boolean b' => b == b'
  | number x, number x' => x.numericEq x'
  | conditional c t e, conditional c' t' e' => equiv c c' && equiv t t' && equiv e e'
  | add l r, add l' r' => equiv l l' && equiv r r'
  | _, _ => false

/-- The term as program text. -/
def text : Term → String
  | boolean true => "true"
  | boolean false => "false"
  | number value => value.text
  | conditional c t e => "(" ++ text c ++ " ? " ++ text t ++ " : " ++ text e ++ ")"
  | add left right => "(" ++ text left ++ " + " ++ text right ++ ")"

/-- The same term in the extended dialect. -/
def embed : Term → ArrowLang.Term
  | boolean value => .boolean value
  | number value => .number value
  | conditional c t e => .conditional (embed c) (embed t) (embed e)
  | add left right => .add (embed left) (embed right)

end Term

/-- The arithmetic term that embeds as the given one, or the first construct that has no arithmetic
counterpart, parts being visited in the order in which they are written. -/
def restrict : ArrowLang.Term → Except Construct Term
  | .boolean value => .ok (.boolean value)
  | .number value => .ok (.number value)
  | .conditional c t e => do
    let cond ← restrict c
    let thenBranch ← restrict t
    let elseBranch ← restrict e
    return .conditional cond thenBranch elseBranch
  | .add l r => do
    let left ← restrict l
    let right ← restrict r
    return .add left right
  | .var _ => .error .variableReference
  | .function _ _ => .error .function
  | .call _ _ => .error .functionCall
  | .sequence _ _ => .error .statementSequence
  | .const _ _ _ => .error .constBinding

end ArrowLang.Arith
