import ArrowLang.Arith.Term
import ArrowLang.Typing.Error
import ArrowLang.Typing.Traced

/-!
# Events

What a check reports while it runs: which terms it visits, which scopes it opens and how it ends.
-/

namespace ArrowLang

inductive Event
  | checkingSource (dialect : Dialect) (bytes : Nat)
  | checkingArith (term : Arith.Term)
  | visitArith (term : Arith.Term)
  | arithAccepted (ty : Arith.Ty)
  | arithRejected (error : TypeError)
  | checkingTerm (term : Term)
  /-- A subterm is about to be checked under so many scopes. -/
  | visit (term : Term) (depth : Nat)
  | enterBody (params : Nat)
  | bindConst (name : String) (ty : Ty)
  | accepted (ty : Ty)
  | rejected (error : TypeError)

namespace Event

/-- The steps of a traversal are for tracing only; the rest tells where a check starts and ends. -/
def isTrace : Event → Bool
  | visitArith _ => true
  | visit _ _ => true
  | enterBody _ => true
  | bindConst _ _ => true
  | _ => false

def message : Event → String
  | checkingSource dialect bytes =>
    "checking source dialect=" ++ dialect.name ++ " bytes=" ++ toString bytes
  | checkingArith term => "checking arithmetic term term=" ++ term.text
  | visitArith term => "check term=" ++ term.text
  | arithAccepted ty => "arithmetic term is well typed ty=" ++ ty.text
  | arithRejected error => "arithmetic term is ill typed err=" ++ error.message
  | checkingTerm term => "checking term term=" ++ term.text
  | visit term depth => "check term=" ++ term.text ++ " depth=" ++ toString depth
  | enterBody params => "entering function body params=" ++ toString params
  | bindConst name ty => "binding const name=" ++ name ++ " ty=" ++ ty.text
  | accepted ty => "term is well typed ty=" ++ ty.text
  | rejected error => "term is ill typed err=" ++ error.message

/-- The event as a line of a log: its level, then its message. -/
def text (event : Event) : String :=
  (if event.isTrace then "TRACE " else "DEBUG ") ++ event.message

end Event

/-- A computation that reports events and may end in a type error. -/
abbrev Checking := Traced Event TypeError

end ArrowLang
