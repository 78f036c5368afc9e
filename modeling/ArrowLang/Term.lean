import ArrowLang.Binary64.Shortest
import ArrowLang.Ty

/-!
# Terms

Terms of the extended dialect: literals, conditionals, additions, variables, functions, calls,
statements before a result, and constants.  Printing puts parentheses around every conditional,
addition and function, so that the text determines the term.
-/

namespace ArrowLang

inductive Term
  | boolean (value : Bool)
  | number (value : Binary64)
  | conditional (cond thenBranch elseBranch : Term)
  | add (left right : Term)
  | var (name : String)
  | function (params : List Param) (body : Term)
  | call (callee : Term) (args : List Term)
  /-- Statements whose values are dropped, then the result. -/
  | sequence (statements : List Term) (rest : Term)
  /-- A name for the value of `init`, visible in `rest`. -/
  | const (name : String) (init rest : Term)

namespace Term

/-- Induction over terms, where each member of a list of terms has its own hypothesis. -/
@[elab_as_elim, induction_eliminator]
theorem induction {motive : Term → Prop}
    (boolean : ∀ value, motive (.boolean value)) (number : ∀ value, motive (.number value))
    (conditional : ∀ cond thenBranch elseBranch, motive cond → motive thenBranch →
      motive elseBranch → motive (.conditional cond thenBranch elseBranch))
    (add : ∀ left right, motive left → motive right → motive (.add left right))
    (var : ∀ name, motive (.var name))
    (function : ∀ params body, motive body → motive (.function params body))
    (call : ∀ callee args, motive callee → (∀ arg ∈ args, motive arg) →
      motive (.call callee args))
    (sequence : ∀ statements rest, (∀ statement ∈ statements, motive statement) → motive rest →
      motive (.sequence statements rest))
    (const : ∀ name init rest, motive init → motive rest → motive (.const name init rest))
    (term : Term) : motive term :=
  @Term.rec motive (fun terms ↦ ∀ term ∈ terms, motive term) boolean number conditional add var
    function call sequence const (List.forall_mem_nil _)
    (fun _ _ hterm hterms ↦ List.forall_mem_cons.mpr ⟨hterm, hterms⟩) term

mutual

/-- Equality of terms with numeric equality of literals; parameters are equal when their names are
and their types are equivalent. -/
def equiv : Term → Term → Bool
  | boolean b, boolean b' => b == b'
  | number x, number x' => x.numericEq x'
  | conditional c t e, conditional c' t' e' => equiv c c' && equiv t t' && equiv e e'
  | add l r, add l' r' => equiv l l' && equiv r r'
  | var name, var name' => name == name'
  | function params body, function params' body' =>
    params.isEqv params' Binding.equiv && equiv body body'
  | call callee args, call callee' args' => equiv callee callee' && equivAll args args'
  | sequence statements rest, sequence statements' rest' =>
    equivAll statements statements' && equiv rest rest'
  | const name init rest, const name' init' rest' =>
    name == name' && equiv init init' && equiv rest rest'
  | _, _ => false

def equivAll : List Term → List Term → Bool
  | [], [] => true
  | term :: terms, term' :: terms' => equiv term term' && equivAll terms terms'
  | _, _ => false

end

mutual

/-- The term as program text. -/
def text : Term → String
  | boolean true => "true"
  | boolean false => "false"
  | number value => value.text
  | conditional c t e => "(" ++ text c ++ " ? " ++ text t ++ " : " ++ text e ++ ")"
  | add left right => "(" ++ text left ++ " + " ++ text right ++ ")"
  | var name => name
  | function params body =>
    "((" ++ ", ".intercalate (Ty.paramTexts params) ++ ") => " ++ text body ++ ")"
  | call callee args => text callee ++ "(" ++ ", ".intercalate (texts args) ++ ")"
  | sequence statements rest => String.join ((texts statements).map (· ++ "; ")) ++ text rest
  | const name init rest => "const " ++ name ++ " = " ++ text init ++ "; " ++ text rest

def texts : List Term → List String
  | [] => []
  | term :: terms => text term :: texts terms

end

end Term

end ArrowLang
