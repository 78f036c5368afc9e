/-!
# Types

A type is `boolean`, `number` or the type of functions with named parameters.  Parameter names are
carried for printing only: two types are equivalent when they agree position by position, whatever
their parameters are called.
-/

namespace ArrowLang

/-- A name together with its type. -/
structure Binding (τ : Type) where
  name : String
  ty : τ

inductive Ty
  | boolean
  | number
  | function (params : List (Binding Ty)) (result : Ty)

/-- A function parameter. -/
abbrev Param := Binding Ty

namespace Ty

/-- Induction over types, where the type of each parameter has its own hypothesis. -/
@[elab_as_elim, induction_eliminator]
theorem induction {motive : Ty → Prop} (boolean : motive .boolean) (number : motive .number)
    (function : ∀ params result, (∀ param ∈ params, motive param.ty) → motive result →
      motive (.function params result))
    (ty : Ty) : motive ty :=
  @Ty.rec motive (fun params ↦ ∀ param ∈ params, motive param.ty) (fun param ↦ motive param.ty)
    boolean number function (List.forall_mem_nil _)
    (fun _ _ hparam hparams ↦ List.forall_mem_cons.mpr ⟨hparam, hparams⟩) (fun _ _ hty ↦ hty) ty

def isFunction : Ty → Bool
  | function _ _ => true
  | _ => false

mutual

/-- Equality of types up to the names of parameters, at every depth. -/
def equiv : Ty → Ty → Bool
  | boolean, boolean => true
  | number, number => true
  | function params result, function params' result' =>
    paramsEquiv params params' && equiv result result'
  | _, _ => false

/-- Parameter lists of one length whose types are equivalent in order. -/
def paramsEquiv : List Param → List Param → Bool
  | [], [] => true
  | ⟨_, ty⟩ :: params, ⟨_, ty'⟩ :: params' => equiv ty ty' && paramsEquiv params params'
  | _, _ => false

end

mutual

/-- The type as it is written in an annotation. -/
def text : Ty → String
  | boolean => "boolean"
  | number => "number"
  | function params result => "(" ++ ", ".intercalate (paramTexts params) ++ ") => " ++ text result

def paramTexts : List Param → List String
  | [] => []
  | ⟨name, ty⟩ :: params => (name ++ ": " ++ text ty) :: paramTexts params

end

end Ty

/-- Equality of parameters: the same name and equivalent types. -/
def Binding.equiv (p q : Param) : Bool := p.name == q.name && p.ty.equiv q.ty

end ArrowLang
