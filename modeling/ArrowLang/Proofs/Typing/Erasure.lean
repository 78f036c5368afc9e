import ArrowLang.Typing.Context
import Mathlib.Data.List.Induction
import Mathlib.Logic.Function.Basic

/-!
# Types without parameter names

A simple type is a type whose parameters have no names, and an environment maps each name to at most
one simple type.  Erasing the names turns equivalence of types into equality, and turns the chain of
scopes of a context into an environment in which the latest binding of a name counts.
-/

namespace ArrowLang

inductive SimpleTy
  | boolean
  | number
  | function (params : List SimpleTy) (result : SimpleTy)

namespace Ty

mutual

/-- The type without the names of its parameters, at every depth. -/
def erase : Ty → SimpleTy
  | boolean => .boolean
  | number => .number
  | function params result => .function (eraseParams params) (erase result)

def eraseParams : List Param → List SimpleTy
  | [] => []
  | ⟨_, ty⟩ :: params => erase ty :: eraseParams params

end

attribute [simp] erase

theorem eraseParams_eq_map (params : List Param) :
    eraseParams params = params.map fun param ↦ param.ty.erase := by
  induction params with
  | nil => rfl
  | cons param params ih => rw [eraseParams, ih, List.map_cons]

@[simp]
theorem length_eraseParams (params : List Param) :
    (eraseParams params).length = params.length := by
  rw [eraseParams_eq_map, List.length_map]

theorem paramsEquiv_iff_eraseParams_eq {left : List Param}
    (hleft : ∀ param ∈ left, ∀ ty, param.ty.equiv ty ↔ param.ty.erase = ty.erase)
    (right : List Param) : paramsEquiv left right ↔ eraseParams left = eraseParams right := by
  induction left generalizing right with
  | nil => cases right <;> simp [paramsEquiv, eraseParams]
  | cons param params ih =>
    rw [List.forall_mem_cons] at hleft
    cases right with
    | nil => simp [paramsEquiv, eraseParams]
    | cons param' params' =>
      rw [paramsEquiv, Bool.and_eq_true, hleft.1 param'.ty, ih hleft.2 params']
      simp [eraseParams]

/-- Equivalence is equality of what is left without parameter names. -/
theorem equiv_iff_erase_eq (left right : Ty) : left.equiv right ↔ left.erase = right.erase := by
  induction left generalizing right with
  | boolean => cases right <;> simp [equiv]
  | number => cases right <;> simp [equiv]
  | function params result ihparams ihresult =>
    cases right with
    | boolean => simp [equiv]
    | number => simp [equiv]
    | function params' result' =>
      rw [equiv, Bool.and_eq_true, paramsEquiv_iff_eraseParams_eq ihparams params',
        ihresult result']
      simp

end Ty

/-- At most one simple type for each name. -/
abbrev Environment := String → Option SimpleTy

namespace Environment

/-- The environment with one more name, which hides an earlier one. -/
def bind (env : Environment) (name : String) (ty : SimpleTy) : Environment :=
  Function.update env name (some ty)

/-- The environment with the parameters bound in order, so that a later one hides an earlier one. -/
def bindAll (env : Environment) (params : List Param) : Environment :=
  params.foldl (fun env param ↦ env.bind param.name param.ty.erase) env

theorem bindAll_append_singleton (env : Environment) (params : List Param) (param : Param) :
    env.bindAll (params ++ [param]) = (env.bindAll params).bind param.name param.ty.erase := by
  rw [bindAll, List.foldl_append]
  rfl

end Environment

namespace Context

/-- The simple type that a context finds for each name. -/
def erase (context : Context) : Environment := fun name ↦ (context.lookup name).map Ty.erase

theorem lookupScope_append_singleton (bindings : List (Binding Ty)) (binding : Binding Ty)
    (name : String) :
    lookupScope (bindings ++ [binding]) name =
      if binding.name = name then some binding.ty else lookupScope bindings name := by
  unfold lookupScope
  rw [List.reverse_append, List.reverse_singleton, List.singleton_append, List.find?_cons]
  by_cases hname : binding.name = name
  · simp [hname]
  · rw [beq_eq_false_iff_ne.mpr hname, if_neg hname]

/-- A scope acts as if its bindings were made one after the other. -/
theorem erase_extend (context : Context) (bindings : List (Binding Ty)) :
    (context.extend bindings).erase = context.erase.bindAll bindings := by
  induction bindings using List.reverseRecOn with
  | nil => rfl
  | append_singleton bindings binding ih =>
    rw [Environment.bindAll_append_singleton, ← ih]
    funext name
    simp only [erase, lookup, lookupScope_append_singleton, Environment.bind, Function.update_apply]
    by_cases hname : name = binding.name
    · simp [hname]
    · simp [hname, Ne.symm hname]

theorem erase_bind (context : Context) (name : String) (ty : Ty) :
    (context.bind name ty).erase = context.erase.bind name ty.erase :=
  erase_extend context [⟨name, ty⟩]

end Context

end ArrowLang
