import ArrowLang.Proofs.Typing.Invariance

/-!
# Names in types

The names of parameters in the type of a term come from the annotations in the term and from the
types in its context; inference makes up none.
-/

namespace ArrowLang

namespace Ty

mutual

/-- All names of parameters in the type have the property, at every depth. -/
def Named (p : String → Prop) : Ty → Prop
  | boolean | number => True
  | function params result => NamedParams p params ∧ Named p result

def NamedParams (p : String → Prop) : List Param → Prop
  | [] => True
  | ⟨name, ty⟩ :: params => (p name ∧ Named p ty) ∧ NamedParams p params

end

end Ty

/-- The name of the parameter and all names in its type have the property. -/
def Binding.Named (p : String → Prop) (param : Param) : Prop := p param.name ∧ param.ty.Named p

theorem Ty.namedParams_iff {p : String → Prop} {params : List Param} :
    NamedParams p params ↔ ∀ param ∈ params, param.Named p := by
  induction params with
  | nil => simp [NamedParams]
  | cons param params ih =>
    rw [NamedParams, List.forall_mem_cons, ih]
    rfl

namespace Term

mutual

/-- All names in annotations of the term have the property. -/
def Named (p : String → Prop) : Term → Prop
  | boolean _ | number _ | var _ => True
  | conditional cond thenBranch elseBranch =>
    Named p cond ∧ Named p thenBranch ∧ Named p elseBranch
  | add left right => Named p left ∧ Named p right
  | function params body => Ty.NamedParams p params ∧ Named p body
  | call callee args => Named p callee ∧ NamedAll p args
  | sequence statements rest => NamedAll p statements ∧ Named p rest
  | const _ init rest => Named p init ∧ Named p rest

def NamedAll (p : String → Prop) : List Term → Prop
  | [] => True
  | term :: terms => Named p term ∧ NamedAll p terms

end

theorem namedAll_iff {p : String → Prop} {terms : List Term} :
    NamedAll p terms ↔ ∀ term ∈ terms, term.Named p := by
  induction terms with
  | nil => simp [NamedAll]
  | cons term terms ih => rw [NamedAll, List.forall_mem_cons, ih]

end Term

namespace Context

variable {p : String → Prop} {context : Context}

/-- All names in types of the context have the property. -/
def Named (p : String → Prop) (context : Context) : Prop :=
  ∀ name, ∀ ty ∈ context.lookup name, ty.Named p

theorem named_empty : Named p empty := nofun

theorem exists_mem_of_lookupScope {bindings : List (Binding Ty)} {name : String} {ty : Ty}
    (h : lookupScope bindings name = some ty) : ∃ binding ∈ bindings, binding.ty = ty := by
  obtain ⟨binding, hfind, hty⟩ := Option.map_eq_some_iff.mp h
  exact ⟨binding, List.mem_reverse.mp (List.mem_of_find?_eq_some hfind), hty⟩

theorem Named.extend {bindings : List (Binding Ty)} (h : context.Named p)
    (hbindings : ∀ binding ∈ bindings, binding.ty.Named p) :
    (context.extend bindings).Named p := by
  intro name ty hmem
  rw [lookup_extend, Option.mem_def, Option.or_eq_some_iff] at hmem
  obtain hscope | ⟨-, houter⟩ := hmem
  · obtain ⟨binding, hbinding, rfl⟩ := exists_mem_of_lookupScope hscope
    exact hbindings binding hbinding
  · exact h name ty houter

theorem Named.bind {ty : Ty} (h : context.Named p) (name : String) (hty : ty.Named p) :
    (context.bind name ty).Named p := by
  apply h.extend
  intro binding hbinding
  rwa [List.mem_singleton.mp hbinding]

end Context

/-- A type is made of names from annotations and from the context. -/
theorem named_of_typeOf {p : String → Prop} (term : Term) {context : Context} {ty : Ty}
    (hterm : term.Named p) (hcontext : context.Named p) (h : typeOf context term = .ok ty) :
    ty.Named p := by
  -- A type is never taken from a member of a list of terms, so that these hypotheses are not used.
  induction term generalizing context ty with
  | boolean value | number value =>
    cases h
    trivial
  | conditional _ _ _ _ ihthen _ =>
    simp only [typeOf_conditional, bind_eq_ok_iff, guard_eq_ok_iff, Except.ok.injEq] at h
    obtain ⟨condTy, -, -, thenTy, hthen, elseTy, -, -, rfl⟩ := h
    exact ihthen hterm.2.1 hcontext hthen
  | add left right =>
    simp only [typeOf_add, bind_eq_ok_iff, guard_eq_ok_iff, Except.ok.injEq] at h
    obtain ⟨leftTy, -, -, rightTy, -, -, rfl⟩ := h
    trivial
  | var name =>
    rw [typeOf_var] at h
    cases hname : context.lookup name with
    | none => simp [hname] at h
    | some found =>
      rw [hname] at h
      cases h
      exact hcontext name ty hname
  | function params _ ihbody =>
    obtain ⟨hparams, hbody⟩ := hterm
    rw [typeOf_function, bind_eq_ok_iff] at h
    obtain ⟨result, hresult, h⟩ := h
    cases h
    have hinner := hcontext.extend fun param hmem ↦ (Ty.namedParams_iff.mp hparams param hmem).2
    exact ⟨hparams, ihbody hbody hinner hresult⟩
  | call _ _ ihcallee _ =>
    rw [typeOf_call, bind_eq_ok_iff] at h
    obtain ⟨calleeTy, hcallee, h⟩ := h
    have hnamed := ihcallee hterm.1 hcontext hcallee
    cases calleeTy with
    | boolean | number => cases h
    | function params result =>
      simp only [bind_eq_ok_iff, guard_eq_ok_iff, Except.ok.injEq] at h
      obtain ⟨-, -, -, rfl⟩ := h
      exact hnamed.2
  | sequence _ _ _ ihrest =>
    rw [typeOf_sequence, bind_eq_ok_iff] at h
    obtain ⟨-, -, hrest⟩ := h
    exact ihrest hterm.2 hcontext hrest
  | const name _ _ ihinit ihrest =>
    obtain ⟨hinit, hrest⟩ := hterm
    rw [typeOf_const, bind_eq_ok_iff] at h
    obtain ⟨initTy, hinitTy, h⟩ := h
    have hbound := hcontext.bind name (ihinit hinit hcontext hinitTy)
    exact ihrest hrest hbound h

end ArrowLang
