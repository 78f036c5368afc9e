import ArrowLang.Proofs.Typing.Dependence

/-!
# Inlining

A name can be replaced by a term that has the same type.  The term then stands in scopes where the
name stood before, so that nothing may be bound there that is free in the term.  With this the
outcome stays the same, be it a type or an error; in particular a constant can be replaced by its
initial value.
-/

namespace ArrowLang

namespace Term

mutual

/-- The names of parameters and constants that are bound in a term, at every depth. -/
@[simp]
def boundNames : Term → Finset String
  | boolean _ => ∅
  | number _ => ∅
  | conditional cond thenBranch elseBranch =>
    boundNames cond ∪ boundNames thenBranch ∪ boundNames elseBranch
  | add left right => boundNames left ∪ boundNames right
  | var _ => ∅
  | function params body => (params.map Binding.name).toFinset ∪ boundNames body
  | call callee args => boundNames callee ∪ boundNamesAll args
  | sequence statements rest => boundNamesAll statements ∪ boundNames rest
  | const name init rest => {name} ∪ (boundNames init ∪ boundNames rest)

@[simp]
def boundNamesAll : List Term → Finset String
  | [] => ∅
  | term :: terms => boundNames term ∪ boundNamesAll terms

end

mutual

/-- The term with a value for every free occurrence of a name.  Binders stay as they are, also if
they bind a name that is free in the value. -/
def inline (term : Term) (name : String) (value : Term) : Term :=
  match term with
  | boolean b => boolean b
  | number x => number x
  | conditional cond thenBranch elseBranch =>
    conditional (cond.inline name value) (thenBranch.inline name value)
      (elseBranch.inline name value)
  | add left right => add (left.inline name value) (right.inline name value)
  | var other => if other = name then value else var other
  | function params body =>
    function params (if name ∈ params.map Binding.name then body else body.inline name value)
  | call callee args => call (callee.inline name value) (inlineAll args name value)
  | sequence statements rest => sequence (inlineAll statements name value) (rest.inline name value)
  | const other init rest =>
    const other (init.inline name value) (if other = name then rest else rest.inline name value)

def inlineAll (terms : List Term) (name : String) (value : Term) : List Term :=
  match terms with
  | [] => []
  | term :: terms => term.inline name value :: inlineAll terms name value

end

end Term

/-- What the first context says of a name, the second says of a value.  On all other names in the
set the contexts agree. -/
structure Replaces (name : String) (value : Term) (names : Finset String)
    (context context' : Context) : Prop where
  same : typeOf context (.var name) = typeOf context' value
  others : context.MatchesOn Eq (names.erase name) context'

namespace Replaces

variable {name : String} {value : Term} {names names' : Finset String}
  {context context' : Context}

theorem mono (h : Replaces name value names context context') (hsubset : names' ⊆ names) :
    Replaces name value names' context context' :=
  ⟨h.same, h.others.mono (Finset.erase_subset_erase name hsubset)⟩

/-- A scope that neither binds the name nor a free name of the value. -/
theorem extend {params : List Param}
    (h : Replaces name value (names \ (params.map Binding.name).toFinset) context context')
    (hname : name ∉ params.map Binding.name)
    (hvalue : Disjoint (params.map Binding.name).toFinset value.freeNames) :
    Replaces name value names (context.extend params) (context'.extend params) := by
  have hmem {param : Param} (hparam : param ∈ params) : param.name ∈ params.map Binding.name :=
    List.mem_map_of_mem hparam
  constructor
  · rw [typeOf_extend, typeOf_extend, h.same]
    · intro param hparam
      exact Finset.disjoint_left.mp hvalue (List.mem_toFinset.mpr (hmem hparam))
    · intro param hparam hfree
      rw [Term.freeNames, Finset.mem_singleton] at hfree
      exact hname (hfree ▸ hmem hparam)
  · refine .extend (Binding.Matches.reflAll (fun _ ↦ rfl) params) (h.others.mono ?_)
    rw [Finset.erase_sdiff_comm]

/-- A scope that binds the name hides the difference between the contexts. -/
theorem infersAlike_of_hidden {params : List Param} {term : Term}
    (h : Replaces name value (term.freeNames \ (params.map Binding.name).toFinset) context context')
    (hname : name ∈ params.map Binding.name) :
    InfersAlike Eq (context.extend params) (context'.extend params) term term := by
  refine (Term.Matches.refl (fun _ ↦ rfl) term).infersAlike Ty.congruence_eq ?_
  refine .extend (Binding.Matches.reflAll (fun _ ↦ rfl) params) (h.others.mono ?_)
  rw [Finset.erase_eq_of_notMem]
  simp [hname]

/-- What holds of the members of a list of terms when a name is replaced holds of the list. -/
theorem forall₂_infersAlike {terms : List Term}
    (hterms : ∀ term ∈ terms, Replaces name value term.freeNames context context' →
      Disjoint term.boundNames value.freeNames →
      InfersAlike Eq context context' term (term.inline name value))
    (h : Replaces name value (Term.freeNamesAll terms) context context')
    (hcapture : Disjoint (Term.boundNamesAll terms) value.freeNames) :
    List.Forall₂ (InfersAlike Eq context context') terms (Term.inlineAll terms name value) := by
  induction terms with
  | nil => exact .nil
  | cons term terms ih =>
    rw [List.forall_mem_cons] at hterms
    rw [Term.boundNamesAll, Finset.disjoint_union_left] at hcapture
    exact .cons (hterms.1 (h.mono Finset.subset_union_left) hcapture.1)
      (ih hterms.2 (h.mono Finset.subset_union_right) hcapture.2)

/-- Inference ends alike before and after a name is replaced by a value that is not captured. -/
theorem infersAlike (term : Term) {context context' : Context}
    (h : Replaces name value term.freeNames context context')
    (hcapture : Disjoint term.boundNames value.freeNames) :
    InfersAlike Eq context context' term (term.inline name value) := by
  -- The contexts are general, as a function or a constant extends both of them.
  induction term generalizing context context' with
  | boolean b => exact .ok rfl
  | number x => exact .ok rfl
  | conditional _ _ _ ihcond ihthen ihelse =>
    simp only [Term.boundNames, Finset.disjoint_union_left] at hcapture
    obtain ⟨⟨hcond, hthen⟩, helse⟩ := hcapture
    have hfirst := h.mono Finset.subset_union_left
    exact .conditional Ty.congruence_eq
      (ihcond (hfirst.mono Finset.subset_union_left) hcond)
      (ihthen (hfirst.mono Finset.subset_union_right) hthen)
      (ihelse (h.mono Finset.subset_union_right) helse)
  | add _ _ ihleft ihright =>
    rw [Term.boundNames, Finset.disjoint_union_left] at hcapture
    exact .add Ty.congruence_eq (ihleft (h.mono Finset.subset_union_left) hcapture.1)
      (ihright (h.mono Finset.subset_union_right) hcapture.2)
  | var other =>
    rw [Term.inline]
    split
    case isTrue hother =>
      rw [hother]
      exact SameOutcome.eq_iff.mpr h.same
    case isFalse hother =>
      apply InfersAlike.var
      apply h.others
      simp [hother]
  | function params _ ihbody =>
    rw [Term.boundNames, Finset.disjoint_union_left] at hcapture
    rw [Term.inline]
    refine .function Ty.congruence_eq (Binding.Matches.reflAll (fun _ ↦ rfl) params) ?_
    -- A parameter of the same name ends the replacement.
    split
    case isTrue hname => exact h.infersAlike_of_hidden hname
    case isFalse hname => exact ihbody (h.extend hname hcapture.1) hcapture.2
  | call _ _ ihcallee ihargs =>
    rw [Term.boundNames, Finset.disjoint_union_left] at hcapture
    exact .call Ty.congruence_eq (ihcallee (h.mono Finset.subset_union_left) hcapture.1)
      (forall₂_infersAlike (fun arg hmem ↦ ihargs arg hmem) (h.mono Finset.subset_union_right)
        hcapture.2)
  | sequence _ _ ihstatements ihrest =>
    rw [Term.boundNames, Finset.disjoint_union_left] at hcapture
    exact .sequence
      (forall₂_infersAlike (fun statement hmem ↦ ihstatements statement hmem)
        (h.mono Finset.subset_union_left) hcapture.1)
      (ihrest (h.mono Finset.subset_union_right) hcapture.2)
  | const other _ rest ihinit ihrest =>
    simp only [Term.boundNames, Finset.disjoint_union_left] at hcapture
    obtain ⟨hother, hinit, hrest⟩ := hcapture
    rw [Term.inline]
    refine .const (ihinit (h.mono Finset.subset_union_left) hinit) fun ty _ hty ↦ ?_
    subst hty
    have hscope : Replaces name value
        (rest.freeNames \ (([⟨other, ty⟩] : List Param).map Binding.name).toFinset)
        context context' := by
      apply h.mono
      simp [Finset.sdiff_singleton_eq_erase]
    split
    case isTrue hname => exact hscope.infersAlike_of_hidden (by simp [hname])
    case isFalse hname =>
      have hrestScope := hscope.extend (by simp [Ne.symm hname]) hother
      exact ihrest hrestScope hrest

/-- Without the binding of a name, a value of the same type takes its place. -/
theorem of_bind {ty : Ty} (names : Finset String) (hvalue : typeOf context value = .ok ty) :
    Replaces name value names (context.bind name ty) context := by
  constructor
  · rw [typeOf_var, hvalue, Context.bind, Context.lookup_extend]
    simp [Context.lookupScope]
  · refine .of_lookup_eq (fun _ ↦ rfl) fun other hother ↦ ?_
    have hne : other ≠ name := Finset.ne_of_mem_erase hother
    have hscope : Context.lookupScope [⟨name, ty⟩] other = none :=
      Context.lookupScope_eq_none_iff.mpr (by simpa using hne)
    rw [Context.bind, Context.lookup_extend, hscope, Option.none_or]

end Replaces

/-- A constant with a type is as good as its initial value in place of its name, provided that the
rest binds no name that is free in the initial value.  The name itself may be free there and then
refers to an outer binding. -/
theorem typeOf_const_eq_typeOf_inline {context : Context} {name : String} {init rest : Term}
    {ty : Ty} (hinit : typeOf context init = .ok ty)
    (hcapture : Disjoint rest.boundNames init.freeNames) :
    typeOf context (.const name init rest) = typeOf context (rest.inline name init) :=
  calc
    typeOf context (.const name init rest) = typeOf (context.bind name ty) rest := by
      rw [typeOf_const, hinit, ok_bind]
    _ = typeOf context (rest.inline name init) := by
      apply SameOutcome.eq_iff.mp
      exact Replaces.infersAlike rest (.of_bind rest.freeNames hinit) hcapture

/-- A function `x` of numbers and a number `n`. -/
def sampleScope : Context :=
  .top [⟨"x", .function [⟨"a", .number⟩] .number⟩, ⟨"n", .number⟩]

def sampleInit : Term := .call (.var "x") [.var "n"]

/-- A function that binds a further constant to the value of a term. -/
def sampleRest (term : Term) : Term :=
  .function [⟨"y", .number⟩] (.const "z" term (.add (.var "z") term))

/-- With the constant `x` for `x(n)`, where the `x` that is called is the outer one. -/
theorem typeOf_const_eq_typeOf_inline_sample :
    typeOf sampleScope sampleInit = .ok .number ∧
    Disjoint (sampleRest (.var "x")).boundNames sampleInit.freeNames ∧
    typeOf sampleScope (.const "x" sampleInit (sampleRest (.var "x"))) =
      typeOf sampleScope (sampleRest sampleInit) := by
  have hinit : typeOf sampleScope sampleInit = .ok .number := rfl
  have hcapture : Disjoint (sampleRest (.var "x")).boundNames sampleInit.freeNames := by decide
  exact ⟨hinit, hcapture, typeOf_const_eq_typeOf_inline hinit hcapture⟩

end ArrowLang
