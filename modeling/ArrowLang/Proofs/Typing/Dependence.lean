import ArrowLang.Proofs.Typing.Agreement
import ArrowLang.Proofs.Typing.Invariance

/-!
# What the outcome of inference depends on

The outcome depends on the context only through the free names of the term, and what a part of a
term binds is of no concern to the other parts.  It depends on the types in a term and its context
only up to the names of parameters.
-/

namespace ArrowLang

variable {context context' : Context} {term term' : Term}

theorem typeOf_eq_of_lookup_eq
    (h : ∀ name ∈ term.freeNames, context.lookup name = context'.lookup name) :
    typeOf context term = typeOf context' term := by
  have hrefl (ty : Ty) : ty = ty := rfl
  apply SameOutcome.eq_iff.mp
  exact (Term.Matches.refl hrefl term).infersAlike Ty.congruence_eq (.of_lookup_eq hrefl h)

/-- A closed term has the same outcome everywhere. -/
theorem typeOf_eq_of_closed (hclosed : term.freeNames = ∅) (context context' : Context) :
    typeOf context term = typeOf context' term := by
  apply typeOf_eq_of_lookup_eq
  simp [hclosed]

/-- A further scope makes no difference to a term in which its names are not free. -/
theorem typeOf_extend {bindings : List (Binding Ty)}
    (hfresh : ∀ binding ∈ bindings, binding.name ∉ term.freeNames) :
    typeOf (context.extend bindings) term = typeOf context term := by
  apply typeOf_eq_of_lookup_eq
  intro name hname
  have hscope : Context.lookupScope bindings name = none := by
    rw [Context.lookupScope_eq_none_iff, List.mem_map]
    rintro ⟨binding, hbinding, rfl⟩
    exact hfresh binding hbinding hname
  rw [Context.lookup_extend, hscope, Option.none_or]

/-- Only the context gives types to the free names of a term. -/
theorem isBound_of_typeOf_eq_ok {ty : Ty} (h : typeOf context term = .ok ty) :
    ∀ name ∈ term.freeNames, context.isBound name := by
  intro name hname
  have hsome := ((infers context term).hasType h).isSome_of_mem_freeNames name hname
  rwa [Context.erase, Option.isSome_map] at hsome

/-- Two terms of one form, with parts that have the same outcomes in the context.  In the rest of a
constant the context is another one, so that the rest has to be the same. -/
inductive SameParts (context : Context) : Term → Term → Prop
  | conditional {cond cond' thenBranch thenBranch' elseBranch elseBranch' : Term} :
      typeOf context cond = typeOf context cond' →
      typeOf context thenBranch = typeOf context thenBranch' →
      typeOf context elseBranch = typeOf context elseBranch' →
      SameParts context (.conditional cond thenBranch elseBranch)
        (.conditional cond' thenBranch' elseBranch')
  | add {left left' right right' : Term} :
      typeOf context left = typeOf context left' → typeOf context right = typeOf context right' →
      SameParts context (.add left right) (.add left' right')
  | call {callee callee' : Term} {args args' : List Term} :
      typeOf context callee = typeOf context callee' →
      List.Forall₂ (fun arg arg' ↦ typeOf context arg = typeOf context arg') args args' →
      SameParts context (.call callee args) (.call callee' args')
  | sequence {statements statements' : List Term} {rest rest' : Term} :
      List.Forall₂ (fun statement statement' ↦
        typeOf context statement = typeOf context statement') statements statements' →
      typeOf context rest = typeOf context rest' →
      SameParts context (.sequence statements rest) (.sequence statements' rest')
  | const {name : String} {init init' rest : Term} :
      typeOf context init = typeOf context init' →
      SameParts context (.const name init rest) (.const name init' rest)

/-- What a part binds is seen nowhere else, so that a part can be exchanged for any other one with
the same outcome. -/
theorem SameParts.typeOf_eq (h : SameParts context term term') :
    typeOf context term = typeOf context term' := by
  cases h with
  | conditional hcond hthen helse =>
    rw [typeOf_conditional, typeOf_conditional, hcond, hthen, helse]
  | add hleft hright => rw [typeOf_add, typeOf_add, hleft, hright]
  | call hcallee hargs =>
    apply SameOutcome.eq_iff.mp
    exact InfersAlike.call Ty.congruence_eq (SameOutcome.eq_iff.mpr hcallee)
      (hargs.imp fun _ _ ↦ SameOutcome.eq_iff.mpr)
  | sequence hstatements hrest =>
    apply SameOutcome.eq_iff.mp
    exact InfersAlike.sequence (hstatements.imp fun _ _ ↦ SameOutcome.eq_iff.mpr)
      (SameOutcome.eq_iff.mpr hrest)
  | const hinit => rw [typeOf_const, typeOf_const, hinit]

/-- The outcome of inference depends on the context only through the free names of the term.  So a
scope that binds none of them makes no difference, a closed term has the same outcome everywhere,
and bindings inside one part of a term are not visible in the others: a term with a type has all its
free names from the context, and a part can be exchanged for one that binds other names. -/
theorem typeOf_depends_on_free_names :
    (∀ (term : Term) (context context' : Context),
      (∀ name ∈ term.freeNames, context.lookup name = context'.lookup name) →
      typeOf context term = typeOf context' term) ∧
    (∀ (term : Term) (context : Context) (bindings : List (Binding Ty)),
      (∀ binding ∈ bindings, binding.name ∉ term.freeNames) →
      typeOf (context.extend bindings) term = typeOf context term) ∧
    (∀ term : Term, term.freeNames = ∅ → ∀ context context' : Context,
      typeOf context term = typeOf context' term) ∧
    (∀ (term : Term) (context : Context) (ty : Ty), typeOf context term = .ok ty →
      ∀ name ∈ term.freeNames, context.isBound name) ∧
    (∀ (term term' : Term) (context : Context), SameParts context term term' →
      typeOf context term = typeOf context term') :=
  ⟨fun _ _ _ ↦ typeOf_eq_of_lookup_eq, fun _ _ _ ↦ typeOf_extend, fun _ ↦ typeOf_eq_of_closed,
    fun _ _ _ ↦ isBound_of_typeOf_eq_ok, fun _ _ _ ↦ SameParts.typeOf_eq⟩

/-- Inference respects equivalence of types: on terms that differ only in the names of parameters
inside types and in numbers, in contexts with equivalent types, it finds equivalent types or reports
the same error. -/
theorem typeOf_respects_equiv (hterm : Term.Matches (fun ty ty' ↦ ty.equiv ty') term term')
    (hcontext : ∀ name, (context.lookup name = none ∧ context'.lookup name = none) ∨
      ∃ ty ty', context.lookup name = some ty ∧ context'.lookup name = some ty' ∧ ty.equiv ty') :
    (∃ ty ty', typeOf context term = .ok ty ∧ typeOf context' term' = .ok ty' ∧ ty.equiv ty') ∨
      ∃ error, typeOf context term = .error error ∧ typeOf context' term' = .error error := by
  have hmatches : context.MatchesOn (fun ty ty' ↦ ty.equiv ty') term.freeNames context' := by
    intro name _
    obtain ⟨hnone, hnone'⟩ | ⟨ty, ty', hty, hty', hequiv⟩ := hcontext name
    · rw [hnone, hnone']
      exact .none
    · rw [hty, hty']
      exact .some hequiv
  have halike := hterm.infersAlike Ty.congruence_equiv hmatches
  rw [InfersAlike] at halike
  generalize typeOf context term = result at halike ⊢
  generalize typeOf context' term' = result' at halike ⊢
  cases halike with
  | ok hequiv => exact .inl ⟨_, _, rfl, rfl, hequiv⟩
  | error error => exact .inr ⟨error, rfl, rfl⟩

/-- A type of functions, with a name for its parameter. -/
def samplePredicate (name : String) : Ty := .function [⟨name, .number⟩] .boolean

/-- A function of predicates that is given the predicate `f`. -/
def samplePassing (name : String) : Term :=
  .call (.function [⟨"g", samplePredicate name⟩] (.var "g")) [.var "f"]

theorem typeOf_respects_equiv_sample :
    (∃ ty ty', typeOf (.top [⟨"f", samplePredicate "a"⟩]) (samplePassing "p") = .ok ty ∧
      typeOf (.top [⟨"f", samplePredicate "b"⟩]) (samplePassing "q") = .ok ty' ∧ ty.equiv ty') ∨
    ∃ error, typeOf (.top [⟨"f", samplePredicate "a"⟩]) (samplePassing "p") = .error error ∧
      typeOf (.top [⟨"f", samplePredicate "b"⟩]) (samplePassing "q") = .error error := by
  apply typeOf_respects_equiv
  · refine .call (.function (.cons ⟨rfl, by decide⟩ .nil) (.var "g")) rfl ?_
    simpa using Term.Matches.var "f"
  · intro name
    by_cases hname : "f" = name
    · refine .inr ⟨samplePredicate "a", samplePredicate "b", ?_, ?_, by decide⟩
      · simp [Context.lookup, Context.lookupScope, hname]
      · simp [Context.lookup, Context.lookupScope, hname]
    · exact .inl (by simp [Context.lookup, Context.lookupScope, hname])

end ArrowLang
