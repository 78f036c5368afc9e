import ArrowLang.Proofs.Typing.Erasure
import ArrowLang.Term
import Mathlib.Data.List.Forall2

/-!
# The typing rules

The simply typed system over terms, with simple types and a flat environment.  There is one rule for
each form of term, types are compared by equality only, and nothing is said about an order in which
subterms are looked at.  As the rules are directed by the term, each can be read backwards.
-/

namespace ArrowLang

/-- A term has a simple type in an environment. -/
inductive HasType : Environment → Term → SimpleTy → Prop
  | boolean {env : Environment} (value : Bool) : HasType env (.boolean value) .boolean
  | number {env : Environment} (value : Binary64) : HasType env (.number value) .number
  | conditional {env : Environment} {cond thenBranch elseBranch : Term} {ty : SimpleTy} :
      HasType env cond .boolean → HasType env thenBranch ty → HasType env elseBranch ty →
      HasType env (.conditional cond thenBranch elseBranch) ty
  | add {env : Environment} {left right : Term} :
      HasType env left .number → HasType env right .number → HasType env (.add left right) .number
  | var {env : Environment} {name : String} {ty : SimpleTy} :
      env name = some ty → HasType env (.var name) ty
  | function {env : Environment} {params : List Param} {body : Term} {result : SimpleTy} :
      HasType (env.bindAll params) body result →
      HasType env (.function params body) (.function (Ty.eraseParams params) result)
  /-- As many arguments as parameters, of the same types position by position. -/
  | call {env : Environment} {callee : Term} {args : List Term} {params : List SimpleTy}
      {result : SimpleTy} :
      HasType env callee (.function params result) → args.length = params.length →
      (∀ pair ∈ args.zip params, HasType env pair.1 pair.2) → HasType env (.call callee args) result
  /-- Every statement has some type. -/
  | sequence {env : Environment} {statements : List Term} {types : List SimpleTy} {rest : Term}
      {ty : SimpleTy} :
      statements.length = types.length →
      (∀ pair ∈ statements.zip types, HasType env pair.1 pair.2) → HasType env rest ty →
      HasType env (.sequence statements rest) ty
  | const {env : Environment} {name : String} {init rest : Term} {initTy ty : SimpleTy} :
      HasType env init initTy → HasType (env.bind name initTy) rest ty →
      HasType env (.const name init rest) ty

/-- A term has some type. -/
def Typable (env : Environment) (term : Term) : Prop := ∃ ty, HasType env term ty

namespace HasType

variable {env : Environment} {ty : SimpleTy}

theorem boolean_iff {value : Bool} : HasType env (.boolean value) ty ↔ ty = .boolean := by
  constructor
  · intro h
    cases h
    rfl
  · rintro rfl
    exact .boolean value

theorem number_iff {value : Binary64} : HasType env (.number value) ty ↔ ty = .number := by
  constructor
  · intro h
    cases h
    rfl
  · rintro rfl
    exact .number value

theorem conditional_iff {cond thenBranch elseBranch : Term} :
    HasType env (.conditional cond thenBranch elseBranch) ty ↔
      HasType env cond .boolean ∧ HasType env thenBranch ty ∧ HasType env elseBranch ty := by
  constructor
  · intro h
    cases h with
    | conditional hcond hthen helse => exact ⟨hcond, hthen, helse⟩
  · rintro ⟨hcond, hthen, helse⟩
    exact .conditional hcond hthen helse

theorem add_iff {left right : Term} :
    HasType env (.add left right) ty ↔
      ty = .number ∧ HasType env left .number ∧ HasType env right .number := by
  constructor
  · intro h
    cases h with
    | add hleft hright => exact ⟨rfl, hleft, hright⟩
  · rintro ⟨rfl, hleft, hright⟩
    exact .add hleft hright

theorem var_iff {name : String} : HasType env (.var name) ty ↔ env name = some ty := by
  constructor
  · intro h
    cases h with
    | var hname => exact hname
  · exact .var

theorem function_iff {params : List Param} {body : Term} :
    HasType env (.function params body) ty ↔
      ∃ result, ty = .function (Ty.eraseParams params) result ∧
        HasType (env.bindAll params) body result := by
  constructor
  · intro h
    cases h with
    | function hbody => exact ⟨_, rfl, hbody⟩
  · rintro ⟨result, rfl, hbody⟩
    exact .function hbody

theorem call_iff {callee : Term} {args : List Term} :
    HasType env (.call callee args) ty ↔
      ∃ params, HasType env callee (.function params ty) ∧
        List.Forall₂ (HasType env) args params := by
  constructor
  · intro h
    cases h with
    | call hcallee hlength hargs =>
      exact ⟨_, hcallee, List.forall₂_iff_zip.mpr ⟨hlength, fun hpair ↦ hargs _ hpair⟩⟩
  · rintro ⟨params, hcallee, hargs⟩
    obtain ⟨hlength, hzip⟩ := List.forall₂_iff_zip.mp hargs
    exact .call hcallee hlength fun pair hpair ↦ hzip hpair

/-- The types of a list of terms exist as soon as each term has one. -/
theorem forall₂_of_typable {terms : List Term} (hterms : ∀ term ∈ terms, Typable env term) :
    ∃ types, List.Forall₂ (HasType env) terms types := by
  induction terms with
  | nil => exact ⟨[], .nil⟩
  | cons term terms ih =>
    rw [List.forall_mem_cons] at hterms
    obtain ⟨⟨termTy, hterm⟩, hrest⟩ := hterms
    obtain ⟨types, htypes⟩ := ih hrest
    exact ⟨termTy :: types, .cons hterm htypes⟩

theorem typable_of_forall₂ {terms : List Term} {types : List SimpleTy}
    (htypes : List.Forall₂ (HasType env) terms types) : ∀ term ∈ terms, Typable env term := by
  induction htypes with
  | nil => simp
  | cons hterm _ ih => exact List.forall_mem_cons.mpr ⟨⟨_, hterm⟩, ih⟩

theorem sequence_iff {statements : List Term} {rest : Term} :
    HasType env (.sequence statements rest) ty ↔
      (∀ statement ∈ statements, Typable env statement) ∧ HasType env rest ty := by
  constructor
  · intro h
    cases h with
    | sequence hlength hstatements hrest =>
      have htypes := List.forall₂_iff_zip.mpr ⟨hlength, fun hpair ↦ hstatements _ hpair⟩
      exact ⟨typable_of_forall₂ htypes, hrest⟩
  · rintro ⟨hstatements, hrest⟩
    obtain ⟨types, htypes⟩ := forall₂_of_typable hstatements
    obtain ⟨hlength, hzip⟩ := List.forall₂_iff_zip.mp htypes
    exact .sequence hlength (fun pair hpair ↦ hzip hpair) hrest

theorem const_iff {name : String} {init rest : Term} :
    HasType env (.const name init rest) ty ↔
      ∃ initTy, HasType env init initTy ∧ HasType (env.bind name initTy) rest ty := by
  constructor
  · intro h
    cases h with
    | const hinit hrest => exact ⟨_, hinit, hrest⟩
  · rintro ⟨initTy, hinit, hrest⟩
    exact .const hinit hrest

/-- A term has at most one type in an environment. -/
theorem unique {env : Environment} {term : Term} {ty ty' : SimpleTy} (h : HasType env term ty)
    (h' : HasType env term ty') : ty = ty' := by
  induction h generalizing ty' with
  | boolean value => exact (boolean_iff.mp h').symm
  | number value => exact (number_iff.mp h').symm
  | conditional _ _ _ _ hthen _ => exact hthen (conditional_iff.mp h').2.1
  | add _ _ _ _ => exact (add_iff.mp h').1.symm
  | var hname => exact Option.some.inj (hname.symm.trans (var_iff.mp h'))
  | function _ hbody =>
    obtain ⟨result, rfl, hresult⟩ := function_iff.mp h'
    rw [hbody hresult]
  | call _ _ _ hcallee _ =>
    obtain ⟨params, hparams, -⟩ := call_iff.mp h'
    exact (SimpleTy.function.inj (hcallee hparams)).2
  | sequence _ _ _ _ hrest => exact hrest (sequence_iff.mp h').2
  | const _ _ hinit hrest =>
    obtain ⟨initTy, hinitTy, hty⟩ := const_iff.mp h'
    rw [← hinit hinitTy] at hty
    exact hrest hty

end HasType

end ArrowLang
