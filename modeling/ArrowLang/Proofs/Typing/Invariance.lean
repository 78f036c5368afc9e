import ArrowLang.Proofs.Typing.FreeNames
import ArrowLang.Proofs.Typing.Outcome

/-!
# Two runs of inference

Inference compares types up to the names of parameters and takes function types apart; it does
nothing else with them.  So two runs on matching terms, in contexts that match on the free names of
the terms, end alike: with matching types or with the same error.  What it means to match is left
open, as any relation between types that fits these two uses will do.
-/

namespace ArrowLang

/-- Two results are related values or the same error. -/
inductive SameOutcome {ε α β : Type} (r : α → β → Prop) : Except ε α → Except ε β → Prop
  | ok {value : α} {value' : β} : r value value' → SameOutcome r (.ok value) (.ok value')
  | error (error : ε) : SameOutcome r (.error error) (.error error)

namespace SameOutcome

variable {ε α β α' β' : Type} {r : α → β → Prop} {q : α' → β' → Prop} {result : Except ε α}
  {result' : Except ε β}

theorem bind {next : α → Except ε α'} {next' : β → Except ε β'} (h : SameOutcome r result result')
    (hnext : ∀ value value', r value value' → SameOutcome q (next value) (next' value')) :
    SameOutcome q (result >>= next) (result' >>= next') := by
  cases h with
  | ok hvalue => exact hnext _ _ hvalue
  | error error => exact .error error

theorem guard {condition condition' : Prop} [Decidable condition] [Decidable condition']
    (hcondition : condition ↔ condition') (error : ε)
    (h : condition → SameOutcome r result result') :
    SameOutcome r (if condition then result else .error error)
      (if condition' then result' else .error error) := by
  by_cases hholds : condition
  · rw [if_pos hholds, if_pos (hcondition.mp hholds)]
    exact h hholds
  · rw [if_neg hholds, if_neg (hcondition.not.mp hholds)]
    exact .error error

theorem refl {r : α → α → Prop} (hr : ∀ value, r value value) (result : Except ε α) :
    SameOutcome r result result := by
  cases result with
  | ok value => exact .ok (hr value)
  | error error => exact .error error

theorem ok_or_error (h : SameOutcome r result result') :
    (∃ value value', result = .ok value ∧ result' = .ok value' ∧ r value value') ∨
      ∃ error, result = .error error ∧ result' = .error error := by
  cases h with
  | ok hvalue => exact .inl ⟨_, _, rfl, rfl, hvalue⟩
  | error error => exact .inr ⟨error, rfl, rfl⟩

theorem eq_iff {result result' : Except ε α} :
    SameOutcome Eq result result' ↔ result = result' := by
  constructor
  · intro h
    cases h with
    | ok hvalue => rw [hvalue]
    | error error => rfl
  · rintro rfl
    exact refl (fun _ ↦ rfl) result

end SameOutcome

/-- The same name and related types. -/
structure Binding.Matches (r : Ty → Ty → Prop) (param param' : Param) : Prop where
  name_eq : param.name = param'.name
  ty : r param.ty param'.ty

theorem Binding.Matches.eq {param param' : Param} (h : Binding.Matches Eq param param') :
    param = param' := by
  cases param
  cases param'
  obtain ⟨rfl, rfl⟩ := h
  rfl

theorem Binding.Matches.reflAll {r : Ty → Ty → Prop} (hr : ∀ ty, r ty ty) (params : List Param) :
    List.Forall₂ (Binding.Matches r) params params :=
  List.forall₂_same.mpr fun param _ ↦ ⟨rfl, hr param.ty⟩

/-- A relation between types that inference respects. -/
structure Ty.Congruence (r : Ty → Ty → Prop) : Prop where
  boolean : r .boolean .boolean
  number : r .number .number
  function {params params' : List Param} {result result' : Ty} :
    List.Forall₂ (Binding.Matches r) params params' → r result result' →
      r (.function params result) (.function params' result')
  result {params params' : List Param} {result result' : Ty} :
    r (.function params result) (.function params' result') → r result result'
  erase_eq {ty ty' : Ty} : r ty ty' → ty.erase = ty'.erase

namespace Ty

variable {r : Ty → Ty → Prop}

/-- Comparisons of matching types agree. -/
theorem Congruence.equiv_iff (hr : Congruence r) {left left' right right' : Ty}
    (hleft : r left left') (hright : r right right') :
    left.equiv right ↔ left'.equiv right' := by
  rw [equiv_iff_erase_eq, equiv_iff_erase_eq, hr.erase_eq hleft, hr.erase_eq hright]

theorem congruence_eq : Congruence Eq where
  boolean := rfl
  number := rfl
  function := by
    intro params params' result result' hparams hresult
    have hequal : List.Forall₂ Eq params params' := hparams.imp fun _ _ ↦ Binding.Matches.eq
    rw [List.forall₂_eq_eq_eq] at hequal
    rw [hequal, hresult]
  result h := (function.inj h).2
  erase_eq h := congrArg erase h

theorem congruence_equiv : Congruence fun ty ty' ↦ ty.equiv ty' where
  boolean := rfl
  number := rfl
  function := by
    intro params params' result result' hparams hresult
    have heq : eraseParams params = eraseParams params' := by
      induction hparams with
      | nil => rfl
      | cons hparam _ ih =>
        rw [eraseParams, eraseParams, (equiv_iff_erase_eq _ _).mp hparam.ty, ih]
    rw [equiv_iff_erase_eq] at hresult ⊢
    rw [erase, erase, heq, hresult]
  result h := by
    rw [equiv, Bool.and_eq_true] at h
    exact h.2
  erase_eq h := (equiv_iff_erase_eq _ _).mp h

end Ty

namespace Context

variable {r : Ty → Ty → Prop} {context context' : Context}

theorem lookup_extend (bindings : List (Binding Ty)) (name : String) :
    (context.extend bindings).lookup name =
      (lookupScope bindings name).or (context.lookup name) := by
  rw [lookup]
  cases lookupScope bindings name <;> rfl

theorem lookupScope_eq_none_iff {bindings : List (Binding Ty)} {name : String} :
    lookupScope bindings name = none ↔ name ∉ bindings.map Binding.name := by
  simp [lookupScope]

theorem lookupScope_matches {params params' : List Param}
    (hparams : List.Forall₂ (Binding.Matches r) params params') (name : String) :
    Option.Rel r (lookupScope params name) (lookupScope params' name) := by
  unfold lookupScope
  have hreverse := List.forall₂_reverse_iff.mpr hparams
  generalize params.reverse = params at hreverse
  generalize params'.reverse = params' at hreverse
  induction hreverse with
  | nil => exact .none
  | @cons param param' _ _ hparam _ ih =>
    rw [List.find?_cons, List.find?_cons, hparam.name_eq]
    cases param'.name == name with
    | true => exact .some hparam.ty
    | false => exact ih

theorem rel_or {inner inner' outer outer' : Option Ty} (hinner : Option.Rel r inner inner')
    (houter : inner = none → Option.Rel r outer outer') :
    Option.Rel r (inner.or outer) (inner'.or outer') := by
  cases hinner with
  | some hty => exact .some hty
  | none => exact houter rfl

/-- The contexts have related types for these names or none. -/
def MatchesOn (r : Ty → Ty → Prop) (names : Finset String) (context context' : Context) : Prop :=
  ∀ name ∈ names, Option.Rel r (context.lookup name) (context'.lookup name)

namespace MatchesOn

variable {names names' : Finset String}

theorem mono (h : MatchesOn r names context context') (hsubset : names' ⊆ names) :
    MatchesOn r names' context context' :=
  fun name hname ↦ h name (hsubset hname)

theorem of_lookup_eq (hr : ∀ ty, r ty ty)
    (h : ∀ name ∈ names, context.lookup name = context'.lookup name) :
    MatchesOn r names context context' := by
  intro name hname
  rw [h name hname]
  cases context'.lookup name with
  | none => exact .none
  | some ty => exact .some (hr ty)

/-- Within a scope, contexts need to match only on the names that the scope does not bind. -/
theorem extend {params params' : List Param}
    (hparams : List.Forall₂ (Binding.Matches r) params params')
    (h : MatchesOn r (names \ (params.map Binding.name).toFinset) context context') :
    MatchesOn r names (context.extend params) (context'.extend params') := by
  intro name hname
  rw [lookup_extend, lookup_extend]
  refine rel_or (lookupScope_matches hparams name) fun hscope ↦ h name ?_
  rw [lookupScope_eq_none_iff] at hscope
  rw [Finset.mem_sdiff, List.mem_toFinset]
  exact ⟨hname, hscope⟩

theorem bind {name : String} {ty ty' : Ty} (hty : r ty ty')
    (h : MatchesOn r (names.erase name) context context') :
    MatchesOn r names (context.bind name ty) (context'.bind name ty') := by
  refine extend (.cons ⟨rfl, hty⟩ .nil) (h.mono fun other hother ↦ ?_)
  rw [List.map_singleton, Finset.mem_sdiff, List.mem_toFinset, List.mem_singleton] at hother
  exact Finset.mem_erase.mpr ⟨hother.2, hother.1⟩

end MatchesOn

end Context

/-- The terms have the same form and the same names, and the types of corresponding parameters are
related.  Numbers need not be the same. -/
inductive Term.Matches (r : Ty → Ty → Prop) : Term → Term → Prop
  | boolean (value : Bool) : Matches r (.boolean value) (.boolean value)
  | number (value value' : Binary64) : Matches r (.number value) (.number value')
  | conditional {cond cond' thenBranch thenBranch' elseBranch elseBranch' : Term} :
      Matches r cond cond' → Matches r thenBranch thenBranch' → Matches r elseBranch elseBranch' →
      Matches r (.conditional cond thenBranch elseBranch)
        (.conditional cond' thenBranch' elseBranch')
  | add {left left' right right' : Term} :
      Matches r left left' → Matches r right right' →
      Matches r (.add left right) (.add left' right')
  | var (name : String) : Matches r (.var name) (.var name)
  | function {params params' : List Param} {body body' : Term} :
      List.Forall₂ (Binding.Matches r) params params' → Matches r body body' →
      Matches r (.function params body) (.function params' body')
  | call {callee callee' : Term} {args args' : List Term} :
      Matches r callee callee' → args.length = args'.length →
      (∀ pair ∈ args.zip args', Matches r pair.1 pair.2) →
      Matches r (.call callee args) (.call callee' args')
  | sequence {statements statements' : List Term} {rest rest' : Term} :
      statements.length = statements'.length →
      (∀ pair ∈ statements.zip statements', Matches r pair.1 pair.2) → Matches r rest rest' →
      Matches r (.sequence statements rest) (.sequence statements' rest')
  | const {name : String} {init init' rest rest' : Term} :
      Matches r init init' → Matches r rest rest' →
      Matches r (.const name init rest) (.const name init' rest')

/-! ## Two runs -/

/-- Inference ends alike on two terms, each in its own context. -/
abbrev InfersAlike (r : Ty → Ty → Prop) (context context' : Context) (term term' : Term) : Prop :=
  SameOutcome r (typeOf context term) (typeOf context' term')

namespace InfersAlike

variable {r : Ty → Ty → Prop} {context context' : Context}

theorem conditional (hr : Ty.Congruence r)
    {cond cond' thenBranch thenBranch' elseBranch elseBranch' : Term}
    (hcond : InfersAlike r context context' cond cond')
    (hthen : InfersAlike r context context' thenBranch thenBranch')
    (helse : InfersAlike r context context' elseBranch elseBranch') :
    InfersAlike r context context' (.conditional cond thenBranch elseBranch)
      (.conditional cond' thenBranch' elseBranch') := by
  rw [InfersAlike, typeOf_conditional, typeOf_conditional]
  refine hcond.bind fun condTy condTy' hcondTy ↦ ?_
  refine .guard (hr.equiv_iff hcondTy hr.boolean) _ fun _ ↦ ?_
  refine hthen.bind fun thenTy thenTy' hthenTy ↦ helse.bind fun elseTy elseTy' helseTy ↦ ?_
  exact .guard (hr.equiv_iff hthenTy helseTy) _ fun _ ↦ .ok hthenTy

theorem add (hr : Ty.Congruence r) {left left' right right' : Term}
    (hleft : InfersAlike r context context' left left')
    (hright : InfersAlike r context context' right right') :
    InfersAlike r context context' (.add left right) (.add left' right') := by
  rw [InfersAlike, typeOf_add, typeOf_add]
  refine hleft.bind fun leftTy leftTy' hleftTy ↦ ?_
  refine .guard (hr.equiv_iff hleftTy hr.number) _ fun _ ↦ ?_
  refine hright.bind fun rightTy rightTy' hrightTy ↦ ?_
  exact .guard (hr.equiv_iff hrightTy hr.number) _ fun _ ↦ .ok hr.number

theorem var {name : String} (h : Option.Rel r (context.lookup name) (context'.lookup name)) :
    InfersAlike r context context' (.var name) (.var name) := by
  rw [InfersAlike, typeOf_var, typeOf_var]
  generalize context.lookup name = found at h
  generalize context'.lookup name = found' at h
  cases h with
  | some hty => exact .ok hty
  | none => exact .error _

theorem function (hr : Ty.Congruence r) {params params' : List Param} {body body' : Term}
    (hparams : List.Forall₂ (Binding.Matches r) params params')
    (hbody : InfersAlike r (context.extend params) (context'.extend params') body body') :
    InfersAlike r context context' (.function params body) (.function params' body') := by
  rw [InfersAlike, typeOf_function, typeOf_function]
  exact hbody.bind fun result result' hresult ↦ .ok (hr.function hparams hresult)

/-- Arguments are compared with the types of their parameters only. -/
theorem checkArgs (hr : Ty.Congruence r) {args args' : List Term}
    (hargs : List.Forall₂ (InfersAlike r context context') args args') (position : Nat)
    {params params' : List Param} (hlength : params.length = args.length)
    (hparams : Ty.eraseParams params = Ty.eraseParams params') :
    SameOutcome Eq (checkArgs context position args params).outcome
      (checkArgs context' position args' params').outcome := by
  induction hargs generalizing position params params' with
  | nil =>
    rw [checkArgs_nil, checkArgs_nil]
    exact .ok rfl
  | cons harg _ ih =>
    obtain ⟨param, params, rfl⟩ := List.exists_cons_of_length_eq_add_one hlength
    cases params' with
    | nil => cases hparams
    | cons param' params' =>
      obtain ⟨hparam, hparams⟩ := List.cons.inj hparams
      rw [checkArgs_cons, checkArgs_cons]
      refine harg.bind fun ty ty' hty ↦ .guard ?_ _ fun _ ↦ ih _ (Nat.succ.inj hlength) hparams
      rw [Ty.equiv_iff_erase_eq, Ty.equiv_iff_erase_eq, hr.erase_eq hty, hparam]

theorem call (hr : Ty.Congruence r) {callee callee' : Term} {args args' : List Term}
    (hcallee : InfersAlike r context context' callee callee')
    (hargs : List.Forall₂ (InfersAlike r context context') args args') :
    InfersAlike r context context' (.call callee args) (.call callee' args') := by
  rw [InfersAlike, typeOf_call, typeOf_call]
  refine hcallee.bind fun calleeTy calleeTy' hcalleeTy ↦ ?_
  have herase := hr.erase_eq hcalleeTy
  cases calleeTy with
  | boolean | number =>
    cases calleeTy' with
    | boolean | number => exact .error _
    | function => cases herase
  | function params result =>
    cases calleeTy' with
    | boolean | number => cases herase
    | function params' result' =>
      have hparams := (SimpleTy.function.inj herase).1
      have hlength : params.length = params'.length := by
        rw [← Ty.length_eraseParams, hparams, Ty.length_eraseParams]
      dsimp only
      rw [← hargs.length_eq, ← hlength]
      refine .guard Iff.rfl _ fun hcount ↦ ?_
      exact (checkArgs hr hargs 0 hcount hparams).bind fun _ _ _ ↦ .ok (hr.result hcalleeTy)

theorem checkStatements {statements statements' : List Term}
    (h : List.Forall₂ (InfersAlike r context context') statements statements') :
    SameOutcome Eq (checkStatements context statements).outcome
      (checkStatements context' statements').outcome := by
  induction h with
  | nil =>
    rw [checkStatements_nil, checkStatements_nil]
    exact .ok rfl
  | cons hstatement _ ih =>
    rw [checkStatements_cons, checkStatements_cons]
    exact hstatement.bind fun _ _ _ ↦ ih

theorem sequence {statements statements' : List Term} {rest rest' : Term}
    (hstatements : List.Forall₂ (InfersAlike r context context') statements statements')
    (hrest : InfersAlike r context context' rest rest') :
    InfersAlike r context context' (.sequence statements rest) (.sequence statements' rest') := by
  rw [InfersAlike, typeOf_sequence, typeOf_sequence]
  exact (checkStatements hstatements).bind fun _ _ _ ↦ hrest

theorem const {name : String} {init init' rest rest' : Term}
    (hinit : InfersAlike r context context' init init')
    (hrest : ∀ ty ty', r ty ty' →
      InfersAlike r (context.bind name ty) (context'.bind name ty') rest rest') :
    InfersAlike r context context' (.const name init rest) (.const name init' rest') := by
  rw [InfersAlike, typeOf_const, typeOf_const]
  exact hinit.bind hrest

end InfersAlike

/-- Inference ends alike on matching terms in contexts that match on the free names of the terms. -/
theorem Term.Matches.infersAlike {r : Ty → Ty → Prop} (hr : Ty.Congruence r) {term term' : Term}
    (hterm : Term.Matches r term term') {context context' : Context}
    (hcontext : context.MatchesOn r term.freeNames context') :
    InfersAlike r context context' term term' := by
  -- The contexts are general, as a function or a constant extends both of them.
  induction hterm generalizing context context' with
  | boolean value => exact .ok hr.boolean
  | number value value' => exact .ok hr.number
  | conditional _ _ _ hcond hthen helse =>
    have hfirst := hcontext.mono Finset.subset_union_left
    exact .conditional hr (hcond (hfirst.mono Finset.subset_union_left))
      (hthen (hfirst.mono Finset.subset_union_right))
      (helse (hcontext.mono Finset.subset_union_right))
  | add _ _ hleft hright =>
    exact .add hr (hleft (hcontext.mono Finset.subset_union_left))
      (hright (hcontext.mono Finset.subset_union_right))
  | var name => exact .var (hcontext name (Finset.mem_singleton_self name))
  | function hparams _ hbody => exact .function hr hparams (hbody (.extend hparams hcontext))
  | call _ hlength _ hcallee hargs =>
    have hargsContext := hcontext.mono Finset.subset_union_right
    refine .call hr (hcallee (hcontext.mono Finset.subset_union_left)) ?_
    refine List.forall₂_iff_zip.mpr ⟨hlength, fun hpair ↦ hargs _ hpair (hargsContext.mono ?_)⟩
    exact freeNames_subset_freeNamesAll (List.of_mem_zip hpair).1
  | sequence hlength _ _ hstatements hrest =>
    have hstatementsContext := hcontext.mono Finset.subset_union_left
    refine .sequence (List.forall₂_iff_zip.mpr ⟨hlength, fun hpair ↦ ?_⟩)
      (hrest (hcontext.mono Finset.subset_union_right))
    refine hstatements _ hpair (hstatementsContext.mono ?_)
    exact freeNames_subset_freeNamesAll (List.of_mem_zip hpair).1
  | const _ _ hinit hrest =>
    refine .const (hinit (hcontext.mono Finset.subset_union_left)) fun ty ty' hty ↦ ?_
    exact hrest (.bind hty (hcontext.mono Finset.subset_union_right))

/-- A term matches itself if types do. -/
theorem Term.Matches.refl {r : Ty → Ty → Prop} (hr : ∀ ty, r ty ty) (term : Term) :
    Term.Matches r term term := by
  induction term with
  | boolean value => exact .boolean value
  | number value => exact .number value value
  | conditional _ _ _ hcond hthen helse => exact .conditional hcond hthen helse
  | add _ _ hleft hright => exact .add hleft hright
  | var name => exact .var name
  | function params _ hbody => exact .function (Binding.Matches.reflAll hr params) hbody
  | call _ _ hcallee hargs =>
    obtain ⟨hlength, hpairs⟩ := List.forall₂_iff_zip.mp (List.forall₂_same.mpr hargs)
    exact .call hcallee hlength fun pair hmem ↦ hpairs hmem
  | sequence _ _ hstatements hrest =>
    obtain ⟨hlength, hpairs⟩ := List.forall₂_iff_zip.mp (List.forall₂_same.mpr hstatements)
    exact .sequence hlength (fun pair hmem ↦ hpairs hmem) hrest
  | const _ _ _ hinit hrest => exact .const hinit hrest

end ArrowLang
