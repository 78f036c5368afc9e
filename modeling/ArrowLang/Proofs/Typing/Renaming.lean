import ArrowLang.Proofs.Typing.Inlining

/-!
# Renaming of bound names

A constant or a parameter may be called otherwise, as long as the new name does not occur in its
scope.  The scope then has the same outcome.  Around it the change can be seen, as the type of a
function shows the names of its parameters, but only up to equivalence of types.
-/

namespace ArrowLang

/-- The terms differ at most in one subterm, which is replaced by a related one. -/
inductive Term.Within (r : Term → Term → Prop) : Term → Term → Prop
  | here {term term' : Term} : r term term' → Within r term term'
  | cond {cond cond' thenBranch elseBranch : Term} : Within r cond cond' →
      Within r (.conditional cond thenBranch elseBranch) (.conditional cond' thenBranch elseBranch)
  | thenBranch {cond thenBranch thenBranch' elseBranch : Term} : Within r thenBranch thenBranch' →
      Within r (.conditional cond thenBranch elseBranch) (.conditional cond thenBranch' elseBranch)
  | elseBranch {cond thenBranch elseBranch elseBranch' : Term} : Within r elseBranch elseBranch' →
      Within r (.conditional cond thenBranch elseBranch) (.conditional cond thenBranch elseBranch')
  | left {left left' right : Term} : Within r left left' →
      Within r (.add left right) (.add left' right)
  | right {left right right' : Term} : Within r right right' →
      Within r (.add left right) (.add left right')
  | body {params : List Param} {body body' : Term} : Within r body body' →
      Within r (.function params body) (.function params body')
  | callee {callee callee' : Term} {args : List Term} : Within r callee callee' →
      Within r (.call callee args) (.call callee' args)
  | arg {callee arg arg' : Term} {before after : List Term} : Within r arg arg' →
      Within r (.call callee (before ++ arg :: after)) (.call callee (before ++ arg' :: after))
  | statement {statement statement' rest : Term} {before after : List Term} :
      Within r statement statement' →
      Within r (.sequence (before ++ statement :: after) rest)
        (.sequence (before ++ statement' :: after) rest)
  | rest {statements : List Term} {rest rest' : Term} : Within r rest rest' →
      Within r (.sequence statements rest) (.sequence statements rest')
  | init {name : String} {init init' rest : Term} : Within r init init' →
      Within r (.const name init rest) (.const name init' rest)
  | scope {name : String} {init rest rest' : Term} : Within r rest rest' →
      Within r (.const name init rest) (.const name init rest')

theorem Ty.equiv_refl (ty : Ty) : ty.equiv ty := (equiv_iff_erase_eq ty ty).mpr rfl

/-- The terms have equivalent types or the same error in every context. -/
def Indistinct (term term' : Term) : Prop :=
  ∀ context, InfersAlike (fun ty ty' ↦ ty.equiv ty') context context term term'

namespace Indistinct

variable {term term' : Term}

theorem refl (term : Term) : Indistinct term term := fun context ↦
  .refl Ty.equiv_refl (typeOf context term)

theorem reflAll (terms : List Term) (context : Context) :
    List.Forall₂ (InfersAlike (fun ty ty' ↦ ty.equiv ty') context context) terms terms :=
  List.forall₂_same.mpr fun term _ ↦ refl term context

/-- Lists that differ in one term. -/
theorem list (h : Indistinct term term') (before after : List Term) (context : Context) :
    List.Forall₂ (InfersAlike (fun ty ty' ↦ ty.equiv ty') context context)
      (before ++ term :: after) (before ++ term' :: after) :=
  List.rel_append (reflAll before context) (.cons (h context) (reflAll after context))

/-- Subterms that cannot be told apart make terms that cannot be told apart. -/
theorem within {r : Term → Term → Prop} (hr : ∀ {term term'}, r term term' → Indistinct term term')
    (h : Term.Within r term term') : Indistinct term term' := by
  have hequiv := Ty.congruence_equiv
  induction h with
  | here h => exact hr h
  | cond _ ih =>
    exact fun context ↦ .conditional hequiv (ih context) (refl _ context) (refl _ context)
  | thenBranch _ ih =>
    exact fun context ↦ .conditional hequiv (refl _ context) (ih context) (refl _ context)
  | elseBranch _ ih =>
    exact fun context ↦ .conditional hequiv (refl _ context) (refl _ context) (ih context)
  | left _ ih => exact fun context ↦ .add hequiv (ih context) (refl _ context)
  | right _ ih => exact fun context ↦ .add hequiv (refl _ context) (ih context)
  | body _ ih =>
    exact fun context ↦ .function hequiv (Binding.Matches.reflAll Ty.equiv_refl _) (ih _)
  | callee _ ih => exact fun context ↦ .call hequiv (ih context) (reflAll _ context)
  | arg _ ih => exact fun context ↦ .call hequiv (refl _ context) (ih.list _ _ context)
  | statement _ ih => exact fun context ↦ .sequence (ih.list _ _ context) (refl _ context)
  | rest _ ih => exact fun context ↦ .sequence (reflAll _ context) (ih context)
  | @init name _ _ rest _ ih =>
    -- The rest stays as it is, but sees another type of the constant.
    refine fun context ↦ .const (ih context) fun ty ty' hty ↦ ?_
    exact (Term.Matches.refl Ty.equiv_refl rest).infersAlike hequiv
      (.bind hty (.of_lookup_eq Ty.equiv_refl fun _ _ ↦ rfl))
  | scope _ ih =>
    intro context
    rw [InfersAlike, typeOf_const, typeOf_const]
    refine (SameOutcome.eq_iff.mpr rfl).bind fun ty ty' hty ↦ ?_
    rw [← hty]
    exact ih _

end Indistinct

/-- The parameter under the new name, if it has the old one. -/
def Binding.rename (name fresh : String) (param : Param) : Param :=
  { param with name := if param.name = name then fresh else param.name }

/-- Renaming leaves the types of parameters as they are. -/
theorem Ty.eraseParams_rename (name fresh : String) (params : List Param) :
    eraseParams (params.map (Binding.rename name fresh)) = eraseParams params := by
  rw [eraseParams_eq_map, eraseParams_eq_map, List.map_map]
  rfl

namespace Context

/-- If names correspond, so do the types found for them. -/
theorem lookupScope_rename {name fresh other other' : String} {params : List Param}
    (h : ∀ param ∈ params, (param.rename name fresh).name = other ↔ param.name = other') :
    lookupScope (params.map (Binding.rename name fresh)) other = lookupScope params other' := by
  induction params using List.reverseRecOn with
  | nil => rfl
  | append_singleton params param ih =>
    rw [List.forall_mem_append, List.forall_mem_singleton] at h
    rw [List.map_append, List.map_singleton, lookupScope_append_singleton,
      lookupScope_append_singleton, ih h.1]
    exact if_congr h.2 rfl rfl

end Context

/-- A binder and its scope with a new name that does not occur in the scope. -/
inductive Term.Renames : Term → Term → Prop
  | const {name fresh : String} {init rest : Term} :
      fresh ∉ rest.freeNames → fresh ∉ rest.boundNames →
      Renames (.const name init rest) (.const fresh init (rest.inline name (.var fresh)))
  /-- All parameters of the old name are renamed, and no other one has the new name. -/
  | function {name fresh : String} {params : List Param} {body : Term} :
      name ∈ params.map Binding.name →
      (∀ param ∈ params, param.name = fresh → param.name = name) →
      fresh ∉ body.freeNames → fresh ∉ body.boundNames →
      Renames (.function params body)
        (.function (params.map (Binding.rename name fresh)) (body.inline name (.var fresh)))

namespace Replaces

variable {name fresh : String} {context : Context}

/-- Renamed parameters stand for the same types. -/
theorem of_rename {params : List Param} {names : Finset String}
    (hname : name ∈ params.map Binding.name)
    (hparams : ∀ param ∈ params, param.name = fresh → param.name = name) (hfresh : fresh ∉ names) :
    Replaces name (.var fresh) names (context.extend params)
      (context.extend (params.map (Binding.rename name fresh))) := by
  constructor
  · have hscope : Context.lookupScope (params.map (Binding.rename name fresh)) fresh =
        Context.lookupScope params name := by
      apply Context.lookupScope_rename
      intro param hparam
      by_cases h : param.name = name
      · simp [Binding.rename, h]
      · simpa [Binding.rename, h] using fun hfresh ↦ h (hparams param hparam hfresh)
    have hbound : Context.lookupScope params name ≠ none :=
      fun hnone ↦ Context.lookupScope_eq_none_iff.mp hnone hname
    obtain ⟨ty, hty⟩ := Option.ne_none_iff_exists'.mp hbound
    rw [typeOf_var, typeOf_var, Context.lookup_extend, Context.lookup_extend, hscope, hty]
    rfl
  · refine .of_lookup_eq (fun _ ↦ rfl) fun other hother ↦ ?_
    obtain ⟨hne, hmem⟩ := Finset.mem_erase.mp hother
    have hnotFresh : fresh ≠ other := fun h ↦ hfresh (h ▸ hmem)
    rw [Context.lookup_extend, Context.lookup_extend, Context.lookupScope_rename]
    intro param _
    by_cases h : param.name = name
    · simp [Binding.rename, h, hnotFresh, hne.symm]
    · simp [Binding.rename, h]

end Replaces

/-- A binder can be renamed without notice. -/
theorem Indistinct.of_renames {term term' : Term} (h : Term.Renames term term') :
    Indistinct term term' := by
  intro context
  cases h with
  | @const name fresh init rest hfree hbound =>
    rw [InfersAlike, typeOf_const, typeOf_const]
    refine (SameOutcome.eq_iff.mpr rfl).bind fun ty ty' hty ↦ ?_
    -- The constant is the only parameter of its scope.
    have hreplaces : Replaces name (.var fresh) rest.freeNames (context.extend [⟨name, ty⟩])
        (context.extend ([⟨name, ty⟩].map (Binding.rename name fresh))) :=
      .of_rename List.mem_cons_self (by simp) hfree
    rw [List.map_singleton, Binding.rename, if_pos rfl] at hreplaces
    have hrest : InfersAlike Eq (context.bind name ty) (context.bind fresh ty) rest
        (rest.inline name (.var fresh)) :=
      hreplaces.infersAlike rest (by simpa using hbound)
    rw [← hty, SameOutcome.eq_iff.mp hrest]
    exact .refl Ty.equiv_refl _
  | @function name fresh params body hname hparams hfree hbound =>
    have hreplaces : Replaces name (.var fresh) body.freeNames (context.extend params)
        (context.extend (params.map (Binding.rename name fresh))) :=
      .of_rename hname hparams hfree
    have hbody := hreplaces.infersAlike body (by simpa using hbound)
    rw [InfersAlike, typeOf_function, typeOf_function]
    refine hbody.bind fun result result' hresult ↦ .ok ?_
    rw [Ty.equiv_iff_erase_eq, Ty.erase, Ty.erase, Ty.eraseParams_rename, hresult]

/-- A bound name can be changed anywhere in a term: inference finds equivalent types before and
after, or reports the same error. -/
theorem typeOf_of_renamed_binder {term term' : Term} (h : Term.Within Term.Renames term term')
    (context : Context) :
    (∃ ty ty', typeOf context term = .ok ty ∧ typeOf context term' = .ok ty' ∧ ty.equiv ty') ∨
      ∃ error, typeOf context term = .error error ∧ typeOf context term' = .error error :=
  (Indistinct.within Indistinct.of_renames h context).ok_or_error

/-- A constant that is a function with two parameters of one name, and a choice between it and a
function with other names. -/
def sampleChoice (name : String) : Term :=
  .const "f" (.function [⟨name, .number⟩, ⟨name, .boolean⟩] (.var name))
    (.conditional (.boolean true) (.var "f")
      (.function [⟨"a", .number⟩, ⟨"b", .boolean⟩] (.var "b")))

theorem typeOf_of_renamed_binder_sample :
    Term.Within Term.Renames (sampleChoice "x") (sampleChoice "y") ∧
    ((∃ ty ty', typeOf (.top [⟨"y", .number⟩]) (sampleChoice "x") = .ok ty ∧
      typeOf (.top [⟨"y", .number⟩]) (sampleChoice "y") = .ok ty' ∧ ty.equiv ty') ∨
    ∃ error, typeOf (.top [⟨"y", .number⟩]) (sampleChoice "x") = .error error ∧
      typeOf (.top [⟨"y", .number⟩]) (sampleChoice "y") = .error error) := by
  have hrenames : Term.Within Term.Renames (sampleChoice "x") (sampleChoice "y") := by
    refine .init (.here ?_)
    exact @Term.Renames.function "x" "y" [⟨"x", .number⟩, ⟨"x", .boolean⟩] (.var "x") (by decide)
      (by simp) (by decide) (by decide)
  exact ⟨hrenames, typeOf_of_renamed_binder hrenames _⟩

end ArrowLang
