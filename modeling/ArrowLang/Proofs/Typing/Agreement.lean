import ArrowLang.Proofs.Typing.Declarative
import ArrowLang.Proofs.Typing.Outcome

/-!
# Inference agrees with the typing rules

Inference finds a type for a term exactly when the rules give the term a type in the erased context,
and then it is the same type up to parameter names.  One lemma for each form of term carries the
agreement from the parts to the whole.
-/

namespace ArrowLang

/-- Inference and the rules agree on a term: the types that the rules give are the erasures of what
inference finds. -/
def Infers (context : Context) (term : Term) : Prop :=
  ∀ ty, HasType context.erase term ty ↔ ∃ found, typeOf context term = .ok found ∧ found.erase = ty

namespace Infers

variable {context : Context}

theorem hasType {term : Term} {found : Ty} (h : Infers context term)
    (hfound : typeOf context term = .ok found) : HasType context.erase term found.erase :=
  (h found.erase).mpr ⟨found, hfound, rfl⟩

theorem typable_iff {term : Term} (h : Infers context term) :
    Typable context.erase term ↔ ∃ found, typeOf context term = .ok found := by
  constructor
  · rintro ⟨ty, hty⟩
    obtain ⟨found, hfound, -⟩ := (h ty).mp hty
    exact ⟨found, hfound⟩
  · rintro ⟨found, hfound⟩
    exact ⟨found.erase, h.hasType hfound⟩

theorem boolean (value : Bool) : Infers context (.boolean value) := by
  intro ty
  simp [HasType.boolean_iff, eq_comm]

theorem number (value : Binary64) : Infers context (.number value) := by
  intro ty
  simp [HasType.number_iff, eq_comm]

theorem conditional {cond thenBranch elseBranch : Term} (hcond : Infers context cond)
    (hthen : Infers context thenBranch) (helse : Infers context elseBranch) :
    Infers context (.conditional cond thenBranch elseBranch) := by
  intro ty
  simp only [HasType.conditional_iff, hcond .boolean, hthen ty, helse ty, typeOf_conditional,
    bind_eq_ok_iff, guard_eq_ok_iff, Ty.equiv_iff_erase_eq]
  constructor
  · rintro ⟨⟨condTy, hc, hbool⟩, ⟨thenTy, ht, hthenTy⟩, ⟨elseTy, he, helseTy⟩⟩
    have hsame : thenTy.erase = elseTy.erase := hthenTy.trans helseTy.symm
    exact ⟨thenTy, ⟨condTy, hc, hbool, thenTy, ht, elseTy, he, hsame, rfl⟩, hthenTy⟩
  · rintro ⟨found, ⟨condTy, hc, hbool, thenTy, ht, elseTy, he, hsame, hfound⟩, rfl⟩
    obtain rfl := Except.ok.inj hfound
    exact ⟨⟨condTy, hc, hbool⟩, ⟨thenTy, ht, rfl⟩, ⟨elseTy, he, hsame.symm⟩⟩

theorem add {left right : Term} (hleft : Infers context left) (hright : Infers context right) :
    Infers context (.add left right) := by
  intro ty
  simp only [HasType.add_iff, hleft .number, hright .number, typeOf_add, bind_eq_ok_iff,
    guard_eq_ok_iff, Ty.equiv_iff_erase_eq]
  constructor
  · rintro ⟨rfl, ⟨leftTy, hl, hlnum⟩, ⟨rightTy, hr, hrnum⟩⟩
    exact ⟨.number, ⟨leftTy, hl, hlnum, rightTy, hr, hrnum, rfl⟩, rfl⟩
  · rintro ⟨found, ⟨leftTy, hl, hlnum, rightTy, hr, hrnum, hfound⟩, rfl⟩
    cases hfound
    exact ⟨rfl, ⟨leftTy, hl, hlnum⟩, ⟨rightTy, hr, hrnum⟩⟩

theorem var (name : String) : Infers context (.var name) := by
  intro ty
  rw [HasType.var_iff, typeOf_var, Context.erase]
  cases context.lookup name with
  | none => simp
  | some found => simp

theorem function {params : List Param} {body : Term} (hbody : Infers (context.extend params) body) :
    Infers context (.function params body) := by
  intro ty
  simp only [HasType.function_iff, ← Context.erase_extend, hbody _, typeOf_function, bind_eq_ok_iff]
  constructor
  · rintro ⟨_, rfl, result, hresult, rfl⟩
    exact ⟨.function params result, ⟨result, hresult, rfl⟩, rfl⟩
  · rintro ⟨found, ⟨result, hresult, hfound⟩, rfl⟩
    cases hfound
    exact ⟨result.erase, rfl, result, hresult, rfl⟩

/-- Arguments pass the check exactly when they have the types of their parameters. -/
theorem checkArgs {args : List Term} (hargs : ∀ arg ∈ args, Infers context arg) (position : Nat)
    {params : List Param} (hlength : params.length = args.length) :
    (checkArgs context position args params).outcome = .ok () ↔
      List.Forall₂ (HasType context.erase) args (Ty.eraseParams params) := by
  induction args generalizing position params with
  | nil =>
    obtain rfl := List.length_eq_zero_iff.mp hlength
    simp [Ty.eraseParams]
  | cons arg args ih =>
    obtain ⟨param, params, rfl⟩ := List.exists_cons_of_length_eq_add_one hlength
    rw [List.forall_mem_cons] at hargs
    simp only [checkArgs_cons, bind_eq_ok_iff, guard_eq_ok_iff, Ty.equiv_iff_erase_eq,
      Ty.eraseParams, List.forall₂_cons, hargs.1 param.ty.erase,
      ih hargs.2 (position + 1) (Nat.succ.inj hlength)]
    constructor
    · rintro ⟨found, hfound, hsame, hrest⟩
      exact ⟨⟨found, hfound, hsame⟩, hrest⟩
    · rintro ⟨⟨found, hfound, hsame⟩, hrest⟩
      exact ⟨found, hfound, hsame, hrest⟩

theorem call {callee : Term} {args : List Term} (hcallee : Infers context callee)
    (hargs : ∀ arg ∈ args, Infers context arg) : Infers context (.call callee args) := by
  intro ty
  simp only [HasType.call_iff, hcallee _, typeOf_call, bind_eq_ok_iff]
  constructor
  · rintro ⟨params, ⟨calleeTy, hfound, herase⟩, htypes⟩
    cases calleeTy with
    | boolean => cases herase
    | number => cases herase
    | function params' result =>
      obtain ⟨rfl, rfl⟩ := SimpleTy.function.inj herase
      have hlength : params'.length = args.length := by
        rw [htypes.length_eq, Ty.length_eraseParams]
      refine ⟨result, ⟨.function params' result, hfound, ?_⟩, rfl⟩
      dsimp only
      rw [if_pos hlength, (checkArgs hargs 0 hlength).mpr htypes, ok_bind]
  · rintro ⟨found, ⟨calleeTy, hfound, hcheck⟩, rfl⟩
    cases calleeTy with
    | boolean => cases hcheck
    | number => cases hcheck
    | function params result =>
      dsimp only at hcheck
      rw [guard_eq_ok_iff, bind_eq_ok_iff] at hcheck
      obtain ⟨hlength, _, hchecked, hresult⟩ := hcheck
      cases hresult
      exact ⟨_, ⟨_, hfound, rfl⟩, (checkArgs hargs 0 hlength).mp hchecked⟩

/-- Statements pass the check exactly when each has some type. -/
theorem checkStatements {statements : List Term}
    (hstatements : ∀ statement ∈ statements, Infers context statement) :
    (checkStatements context statements).outcome = .ok () ↔
      ∀ statement ∈ statements, Typable context.erase statement := by
  induction statements with
  | nil => simp
  | cons statement statements ih =>
    rw [List.forall_mem_cons] at hstatements
    rw [checkStatements_cons, bind_eq_ok_iff, List.forall_mem_cons, hstatements.1.typable_iff,
      ← ih hstatements.2, exists_and_right]

theorem sequence {statements : List Term} {rest : Term}
    (hstatements : ∀ statement ∈ statements, Infers context statement)
    (hrest : Infers context rest) : Infers context (.sequence statements rest) := by
  intro ty
  simp only [HasType.sequence_iff, ← checkStatements hstatements, hrest ty, typeOf_sequence,
    bind_eq_ok_iff]
  constructor
  · rintro ⟨hchecked, found, hfound, rfl⟩
    exact ⟨found, ⟨(), hchecked, hfound⟩, rfl⟩
  · rintro ⟨found, ⟨_, hchecked, hfound⟩, rfl⟩
    exact ⟨hchecked, found, hfound, rfl⟩

theorem const {name : String} {init rest : Term} (hinit : Infers context init)
    (hrest : ∀ ty, Infers (context.bind name ty) rest) :
    Infers context (.const name init rest) := by
  intro ty
  simp only [HasType.const_iff, hinit _, typeOf_const, bind_eq_ok_iff]
  constructor
  · rintro ⟨_, ⟨initTy, hfound, rfl⟩, htype⟩
    rw [← Context.erase_bind, hrest initTy ty] at htype
    obtain ⟨found, hrestFound, rfl⟩ := htype
    exact ⟨found, ⟨initTy, hfound, hrestFound⟩, rfl⟩
  · rintro ⟨found, ⟨initTy, hfound, hrestFound⟩, rfl⟩
    refine ⟨initTy.erase, ⟨initTy, hfound, rfl⟩, ?_⟩
    rw [← Context.erase_bind]
    exact (hrest initTy).hasType hrestFound

end Infers

/-- Inference and the rules agree on every term, under every context. -/
theorem infers (context : Context) (term : Term) : Infers context term := by
  induction term generalizing context with
  | boolean value => exact .boolean value
  | number value => exact .number value
  | conditional _ _ _ hcond hthen helse =>
    exact (hcond context).conditional (hthen context) (helse context)
  | add _ _ hleft hright => exact (hleft context).add (hright context)
  | var name => exact .var name
  | function params _ hbody => exact (hbody (context.extend params)).function
  | call _ _ hcallee hargs => exact (hcallee context).call fun arg hmem ↦ hargs arg hmem context
  | sequence _ _ hstatements hrest =>
    exact .sequence (fun statement hmem ↦ hstatements statement hmem context) (hrest context)
  | const name _ _ hinit hrest =>
    exact (hinit context).const fun ty ↦ hrest (context.bind name ty)

/-- Inference decides the simply typed system.  What it finds for a term is a type of the term by
the rules, every type by the rules is found up to parameter names, and it reports an error exactly
when the rules give no type. -/
theorem typeOf_decides_hasType (context : Context) (term : Term) :
    (∀ found, typeOf context term = .ok found → HasType context.erase term found.erase) ∧
      (∀ ty, HasType context.erase term ty →
        ∃ found, typeOf context term = .ok found ∧ found.erase = ty) ∧
      ((∃ error, typeOf context term = .error error) ↔ ¬ ∃ ty, HasType context.erase term ty) := by
  have hinfers := infers context term
  refine ⟨fun found ↦ hinfers.hasType, fun ty ↦ (hinfers ty).mp, ?_⟩
  rw [← Typable, hinfers.typable_iff]
  cases typeOf context term with
  | ok found => simp
  | error error => simp

end ArrowLang
