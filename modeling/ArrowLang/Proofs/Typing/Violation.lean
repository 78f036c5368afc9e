import ArrowLang.Proofs.Typing.Declarative
import ArrowLang.Typing.Error

/-!
# Violations of the typing rules

A term without a type has a place where it goes wrong.  The parts of a term are looked at in the
order in which they are written: condition before branches, left before right, the callee before the
arguments, statements before the rest.  Following that order from part to part, as long as all that
comes before has a type that fits, leads to a subterm that breaks its own rule.  There is only one
such place in a term, and only one error that describes it.
-/

namespace ArrowLang

/-- The value at the index, after values that all satisfy the predicate. -/
structure IsNext {α : Type} (p : α → Prop) (values : List α) (index : Nat) (value : α) : Prop where
  before : ∀ earlier ∈ values.take index, p earlier
  getElem?_eq : values[index]? = some value

/-- A step from a term to one of its parts. -/
inductive Step
  | cond
  | thenBranch
  | elseBranch
  | left
  | right
  | body
  | callee
  | arg (index : Nat)
  | statement (index : Nat)
  | init
  | rest

/-- The step leads from the term to the next one, with the environment there, and all that is looked
at before it passes. -/
inductive Enters : Environment → Term → Step → Environment → Term → Prop
  | cond {env : Environment} {cond thenBranch elseBranch : Term} :
      Enters env (.conditional cond thenBranch elseBranch) .cond env cond
  | thenBranch {env : Environment} {cond thenBranch elseBranch : Term} :
      HasType env cond .boolean →
      Enters env (.conditional cond thenBranch elseBranch) .thenBranch env thenBranch
  | elseBranch {env : Environment} {cond thenBranch elseBranch : Term} :
      HasType env cond .boolean → Typable env thenBranch →
      Enters env (.conditional cond thenBranch elseBranch) .elseBranch env elseBranch
  | left {env : Environment} {left right : Term} : Enters env (.add left right) .left env left
  | right {env : Environment} {left right : Term} :
      HasType env left .number → Enters env (.add left right) .right env right
  | body {env : Environment} {params : List Param} {body : Term} :
      Enters env (.function params body) .body (env.bindAll params) body
  | callee {env : Environment} {callee : Term} {args : List Term} :
      Enters env (.call callee args) .callee env callee
  /-- Arguments are looked at if there are as many as parameters. -/
  | arg {env : Environment} {callee arg : Term} {args : List Term} {params : List SimpleTy}
      {param result : SimpleTy} {index : Nat} :
      HasType env callee (.function params result) → args.length = params.length →
      IsNext (fun pair ↦ HasType env pair.1 pair.2) (args.zip params) index (arg, param) →
      Enters env (.call callee args) (.arg index) env arg
  | statement {env : Environment} {statements : List Term} {statement rest : Term} {index : Nat} :
      IsNext (Typable env) statements index statement →
      Enters env (.sequence statements rest) (.statement index) env statement
  | rest {env : Environment} {statements : List Term} {rest : Term} :
      (∀ statement ∈ statements, Typable env statement) →
      Enters env (.sequence statements rest) .rest env rest
  | init {env : Environment} {name : String} {init rest : Term} :
      Enters env (.const name init rest) .init env init
  | scope {env : Environment} {name : String} {init rest : Term} {ty : SimpleTy} :
      HasType env init ty → Enters env (.const name init rest) .rest (env.bind name ty) rest

/-- The term breaks its own rule, although the parts looked at so far have types. -/
inductive Breach : Environment → Term → TypeError → Prop
  | unknownVariable {env : Environment} {name : String} :
      env name = none → Breach env (.var name) (.unknownVariable name)
  | left {env : Environment} {left right : Term} {ty : SimpleTy} :
      HasType env left ty → ty ≠ .number → Breach env (.add left right) .numberExpected
  | right {env : Environment} {left right : Term} {ty : SimpleTy} :
      HasType env left .number → HasType env right ty → ty ≠ .number →
      Breach env (.add left right) .numberExpected
  | cond {env : Environment} {cond thenBranch elseBranch : Term} {ty : SimpleTy} :
      HasType env cond ty → ty ≠ .boolean →
      Breach env (.conditional cond thenBranch elseBranch) .booleanExpected
  | branches {env : Environment} {cond thenBranch elseBranch : Term} {thenTy elseTy : SimpleTy} :
      HasType env cond .boolean → HasType env thenBranch thenTy → HasType env elseBranch elseTy →
      thenTy ≠ elseTy → Breach env (.conditional cond thenBranch elseBranch) .branchMismatch
  | callee {env : Environment} {callee : Term} {args : List Term} {ty : SimpleTy} :
      HasType env callee ty → (∀ params result, ty ≠ .function params result) →
      Breach env (.call callee args) .functionExpected
  /-- The number of arguments counts before any of them is looked at. -/
  | arity {env : Environment} {callee : Term} {args : List Term} {params : List SimpleTy}
      {result : SimpleTy} :
      HasType env callee (.function params result) → args.length ≠ params.length →
      Breach env (.call callee args) (.wrongArgumentCount params.length args.length)
  | arg {env : Environment} {callee arg : Term} {args : List Term} {params : List SimpleTy}
      {param result ty : SimpleTy} {index : Nat} :
      HasType env callee (.function params result) → args.length = params.length →
      IsNext (fun pair ↦ HasType env pair.1 pair.2) (args.zip params) index (arg, param) →
      HasType env arg ty → ty ≠ param →
      Breach env (.call callee args) (.argumentMismatch index)

/-- The path leads from a term to a subterm and its environment, and all that is looked at on the
way passes. -/
inductive Reaches : Environment → Term → List Step → Environment → Term → Prop
  | here {env : Environment} {term : Term} : Reaches env term [] env term
  | step {env env₁ env₂ : Environment} {term term₁ term₂ : Term} {step : Step} {path : List Step} :
      Enters env term step env₁ term₁ → Reaches env₁ term₁ path env₂ term₂ →
      Reaches env term (step :: path) env₂ term₂

/-- The first violation of a rule in the term is at the end of the path. -/
def Violates (env : Environment) (term : Term) (path : List Step) (error : TypeError) : Prop :=
  ∃ env' subterm, Reaches env term path env' subterm ∧ Breach env' subterm error

variable {env env₁ env₂ : Environment} {term term₁ term₂ : Term} {step step' : Step}
  {error error' : TypeError}

namespace IsNext

variable {α : Type} {p : α → Prop} {values : List α} {index index' : Nat} {value value' : α}

theorem head : IsNext p (value :: values) 0 value := ⟨nofun, rfl⟩

theorem tail {first : α} (hfirst : p first) (h : IsNext p values index value) :
    IsNext p (first :: values) (index + 1) value := by
  refine ⟨?_, h.getElem?_eq⟩
  rw [List.take_succ_cons, List.forall_mem_cons]
  exact ⟨hfirst, h.before⟩

theorem mem (h : IsNext p values index value) : value ∈ values := List.mem_of_getElem? h.getElem?_eq

/-- What comes next later on has passed the predicate before. -/
theorem of_lt (h : IsNext p values index value) (h' : IsNext p values index' value')
    (hlt : index < index') : p value := by
  have htake : (values.take index')[index]? = some value := by
    rw [List.getElem?_take_of_lt hlt, h.getElem?_eq]
  exact h'.before value (List.mem_of_getElem? htake)

/-- At most one value without the property comes next. -/
theorem unique (h : IsNext p values index value) (h' : IsNext p values index' value')
    (hbad : ¬p value) (hbad' : ¬p value') : index = index' ∧ value = value' := by
  obtain hlt | rfl | hgt := Nat.lt_trichotomy index index'
  · exact absurd (h.of_lt h' hlt) hbad
  · exact ⟨rfl, Option.some.inj (h.getElem?_eq.symm.trans h'.getElem?_eq)⟩
  · exact absurd (h'.of_lt h hgt) hbad'

end IsNext

/-- The parts of a typed term have types. -/
theorem Enters.typable (h : Enters env term step env₁ term₁) (hterm : Typable env term) :
    Typable env₁ term₁ := by
  obtain ⟨ty, hty⟩ := hterm
  cases h with
  | cond => exact ⟨_, (HasType.conditional_iff.mp hty).1⟩
  | thenBranch => exact ⟨_, (HasType.conditional_iff.mp hty).2.1⟩
  | elseBranch => exact ⟨_, (HasType.conditional_iff.mp hty).2.2⟩
  | left => exact ⟨_, (HasType.add_iff.mp hty).2.1⟩
  | right => exact ⟨_, (HasType.add_iff.mp hty).2.2⟩
  | body =>
    obtain ⟨result, -, hbody⟩ := HasType.function_iff.mp hty
    exact ⟨result, hbody⟩
  | callee =>
    obtain ⟨params, hcallee, -⟩ := HasType.call_iff.mp hty
    exact ⟨_, hcallee⟩
  | arg hcallee hlength hnext =>
    obtain ⟨params, hcallee', hargs⟩ := HasType.call_iff.mp hty
    obtain ⟨rfl, -⟩ := SimpleTy.function.inj (hcallee.unique hcallee')
    exact ⟨_, (List.forall₂_iff_zip.mp hargs).2 hnext.mem⟩
  | statement hnext => exact (HasType.sequence_iff.mp hty).1 _ hnext.mem
  | rest => exact ⟨_, (HasType.sequence_iff.mp hty).2⟩
  | init =>
    obtain ⟨initTy, hinit, -⟩ := HasType.const_iff.mp hty
    exact ⟨initTy, hinit⟩
  | scope hinit =>
    obtain ⟨initTy, hinit', hrest⟩ := HasType.const_iff.mp hty
    obtain rfl := hinit.unique hinit'
    exact ⟨ty, hrest⟩

theorem Breach.not_typable (h : Breach env term error) : ¬Typable env term := by
  rintro ⟨ty, hty⟩
  cases h with
  | unknownVariable hname =>
    rw [HasType.var_iff, hname] at hty
    cases hty
  | left hleft hne => exact hne (hleft.unique (HasType.add_iff.mp hty).2.1)
  | right hleft hright hne => exact hne (hright.unique (HasType.add_iff.mp hty).2.2)
  | cond hcond hne => exact hne (hcond.unique (HasType.conditional_iff.mp hty).1)
  | branches hcond hthen helse hne =>
    obtain ⟨-, hthen', helse'⟩ := HasType.conditional_iff.mp hty
    exact hne ((hthen.unique hthen').trans (helse'.unique helse))
  | callee hcallee hne =>
    obtain ⟨params, hcallee', -⟩ := HasType.call_iff.mp hty
    exact hne _ _ (hcallee.unique hcallee')
  | arity hcallee hlength =>
    obtain ⟨params, hcallee', hargs⟩ := HasType.call_iff.mp hty
    obtain ⟨rfl, -⟩ := SimpleTy.function.inj (hcallee.unique hcallee')
    exact hlength hargs.length_eq
  | arg hcallee hlength hnext harg hne =>
    obtain ⟨params, hcallee', hargs⟩ := HasType.call_iff.mp hty
    obtain ⟨rfl, -⟩ := SimpleTy.function.inj (hcallee.unique hcallee')
    exact hne (harg.unique ((List.forall₂_iff_zip.mp hargs).2 hnext.mem))

/-- A term that breaks its own rule has types for all the parts that are looked at. -/
theorem Breach.typable_of_enters (h : Breach env term error)
    (henters : Enters env term step env₁ term₁) : Typable env₁ term₁ := by
  cases h with
  | unknownVariable => cases henters
  | left hleft hne =>
    cases henters with
    | left => exact ⟨_, hleft⟩
    | right hleft' => exact absurd (hleft.unique hleft') hne
  | right hleft hright hne =>
    cases henters with
    | left => exact ⟨_, hleft⟩
    | right => exact ⟨_, hright⟩
  | cond hcond hne =>
    cases henters with
    | cond => exact ⟨_, hcond⟩
    | thenBranch hcond' => exact absurd (hcond.unique hcond') hne
    | elseBranch hcond' => exact absurd (hcond.unique hcond') hne
  | branches hcond hthen helse hne =>
    cases henters with
    | cond => exact ⟨_, hcond⟩
    | thenBranch => exact ⟨_, hthen⟩
    | elseBranch => exact ⟨_, helse⟩
  | callee hcallee hne =>
    cases henters with
    | callee => exact ⟨_, hcallee⟩
    | arg hcallee' => exact absurd (hcallee.unique hcallee') (hne _ _)
  | arity hcallee hlength =>
    cases henters with
    | callee => exact ⟨_, hcallee⟩
    | arg hcallee' hlength' =>
      obtain ⟨rfl, -⟩ := SimpleTy.function.inj (hcallee.unique hcallee')
      exact absurd hlength' hlength
  | arg hcallee hlength hnext harg hne =>
    cases henters with
    | callee => exact ⟨_, hcallee⟩
    | arg hcallee' hlength' hnext' =>
      obtain ⟨rfl, -⟩ := SimpleTy.function.inj (hcallee.unique hcallee')
      -- Without a type the argument would be the wrong one, which has a type.
      by_contra hbad
      obtain ⟨-, hpair⟩ := hnext.unique hnext' (fun harg' ↦ hne (harg.unique harg'))
        (fun harg' ↦ hbad ⟨_, harg'⟩)
      obtain ⟨rfl, -⟩ := Prod.mk.inj hpair
      exact hbad ⟨_, harg⟩

/-! ## Uniqueness -/

/-- Of the parts that are looked at, at most one has no type. -/
theorem Enters.unique (h : Enters env term step env₁ term₁) (h' : Enters env term step' env₂ term₂)
    (hbad : ¬Typable env₁ term₁) (hbad' : ¬Typable env₂ term₂) :
    step = step' ∧ env₁ = env₂ ∧ term₁ = term₂ := by
  cases h with
  | cond =>
    cases h' with
    | cond => exact ⟨rfl, rfl, rfl⟩
    | thenBranch hcond => exact absurd ⟨_, hcond⟩ hbad
    | elseBranch hcond => exact absurd ⟨_, hcond⟩ hbad
  | thenBranch hcond =>
    cases h' with
    | cond => exact absurd ⟨_, hcond⟩ hbad'
    | thenBranch => exact ⟨rfl, rfl, rfl⟩
    | elseBranch _ hthen => exact absurd hthen hbad
  | elseBranch hcond hthen =>
    cases h' with
    | cond => exact absurd ⟨_, hcond⟩ hbad'
    | thenBranch => exact absurd hthen hbad'
    | elseBranch => exact ⟨rfl, rfl, rfl⟩
  | left =>
    cases h' with
    | left => exact ⟨rfl, rfl, rfl⟩
    | right hleft => exact absurd ⟨_, hleft⟩ hbad
  | right hleft =>
    cases h' with
    | left => exact absurd ⟨_, hleft⟩ hbad'
    | right => exact ⟨rfl, rfl, rfl⟩
  | body =>
    cases h' with
    | body => exact ⟨rfl, rfl, rfl⟩
  | callee =>
    cases h' with
    | callee => exact ⟨rfl, rfl, rfl⟩
    | arg hcallee => exact absurd ⟨_, hcallee⟩ hbad
  | arg hcallee _ hnext =>
    cases h' with
    | callee => exact absurd ⟨_, hcallee⟩ hbad'
    | arg hcallee' _ hnext' =>
      obtain ⟨rfl, -⟩ := SimpleTy.function.inj (hcallee.unique hcallee')
      obtain ⟨rfl, hpair⟩ := hnext.unique hnext' (fun harg ↦ hbad ⟨_, harg⟩)
        (fun harg ↦ hbad' ⟨_, harg⟩)
      obtain ⟨rfl, -⟩ := Prod.mk.inj hpair
      exact ⟨rfl, rfl, rfl⟩
  | statement hnext =>
    cases h' with
    | statement hnext' =>
      obtain ⟨rfl, rfl⟩ := hnext.unique hnext' hbad hbad'
      exact ⟨rfl, rfl, rfl⟩
    | rest hstatements => exact absurd (hstatements _ hnext.mem) hbad
  | rest hstatements =>
    cases h' with
    | statement hnext => exact absurd (hstatements _ hnext.mem) hbad'
    | rest => exact ⟨rfl, rfl, rfl⟩
  | init =>
    cases h' with
    | init => exact ⟨rfl, rfl, rfl⟩
    | scope hinit => exact absurd ⟨_, hinit⟩ hbad
  | scope hinit =>
    cases h' with
    | init => exact absurd ⟨_, hinit⟩ hbad'
    | scope hinit' =>
      obtain rfl := hinit.unique hinit'
      exact ⟨rfl, rfl, rfl⟩

/-- A term breaks its own rule in one way only. -/
theorem Breach.unique (h : Breach env term error) (h' : Breach env term error') :
    error = error' := by
  cases h with
  | unknownVariable => cases h' with
    | unknownVariable => rfl
  | left => cases h' with
    | left => rfl
    | right => rfl
  | right => cases h' with
    | left => rfl
    | right => rfl
  | cond hcond hne =>
    cases h' with
    | cond => rfl
    | branches hcond' => exact absurd (hcond.unique hcond') hne
  | branches hcond =>
    cases h' with
    | cond hcond' hne => exact absurd (hcond'.unique hcond) hne
    | branches => rfl
  | callee hcallee hne =>
    cases h' with
    | callee => rfl
    | arity hcallee' => exact absurd (hcallee.unique hcallee') (hne _ _)
    | arg hcallee' => exact absurd (hcallee.unique hcallee') (hne _ _)
  | arity hcallee hlength =>
    cases h' with
    | callee hcallee' hne => exact absurd (hcallee'.unique hcallee) (hne _ _)
    | arity hcallee' =>
      obtain ⟨rfl, -⟩ := SimpleTy.function.inj (hcallee.unique hcallee')
      rfl
    | arg hcallee' hlength' =>
      obtain ⟨rfl, -⟩ := SimpleTy.function.inj (hcallee.unique hcallee')
      exact absurd hlength' hlength
  | arg hcallee hlength hnext harg hne =>
    cases h' with
    | callee hcallee' hne' => exact absurd (hcallee'.unique hcallee) (hne' _ _)
    | arity hcallee' hlength' =>
      obtain ⟨rfl, -⟩ := SimpleTy.function.inj (hcallee.unique hcallee')
      exact absurd hlength hlength'
    | arg hcallee' _ hnext' harg' hne' =>
      obtain ⟨rfl, -⟩ := SimpleTy.function.inj (hcallee.unique hcallee')
      obtain ⟨rfl, -⟩ := hnext.unique hnext' (fun h ↦ hne (harg.unique h))
        (fun h ↦ hne' (harg'.unique h))
      rfl

namespace Violates

variable {path path' : List Step}

theorem of_breach (h : Breach env term error) : Violates env term [] error := ⟨env, term, .here, h⟩

theorem of_enters (henters : Enters env term step env₁ term₁) (h : Violates env₁ term₁ path error) :
    Violates env term (step :: path) error := by
  obtain ⟨env', subterm, hreaches, hbreach⟩ := h
  exact ⟨env', subterm, .step henters hreaches, hbreach⟩

/-- A violation is in the term itself or in one of its parts. -/
theorem cases (h : Violates env term path error) :
    (path = [] ∧ Breach env term error) ∨
      ∃ step rest env₁ term₁, path = step :: rest ∧ Enters env term step env₁ term₁ ∧
        Violates env₁ term₁ rest error := by
  obtain ⟨env', subterm, hreaches, hbreach⟩ := h
  cases hreaches with
  | here => exact .inl ⟨rfl, hbreach⟩
  | step henters hrest => exact .inr ⟨_, _, _, _, rfl, henters, env', subterm, hrest, hbreach⟩

theorem not_typable (h : Violates env term path error) : ¬Typable env term := by
  induction path generalizing env term with
  | nil =>
    obtain ⟨-, hbreach⟩ | ⟨_, _, _, _, hpath, -⟩ := h.cases
    · exact hbreach.not_typable
    · cases hpath
  | cons step path ih =>
    obtain ⟨hpath, -⟩ | ⟨_, _, env₁, term₁, hpath, henters, hrest⟩ := h.cases
    · cases hpath
    · cases hpath
      exact fun hterm ↦ ih hrest (henters.typable hterm)

/-- There is only one place where a term goes wrong, and only one error there. -/
theorem unique (h : Violates env term path error) (h' : Violates env term path' error') :
    path = path' ∧ error = error' := by
  induction path generalizing env term path' with
  | nil =>
    obtain ⟨-, hbreach⟩ | ⟨_, _, _, _, hpath, -⟩ := h.cases
    · obtain ⟨rfl, hbreach'⟩ | ⟨_, _, _, _, -, henters', hrest'⟩ := h'.cases
      · exact ⟨rfl, hbreach.unique hbreach'⟩
      · exact absurd (hbreach.typable_of_enters henters') hrest'.not_typable
    · cases hpath
  | cons step path ih =>
    obtain ⟨hpath, -⟩ | ⟨_, _, _, _, hpath, henters, hrest⟩ := h.cases
    · cases hpath
    · cases hpath
      obtain ⟨-, hbreach'⟩ | ⟨_, _, _, _, rfl, henters', hrest'⟩ := h'.cases
      · exact absurd (hbreach'.typable_of_enters henters) hrest.not_typable
      · obtain ⟨rfl, rfl, rfl⟩ := henters.unique henters' hrest.not_typable hrest'.not_typable
        obtain ⟨rfl, herror⟩ := ih hrest hrest'
        exact ⟨rfl, herror⟩

end Violates

end ArrowLang
