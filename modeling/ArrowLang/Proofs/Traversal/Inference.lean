import ArrowLang.Proofs.Traversal.Recording
import ArrowLang.Proofs.Typing.FirstViolation

/-!
# The traversal of inference

Inference visits the subterms of a term in reading order.  Which components it enters is what the
typing rules say of the components before them, so that the visits are those of a walk in which the
typable terms pass.
-/

namespace ArrowLang

open Composite (components)

/-- The components of a term.  The body of a function and the rest of a constant are scopes. -/
def Term.components : Term → List (Component Term)
  | boolean _ | number _ | var _ => []
  | conditional cond thenBranch elseBranch =>
    [⟨.cond, 0, cond⟩, ⟨.thenBranch, 0, thenBranch⟩, ⟨.elseBranch, 0, elseBranch⟩]
  | add left right => [⟨.left, 0, left⟩, ⟨.right, 0, right⟩]
  | function _ body => [⟨.body, 1, body⟩]
  | call callee args => ⟨.callee, 0, callee⟩ :: Component.numbered .arg 0 args
  | sequence statements rest => Component.numbered .statement 0 statements ++ [⟨.rest, 0, rest⟩]
  | const _ init rest => [⟨.init, 0, init⟩, ⟨.rest, 1, rest⟩]

theorem Component.sizeOf_lt_of_numbered {step : Nat → Step} {start : Nat} {terms : List Term}
    {component : Component Term} (h : component ∈ numbered step start terms) :
    sizeOf component.term < sizeOf terms := by
  obtain ⟨index, term, hterm, rfl⟩ := mem_numbered.mp h
  exact List.sizeOf_lt_of_mem (List.mem_of_getElem? hterm)

theorem Term.sizeOf_component_lt {term : Term} {component : Component Term}
    (h : component ∈ term.components) : sizeOf component.term < sizeOf term := by
  cases term with
  | boolean | number | var => cases h
  | conditional | add | function | const =>
    simp only [components, List.mem_cons, List.not_mem_nil, or_false] at h
    grind
  | call callee args =>
    obtain rfl | h := List.mem_cons.mp h
    · grind
    · have hlt := Component.sizeOf_lt_of_numbered h
      grind
  | sequence statements rest =>
    obtain h | h := List.mem_append.mp h
    · have hlt := Component.sizeOf_lt_of_numbered h
      grind
    · obtain rfl := List.mem_singleton.mp h
      grind

theorem Term.components_ordered (term : Term) :
    term.components.Pairwise fun component later ↦ component.step.Before later.step := by
  cases term with
  | boolean value | number value | var name => exact .nil
  | conditional cond thenBranch elseBranch =>
    simp [components, Step.Before.condThen, Step.Before.condElse, Step.Before.thenElse]
  | add left right => simp [components, Step.Before.leftRight]
  | function params body => simp [components]
  | call callee args =>
    refine .cons (fun later hlater ↦ ?_) (Component.ordered_numbered .args 0 args)
    obtain ⟨index, arg, -, rfl⟩ := Component.mem_numbered.mp hlater
    exact .calleeArg _
  | sequence statements rest =>
    refine List.pairwise_append.mpr
      ⟨Component.ordered_numbered .statements 0 statements, List.pairwise_singleton _ _, ?_⟩
    intro component hcomponent later hlater
    obtain ⟨index, statement, -, rfl⟩ := Component.mem_numbered.mp hcomponent
    obtain rfl := List.mem_singleton.mp hlater
    exact .statementRest _
  | const name init rest => simp [components, Step.Before.initRest]

instance : Composite Term where
  components := Term.components
  sizeOf_lt := Term.sizeOf_component_lt
  ordered := Term.components_ordered

variable {env env₁ env₂ : Environment} {term term₁ term₂ : Term} {step step' : Step}

theorem IsNext.getElem?_left {α β : Type} {p : α × β → Prop} {left : List α} {right : List β}
    {index : Nat} {pair : α × β} (h : IsNext p (left.zip right) index pair) :
    left[index]? = some pair.1 :=
  (List.getElem?_zip_eq_some.mp h.getElem?_eq).1

theorem Enters.exists_component (h : Enters env term step env₁ term₁) :
    ∃ component ∈ components term, component.step = step ∧ component.term = term₁ := by
  cases h with
  | cond | left | body | callee | init => exact ⟨_, List.mem_cons_self, rfl, rfl⟩
  | thenBranch => exact ⟨⟨.thenBranch, 0, _⟩, by simp [components, Term.components], rfl, rfl⟩
  | elseBranch => exact ⟨⟨.elseBranch, 0, _⟩, by simp [components, Term.components], rfl, rfl⟩
  | right => exact ⟨⟨.right, 0, _⟩, by simp [components, Term.components], rfl, rfl⟩
  | arg _ _ hnext =>
    refine ⟨⟨.arg _, 0, _⟩, List.mem_cons_of_mem _ ?_, rfl, rfl⟩
    exact Component.mem_numbered.mpr ⟨_, _, hnext.getElem?_left, by rw [Nat.zero_add]⟩
  | statement hnext =>
    refine ⟨⟨.statement _, 0, _⟩, List.mem_append_left _ ?_, rfl, rfl⟩
    exact Component.mem_numbered.mpr ⟨_, _, hnext.getElem?_eq, by rw [Nat.zero_add]⟩
  | rest => exact ⟨⟨.rest, 0, _⟩, List.mem_append_right _ List.mem_cons_self, rfl, rfl⟩
  | scope => exact ⟨⟨.rest, 1, _⟩, by simp [components, Term.components], rfl, rfl⟩

/-- A step leads to one place. -/
theorem Enters.functional (h : Enters env term step env₁ term₁)
    (h' : Enters env term step env₂ term₂) : env₁ = env₂ ∧ term₁ = term₂ := by
  cases h with
  | scope hinit =>
    cases h' with
    | scope hinit' =>
      obtain rfl := hinit.unique hinit'
      exact ⟨rfl, rfl⟩
  | arg _ _ hnext =>
    cases h' with
    | arg _ _ hnext' =>
      exact ⟨rfl, Option.some.inj (hnext.getElem?_left.symm.trans hnext'.getElem?_left)⟩
  | statement hnext =>
    cases h' with
    | statement hnext' =>
      exact ⟨rfl, Option.some.inj (hnext.getElem?_eq.symm.trans hnext'.getElem?_eq)⟩
  | _ =>
    cases h'
    exact ⟨rfl, rfl⟩

/-- What is entered before something else has a type. -/
theorem Enters.typable_of_before (h : Enters env term step env₁ term₁)
    (h' : Enters env term step' env₂ term₂) (hbefore : step.Before step') :
    Typable env₁ term₁ := by
  cases hbefore with
  | condThen =>
    cases h
    cases h' with
    | thenBranch hcond => exact ⟨_, hcond⟩
  | condElse =>
    cases h
    cases h' with
    | elseBranch hcond => exact ⟨_, hcond⟩
  | thenElse =>
    cases h
    cases h' with
    | elseBranch _ hthen => exact hthen
  | leftRight =>
    cases h
    cases h' with
    | right hleft => exact ⟨_, hleft⟩
  | calleeArg =>
    cases h
    cases h' with
    | arg hcallee => exact ⟨_, hcallee⟩
  | args hlt =>
    cases h with
    | arg hcallee _ hnext =>
      cases h' with
      | arg hcallee' _ hnext' =>
        obtain ⟨rfl, -⟩ := SimpleTy.function.inj (hcallee.unique hcallee')
        exact ⟨_, hnext.of_lt hnext' hlt⟩
  | statements hlt =>
    cases h with
    | statement hnext =>
      cases h' with
      | statement hnext' => exact hnext.of_lt hnext' hlt
  | statementRest =>
    cases h with
    | statement hnext =>
      cases h' with
      | rest hstatements => exact hstatements _ hnext.mem
  | initRest =>
    cases h
    cases h' with
    | scope hinit => exact ⟨_, hinit⟩

/-- The first value after those that have passed comes next. -/
theorem IsNext.after {α : Type} {p : α → Prop} {passed values : List α} {value : α}
    (h : ∀ value ∈ passed, p value) : IsNext p (passed ++ value :: values) passed.length value := by
  constructor
  · rwa [List.take_left]
  · simp

theorem IsNext.of_forall {α : Type} {p : α → Prop} {values : List α} {index : Nat} {value : α}
    (h : ∀ value ∈ values, p value) (hvalue : values[index]? = some value) :
    IsNext p values index value :=
  ⟨fun earlier hearlier ↦ h earlier (List.mem_of_mem_take hearlier), hvalue⟩

/-- All components of a typed term are entered. -/
theorem Typable.enters (h : Typable env term) {component : Component Term}
    (hcomponent : component ∈ components term) :
    ∃ env₁, Enters env term component.step env₁ component.term := by
  obtain ⟨ty, hty⟩ := h
  cases term with
  | boolean value | number value | var name => cases hcomponent
  | conditional cond thenBranch elseBranch =>
    obtain ⟨hcond, hthen, -⟩ := HasType.conditional_iff.mp hty
    simp only [components, Term.components, List.mem_cons, List.not_mem_nil, or_false] at hcomponent
    obtain rfl | rfl | rfl := hcomponent
    · exact ⟨env, .cond⟩
    · exact ⟨env, .thenBranch hcond⟩
    · exact ⟨env, .elseBranch hcond ⟨_, hthen⟩⟩
  | add left right =>
    obtain ⟨-, hleft, -⟩ := HasType.add_iff.mp hty
    simp only [components, Term.components, List.mem_cons, List.not_mem_nil, or_false] at hcomponent
    obtain rfl | rfl := hcomponent
    · exact ⟨env, .left⟩
    · exact ⟨env, .right hleft⟩
  | function params body =>
    obtain rfl := List.mem_singleton.mp hcomponent
    exact ⟨_, .body⟩
  | call callee args =>
    obtain ⟨params, hcallee, hargs⟩ := HasType.call_iff.mp hty
    obtain ⟨hlength, hzip⟩ := List.forall₂_iff_zip.mp hargs
    obtain rfl | hcomponent := List.mem_cons.mp hcomponent
    · exact ⟨env, .callee⟩
    · obtain ⟨index, arg, harg, rfl⟩ := Component.mem_numbered.mp hcomponent
      obtain ⟨hindex, -⟩ := List.getElem?_eq_some_iff.mp harg
      have hpair : (args.zip params)[index]? = some (arg, params[index]) :=
        List.getElem?_zip_eq_some.mpr ⟨harg, List.getElem?_eq_getElem (hlength ▸ hindex)⟩
      rw [Nat.zero_add]
      exact ⟨env, .arg hcallee hlength (.of_forall (fun _ hmem ↦ hzip hmem) hpair)⟩
  | sequence statements rest =>
    obtain ⟨hstatements, -⟩ := HasType.sequence_iff.mp hty
    obtain hcomponent | hcomponent := List.mem_append.mp hcomponent
    · obtain ⟨index, statement, hstatement, rfl⟩ := Component.mem_numbered.mp hcomponent
      rw [Nat.zero_add]
      exact ⟨env, .statement (.of_forall hstatements hstatement)⟩
    · obtain rfl := List.mem_singleton.mp hcomponent
      exact ⟨env, .rest hstatements⟩
  | const name init rest =>
    obtain ⟨initTy, hinit, -⟩ := HasType.const_iff.mp hty
    simp only [components, Term.components, List.mem_cons, List.not_mem_nil, or_false] at hcomponent
    obtain rfl | rfl := hcomponent
    · exact ⟨env, .init⟩
    · exact ⟨_, .scope hinit⟩

/-- The walk of inference, in which terms with a type pass. -/
def Walk.inference : Walk (Environment × Term) Term where
  term := Prod.snd
  enters node step next := Enters node.1 node.2 step next.1 next.2
  reaches node path target := Reaches node.1 node.2 path target.1 target.2
  passes node := Typable node.1 node.2
  reaches_nil := by
    rintro ⟨env, term⟩ ⟨env', term'⟩
    constructor
    · intro h
      cases h
      rfl
    · intro h
      cases h
      exact .here
  reaches_cons := by
    intro node target step path
    constructor
    · intro h
      cases h with
      | step henters hreaches => exact ⟨(_, _), henters, hreaches⟩
    · rintro ⟨next, henters, hreaches⟩
      exact .step henters hreaches
  component := Enters.exists_component
  unique h h' := by
    obtain ⟨henv, hterm⟩ := h.functional h'
    exact Prod.ext henv hterm
  passes_before := Enters.typable_of_before
  passes_components hpasses hcomponent := by
    obtain ⟨env₁, henters⟩ := hpasses.enters hcomponent
    exact ⟨(env₁, _), henters, rfl, henters.typable hpasses⟩

/-! ## Visits -/

/-- The subterm that is visited and the number of scopes around it. -/
def Event.visited? : Event → Option (Term × Nat)
  | visit term depth => some (term, depth)
  | _ => none

/-- What a visit reports of an occurrence in a term that itself stands under so many scopes. -/
def Occurrence.entry (depth : Nat) (occurrence : Occurrence Term) : Term × Nat :=
  (occurrence.term, depth + occurrence.scopes)

/-- A run within the check of a term records the walk of inference. -/
abbrev Recorded {α : Type} (context : Context) (term : Term) (run : Checking α)
    (listing : List (Occurrence Term)) : Prop :=
  Walk.inference.Records (context.erase, term) Event.visited? (Occurrence.entry context.depth) run
    listing

/-- Inference records its walk through the whole term. -/
def Traverses (context : Context) (term : Term) : Prop :=
  Recorded context term (infer context term) (occurrences term)

/-- What inference finds decides which simple types a term has. -/
theorem hasType_iff_equiv {context : Context} {ty ty' : Ty} (h : typeOf context term = .ok ty) :
    HasType context.erase term ty'.erase ↔ ty.equiv ty' := by
  rw [Ty.equiv_iff_erase_eq]
  have hty := (infers context term).hasType h
  constructor
  · exact hty.unique
  · intro heq
    rwa [← heq]

namespace Traverses

variable {context context' : Context} {γ : Type}

theorem exists_visits (h : Traverses context term) :
    ∃ visited, Walk.inference.Visits (context.erase, term) visited ∧
      (infer context term).events.filterMap Event.visited? =
        visited.map (Occurrence.entry context.depth) ∧
      ∀ ty, typeOf context term = .ok ty → visited = occurrences term :=
  Walk.Records.exists_visits h

theorem under {component : Component Term} (h : Traverses context' component.term)
    (henters : Enters context.erase term component.step context'.erase component.term)
    (hdepth : context'.depth = context.depth + component.scopes) :
    Recorded context term (infer context' component.term)
      ((occurrences component.term).map (.under component)) := by
  refine Walk.Records.under h henters fun occurrence ↦ ?_
  rw [Occurrence.entry, Occurrence.entry, Occurrence.under, hdepth, Nat.add_assoc]

/-- Inference on the last component. -/
theorem last {component : Component Term} (h : Traverses context' component.term)
    (henters : Enters context.erase term component.step context'.erase component.term)
    (hdepth : context'.depth = context.depth + component.scopes) :
    Recorded context term (infer context' component.term) (occurrencesIn [component]) := by
  rw [occurrencesIn_cons, occurrencesIn, List.flatMap_nil, List.append_nil]
  exact h.under henters hdepth

theorem next {component : Component Term} {later : List (Component Term)}
    {after : Ty → Checking γ} (h : Traverses context' component.term)
    (hordered : (component :: later).Pairwise fun component later ↦
      component.step.Before later.step)
    (henters : Enters context.erase term component.step context'.erase component.term)
    (hdepth : context'.depth = context.depth + component.scopes)
    (hafter : ∀ ty, typeOf context' component.term = .ok ty →
      Recorded context term (after ty) (occurrencesIn later)) :
    Recorded context term (infer context' component.term >>= after)
      (occurrencesIn (component :: later)) := by
  have hinner : Walk.inference.enters (context.erase, term) component.step
      (context'.erase, component.term) := henters
  refine .next hordered hinner (h.under henters hdepth) (fun error herror hpasses ↦ ?_) hafter
  obtain ⟨found, hfound⟩ := (infers context' component.term).typable_iff.mp hpasses
  rw [typeOf, herror] at hfound
  cases hfound

theorem not_reached {components : List (Component Term)}
    (h : ∀ component ∈ components, ∀ env₁ term₁,
      ¬Enters context.erase term component.step env₁ term₁) :
    ∀ occurrence ∈ occurrencesIn components,
      ¬Walk.inference.Reached (context.erase, term) occurrence.path :=
  Walk.not_reached_of_not_entered fun component hcomponent next ↦
    h component hcomponent next.1 next.2

theorem boolean (value : Bool) : Traverses context (.boolean value) := by
  rw [Traverses, infer]
  exact .visit rfl (.silent rfl)

theorem number (value : Binary64) : Traverses context (.number value) := by
  rw [Traverses, infer]
  exact .visit rfl (.silent rfl)

theorem conditional {cond thenBranch elseBranch : Term} (hcond : Traverses context cond)
    (hthen : Traverses context thenBranch) (helse : Traverses context elseBranch) :
    Traverses context (.conditional cond thenBranch elseBranch) := by
  have hordered := Term.components_ordered (.conditional cond thenBranch elseBranch)
  rw [Traverses, infer]
  refine .visit rfl (hcond.next hordered .cond rfl fun condTy hcondTy ↦ ?_)
  refine .guard (fun hboolean ↦ ?_) fun hne ↦ not_reached ?_
  · have hcondType := (hasType_iff_equiv hcondTy).mpr hboolean
    refine hthen.next hordered.of_cons (.thenBranch hcondType) rfl fun thenTy hthenTy ↦ ?_
    have hthenType := (infers context thenBranch).hasType hthenTy
    refine helse.next hordered.of_cons.of_cons (.elseBranch hcondType ⟨_, hthenType⟩) rfl
      fun elseTy _ ↦ ?_
    exact .guard (fun _ ↦ .silent rfl) fun _ ↦ nofun
  · intro component hcomponent env₁ term₁ hnext
    simp only [List.mem_cons, List.not_mem_nil, or_false] at hcomponent
    obtain rfl | rfl := hcomponent
    · cases hnext with
      | thenBranch hcondType => exact hne ((hasType_iff_equiv hcondTy).mp hcondType)
    · cases hnext with
      | elseBranch hcondType => exact hne ((hasType_iff_equiv hcondTy).mp hcondType)

theorem add {left right : Term} (hleft : Traverses context left)
    (hright : Traverses context right) : Traverses context (.add left right) := by
  have hordered := Term.components_ordered (.add left right)
  rw [Traverses, infer]
  refine .visit rfl (hleft.next hordered .left rfl fun leftTy hleftTy ↦ ?_)
  refine .guard (fun hnumber ↦ ?_) fun hne ↦ not_reached ?_
  · have hleftType := (hasType_iff_equiv hleftTy).mpr hnumber
    refine hright.next hordered.of_cons (.right hleftType) rfl fun rightTy _ ↦ ?_
    exact .guard (fun _ ↦ .silent rfl) fun _ ↦ nofun
  · intro component hcomponent env₁ term₁ hnext
    obtain rfl := List.mem_singleton.mp hcomponent
    cases hnext with
    | right hleftType => exact hne ((hasType_iff_equiv hleftTy).mp hleftType)

theorem var (name : String) : Traverses context (.var name) := by
  rw [Traverses, infer]
  refine .visit rfl (.silent ?_)
  cases context.lookup name <;> rfl

theorem function {params : List Param} {body : Term}
    (hbody : Traverses (context.extend params) body) :
    Traverses context (.function params body) := by
  rw [Traverses, infer]
  refine .visit rfl (.emit rfl (.finish (hbody.last ?_ rfl) fun _ ↦ rfl))
  rw [Context.erase_extend]
  exact .body

/-- Arguments after some that have passed. -/
theorem checkArgs {callee : Term} {allArgs : List Term} {types : List SimpleTy} {result : SimpleTy}
    (hcallee : HasType context.erase callee (.function types result))
    (hlength : allArgs.length = types.length) {args : List Term}
    (hargs : ∀ arg ∈ args, Traverses context arg) {params : List Param}
    (hcount : params.length = args.length) {passed : List (Term × SimpleTy)}
    (hpassed : ∀ pair ∈ passed, HasType context.erase pair.1 pair.2)
    (hsplit : allArgs.zip types = passed ++ args.zip (Ty.eraseParams params)) :
    Recorded context (.call callee allArgs) (checkArgs context passed.length args params)
      (occurrencesIn (Component.numbered .arg passed.length args)) := by
  -- The pairs that have passed grow from step to step, and their number is the position.
  induction args generalizing params passed with
  | nil =>
    rw [ArrowLang.checkArgs.eq_def]
    exact .silent rfl
  | cons arg args ih =>
    obtain ⟨param, params, rfl⟩ := List.exists_cons_of_length_eq_add_one hcount
    rw [List.forall_mem_cons] at hargs
    have hnext : IsNext (fun pair ↦ HasType context.erase pair.1 pair.2) (allArgs.zip types)
        passed.length (arg, param.ty.erase) := by
      rw [hsplit]
      exact .after hpassed
    have hordered := Component.ordered_numbered Step.Before.args passed.length (arg :: args)
    rw [ArrowLang.checkArgs]
    refine hargs.1.next hordered (.arg hcallee hlength hnext) rfl fun ty hty ↦ ?_
    refine .guard (fun hequiv ↦ ?_) fun hne ↦ not_reached ?_
    · have htype := (hasType_iff_equiv hty).mpr hequiv
      have hpassed' : ∀ pair ∈ passed ++ [(arg, param.ty.erase)],
          HasType context.erase pair.1 pair.2 :=
        List.forall_mem_append.mpr ⟨hpassed, List.forall_mem_singleton.mpr htype⟩
      have hrest := ih hargs.2 (Nat.succ.inj hcount) hpassed' (by simp [hsplit, Ty.eraseParams])
      rwa [List.length_append, List.length_singleton] at hrest
    · intro component hcomponent env₁ term₁ hlater
      obtain ⟨index, later, -, rfl⟩ := Component.mem_numbered.mp hcomponent
      cases hlater with
      | arg hcallee' _ hnext' =>
        obtain ⟨rfl, -⟩ := SimpleTy.function.inj (hcallee.unique hcallee')
        exact hne ((hasType_iff_equiv hty).mp (hnext.of_lt hnext' (by omega)))

/-- If the callee has the wrong type, no argument is entered. -/
theorem not_entered_args {callee : Term} {args : List Term}
    (hcallee : ∀ types result, args.length = types.length →
      ¬HasType context.erase callee (.function types result)) :
    ∀ component ∈ Component.numbered Step.arg 0 args, ∀ env₁ term₁,
      ¬Enters context.erase (.call callee args) component.step env₁ term₁ := by
  intro component hcomponent env₁ term₁ hnext
  obtain ⟨index, arg, -, rfl⟩ := Component.mem_numbered.mp hcomponent
  cases hnext with
  | arg htype hlength _ => exact hcallee _ _ hlength htype

theorem call {callee : Term} {args : List Term} (hcallee : Traverses context callee)
    (hargs : ∀ arg ∈ args, Traverses context arg) : Traverses context (.call callee args) := by
  have hordered := Term.components_ordered (.call callee args)
  rw [Traverses, infer]
  refine .visit rfl (hcallee.next hordered .callee rfl fun calleeTy hcalleeTy ↦ ?_)
  have hcalleeType := (infers context callee).hasType hcalleeTy
  cases calleeTy with
  | boolean | number =>
    refine .fail _ (not_reached (not_entered_args fun types result _ htype ↦ ?_))
    cases hcalleeType.unique htype
  | function params result =>
    refine .guard (fun hcount ↦ ?_) fun hcount ↦ not_reached (not_entered_args ?_)
    · rw [beq_iff_eq] at hcount
      have hlength : args.length = (Ty.eraseParams params).length := by
        rw [Ty.length_eraseParams, hcount]
      exact (checkArgs hcalleeType hlength hargs hcount (List.forall_mem_nil _) rfl).finish
        fun _ ↦ rfl
    · intro types result' hlength htype
      obtain ⟨rfl, -⟩ := SimpleTy.function.inj (hcalleeType.unique htype)
      rw [Ty.length_eraseParams] at hlength
      exact hcount (beq_iff_eq.mpr hlength.symm)

/-- Statements after some that have passed. -/
theorem checkStatements {allStatements : List Term} {rest : Term} {statements : List Term}
    (hstatements : ∀ statement ∈ statements, Traverses context statement) {passed : List Term}
    (hpassed : ∀ statement ∈ passed, Typable context.erase statement)
    (hsplit : allStatements = passed ++ statements) :
    Recorded context (.sequence allStatements rest) (checkStatements context statements)
      (occurrencesIn (Component.numbered .statement passed.length statements)) := by
  induction statements generalizing passed with
  | nil =>
    rw [ArrowLang.checkStatements]
    exact .silent rfl
  | cons statement statements ih =>
    rw [List.forall_mem_cons] at hstatements
    have hnext : IsNext (Typable context.erase) allStatements passed.length statement := by
      rw [hsplit]
      exact .after hpassed
    have hordered :=
      Component.ordered_numbered Step.Before.statements passed.length (statement :: statements)
    rw [ArrowLang.checkStatements]
    refine hstatements.1.next hordered (.statement hnext) rfl fun ty hty ↦ ?_
    have htype : Typable context.erase statement := ⟨_, (infers context statement).hasType hty⟩
    have hpassed' : ∀ earlier ∈ passed ++ [statement], Typable context.erase earlier :=
      List.forall_mem_append.mpr ⟨hpassed, List.forall_mem_singleton.mpr htype⟩
    have hrest := ih hstatements.2 hpassed' (by simp [hsplit])
    rwa [List.length_append, List.length_singleton] at hrest

theorem sequence {statements : List Term} {rest : Term}
    (hstatements : ∀ statement ∈ statements, Traverses context statement)
    (hrest : Traverses context rest) : Traverses context (.sequence statements rest) := by
  have hinfers (statement) (_ : statement ∈ statements) := infers context statement
  have hall := Infers.checkStatements hinfers
  have hchecked : Recorded context (.sequence statements rest)
      (ArrowLang.checkStatements context statements)
      (occurrencesIn (Component.numbered .statement 0 statements)) :=
    checkStatements hstatements (List.forall_mem_nil _) rfl
  rw [Traverses, infer]
  refine .visit rfl ?_
  change Recorded _ _ _
    (occurrencesIn (Component.numbered .statement 0 statements ++ [⟨.rest, 0, rest⟩]))
  rw [occurrencesIn_append]
  refine .bind hchecked (fun _ hok ↦ ?_) fun _ herror ↦ ?_
  · exact hrest.last (.rest (hall.mp hok)) rfl
  · refine not_reached (List.forall_mem_singleton.mpr fun env₁ term₁ hnext ↦ ?_)
    cases hnext with
    | rest htypable =>
      rw [← hall, herror] at htypable
      cases htypable

theorem const {name : String} {init rest : Term} (hinit : Traverses context init)
    (hrest : ∀ ty, Traverses (context.bind name ty) rest) :
    Traverses context (.const name init rest) := by
  have hordered := Term.components_ordered (.const name init rest)
  rw [Traverses, infer]
  refine .visit rfl (hinit.next hordered .init rfl fun ty hty ↦ .emit rfl ?_)
  refine (hrest ty).last ?_ rfl
  rw [Context.erase_bind]
  exact .scope ((infers context init).hasType hty)

end Traverses

/-- Inference records its walk through every term, under every context. -/
theorem traverses (context : Context) (term : Term) : Traverses context term := by
  induction term generalizing context with
  | boolean value => exact .boolean value
  | number value => exact .number value
  | conditional _ _ _ hcond hthen helse =>
    exact (hcond context).conditional (hthen context) (helse context)
  | add _ _ hleft hright => exact (hleft context).add (hright context)
  | var name => exact .var name
  | function params _ hbody => exact (hbody (context.extend params)).function
  | call _ _ hcallee hargs => exact (hcallee context).call fun arg hmem ↦ hargs arg hmem context
  | sequence _ _ hstatements hrest =>
    exact .sequence (fun statement hmem ↦ hstatements statement hmem context) (hrest context)
  | const name _ _ hinit hrest =>
    exact (hinit context).const fun ty ↦ hrest (context.bind name ty)

/-- A breach is where the walk of inference gets stuck. -/
theorem Breach.stuck {path : List Step} {error : TypeError}
    (hreaches : Reaches env term path env₁ term₁) (h : Breach env₁ term₁ error) :
    Walk.inference.Stuck (env, term) path (env₁, term₁) where
  reaches := hreaches
  not_passes := h.not_typable
  entered := h.typable_of_enters

end ArrowLang
