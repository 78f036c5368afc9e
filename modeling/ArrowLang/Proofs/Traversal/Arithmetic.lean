import ArrowLang.Proofs.Arith.Checking
import ArrowLang.Proofs.Traversal.Inference

/-!
# The traversals of both checks

The arithmetic check visits subterms in the same order as inference does, but it goes on from a
condition of any type.  With its walk, the visits of both checks can be compared with the listing
of subterms.
-/

namespace ArrowLang

open Composite (components)

namespace Arith

def Term.components : Term → List (Component Term)
  | boolean _ | number _ => []
  | conditional cond thenBranch elseBranch =>
    [⟨.cond, 0, cond⟩, ⟨.thenBranch, 0, thenBranch⟩, ⟨.elseBranch, 0, elseBranch⟩]
  | add left right => [⟨.left, 0, left⟩, ⟨.right, 0, right⟩]

theorem Term.sizeOf_component_lt {term : Term} {component : Component Term}
    (h : component ∈ term.components) : sizeOf component.term < sizeOf term := by
  cases term with
  | boolean | number => cases h
  | conditional | add =>
    simp only [components, List.mem_cons, List.not_mem_nil, or_false] at h
    grind

theorem Term.components_ordered (term : Term) :
    term.components.Pairwise fun component later ↦ component.step.Before later.step := by
  cases term with
  | boolean value | number value => exact .nil
  | conditional cond thenBranch elseBranch =>
    simp [components, Step.Before.condThen, Step.Before.condElse, Step.Before.thenElse]
  | add left right => simp [components, Step.Before.leftRight]

instance : Composite Term where
  components := Term.components
  sizeOf_lt := Term.sizeOf_component_lt
  ordered := Term.components_ordered

/-- The step leads from the term to a component, and all that is looked at before it passes. -/
inductive Enters : Term → Step → Term → Prop
  | cond {cond thenBranch elseBranch : Term} :
      Enters (.conditional cond thenBranch elseBranch) .cond cond
  /-- The type of the condition does not matter. -/
  | thenBranch {cond thenBranch elseBranch : Term} {condTy : Ty} : typeOf cond = .ok condTy →
      Enters (.conditional cond thenBranch elseBranch) .thenBranch thenBranch
  | elseBranch {cond thenBranch elseBranch : Term} {condTy thenTy : Ty} :
      typeOf cond = .ok condTy → typeOf thenBranch = .ok thenTy →
      Enters (.conditional cond thenBranch elseBranch) .elseBranch elseBranch
  | left {left right : Term} : Enters (.add left right) .left left
  | right {left right : Term} : typeOf left = .ok .number → Enters (.add left right) .right right

/-- The term breaks its own rule, although the components looked at so far have types. -/
inductive Breach : Term → TypeError → Prop
  | left {left right : Term} {ty : Ty} : typeOf left = .ok ty → ty ≠ .number →
      Breach (.add left right) .numberExpected
  | right {left right : Term} {ty : Ty} : typeOf left = .ok .number → typeOf right = .ok ty →
      ty ≠ .number → Breach (.add left right) .numberExpected
  | branches {cond thenBranch elseBranch : Term} {condTy thenTy elseTy : Ty} :
      typeOf cond = .ok condTy → typeOf thenBranch = .ok thenTy →
      typeOf elseBranch = .ok elseTy → thenTy ≠ elseTy →
      Breach (.conditional cond thenBranch elseBranch) .branchMismatch

/-- The path leads from a term to a subterm, and all that is looked at on the way passes. -/
inductive Reaches : Term → List Step → Term → Prop
  | here {term : Term} : Reaches term [] term
  | step {term term₁ term₂ : Term} {step : Step} {path : List Step} :
      Enters term step term₁ → Reaches term₁ path term₂ → Reaches term (step :: path) term₂

variable {term term₁ term₂ : Term} {step step' : Step} {error : TypeError}

theorem typeOf_conditional_eq_ok_iff {cond thenBranch elseBranch : Term} {ty : Ty} :
    typeOf (.conditional cond thenBranch elseBranch) = .ok ty ↔
      (∃ condTy, typeOf cond = .ok condTy) ∧ typeOf thenBranch = .ok ty ∧
        typeOf elseBranch = .ok ty := by
  simp only [typeOf_conditional, bind_eq_ok_iff, guard_eq_ok_iff, Except.ok.injEq]
  constructor
  · rintro ⟨condTy, hcond, thenTy, hthen, elseTy, helse, rfl, rfl⟩
    exact ⟨⟨condTy, hcond⟩, hthen, helse⟩
  · rintro ⟨⟨condTy, hcond⟩, hthen, helse⟩
    exact ⟨condTy, hcond, ty, hthen, ty, helse, rfl, rfl⟩

theorem typeOf_add_eq_ok_iff {left right : Term} {ty : Ty} :
    typeOf (.add left right) = .ok ty ↔
      typeOf left = .ok .number ∧ typeOf right = .ok .number ∧ ty = .number := by
  simp only [typeOf_add, bind_eq_ok_iff, guard_eq_ok_iff, Except.ok.injEq]
  constructor
  · rintro ⟨leftTy, hleft, rfl, rightTy, hright, rfl, rfl⟩
    exact ⟨hleft, hright, rfl⟩
  · rintro ⟨hleft, hright, rfl⟩
    exact ⟨.number, hleft, rfl, .number, hright, rfl, rfl⟩

theorem Enters.exists_component (h : Enters term step term₁) :
    ∃ component ∈ components term, component.step = step ∧ component.term = term₁ := by
  cases h with
  | cond | left => exact ⟨_, List.mem_cons_self, rfl, rfl⟩
  | thenBranch => exact ⟨⟨.thenBranch, 0, _⟩, by simp [components, Term.components], rfl, rfl⟩
  | elseBranch => exact ⟨⟨.elseBranch, 0, _⟩, by simp [components, Term.components], rfl, rfl⟩
  | right => exact ⟨⟨.right, 0, _⟩, by simp [components, Term.components], rfl, rfl⟩

theorem Enters.functional (h : Enters term step term₁) (h' : Enters term step term₂) :
    term₁ = term₂ := by
  cases h <;> cases h' <;> rfl

theorem Enters.typeOf_of_before (h : Enters term step term₁) (h' : Enters term step' term₂)
    (hbefore : step.Before step') : ∃ ty, typeOf term₁ = .ok ty := by
  cases hbefore with
  | condThen =>
    cases h
    cases h' with
    | thenBranch hcond => exact ⟨_, hcond⟩
  | condElse =>
    cases h
    cases h' with
    | elseBranch hcond => exact ⟨_, hcond⟩
  | thenElse =>
    cases h
    cases h' with
    | elseBranch _ hthen => exact ⟨_, hthen⟩
  | leftRight =>
    cases h
    cases h' with
    | right hleft => exact ⟨_, hleft⟩
  | _ => cases h

/-- All components of a term with a type are entered and have types. -/
theorem exists_enters {ty : Ty} (h : typeOf term = .ok ty) {component : Component Term}
    (hcomponent : component ∈ components term) :
    Enters term component.step component.term ∧ ∃ ty, typeOf component.term = .ok ty := by
  cases term with
  | boolean value | number value => cases hcomponent
  | conditional cond thenBranch elseBranch =>
    obtain ⟨⟨condTy, hcond⟩, hthen, helse⟩ := typeOf_conditional_eq_ok_iff.mp h
    simp only [components, Term.components, List.mem_cons, List.not_mem_nil, or_false] at hcomponent
    obtain rfl | rfl | rfl := hcomponent
    · exact ⟨.cond, _, hcond⟩
    · exact ⟨.thenBranch hcond, _, hthen⟩
    · exact ⟨.elseBranch hcond hthen, _, helse⟩
  | add left right =>
    obtain ⟨hleft, hright, -⟩ := typeOf_add_eq_ok_iff.mp h
    simp only [components, Term.components, List.mem_cons, List.not_mem_nil, or_false] at hcomponent
    obtain rfl | rfl := hcomponent
    · exact ⟨.left, _, hleft⟩
    · exact ⟨.right hleft, _, hright⟩

/-- The walk of the arithmetic check, in which terms with a type pass. -/
def walk : Walk Term Term where
  term := id
  enters := Enters
  reaches := Reaches
  passes term := ∃ ty, typeOf term = .ok ty
  reaches_nil := by
    intro term target
    constructor
    · intro h
      cases h
      rfl
    · rintro rfl
      exact .here
  reaches_cons := by
    intro term target step path
    constructor
    · intro h
      cases h with
      | step henters hreaches => exact ⟨_, henters, hreaches⟩
    · rintro ⟨next, henters, hreaches⟩
      exact .step henters hreaches
  component := Enters.exists_component
  unique := Enters.functional
  passes_before := Enters.typeOf_of_before
  passes_components hpasses hcomponent := by
    obtain ⟨ty, hty⟩ := hpasses
    obtain ⟨henters, hpasses⟩ := exists_enters hty hcomponent
    exact ⟨_, henters, rfl, hpasses⟩

theorem Breach.typeOf_ne_ok (h : Breach term error) (ty : Ty) : typeOf term ≠ .ok ty := by
  intro hty
  cases h with
  | left hleft hne =>
    rw [(typeOf_add_eq_ok_iff.mp hty).1] at hleft
    exact hne (Except.ok.inj hleft).symm
  | right _ hright hne =>
    rw [(typeOf_add_eq_ok_iff.mp hty).2.1] at hright
    exact hne (Except.ok.inj hright).symm
  | branches _ hthen helse hne =>
    obtain ⟨-, hthen', helse'⟩ := typeOf_conditional_eq_ok_iff.mp hty
    rw [hthen'] at hthen
    rw [helse'] at helse
    exact hne ((Except.ok.inj hthen).symm.trans (Except.ok.inj helse))

theorem Breach.typeOf_of_enters (h : Breach term error) (henters : Enters term step term₁) :
    ∃ ty, typeOf term₁ = .ok ty := by
  cases h with
  | left hleft hne =>
    cases henters with
    | left => exact ⟨_, hleft⟩
    | right hleft' => exact absurd (Except.ok.inj (hleft.symm.trans hleft')) hne
  | right hleft hright hne =>
    cases henters with
    | left => exact ⟨_, hleft⟩
    | right => exact ⟨_, hright⟩
  | branches hcond hthen helse hne =>
    cases henters with
    | cond => exact ⟨_, hcond⟩
    | thenBranch => exact ⟨_, hthen⟩
    | elseBranch => exact ⟨_, helse⟩

theorem Breach.stuck {path : List Step} (hreaches : Reaches term path term₁)
    (h : Breach term₁ error) : walk.Stuck term path term₁ where
  reaches := hreaches
  not_passes := fun ⟨ty, hty⟩ ↦ h.typeOf_ne_ok ty hty
  entered := h.typeOf_of_enters

/-- Every error of the arithmetic check is that of a breach. -/
theorem exists_breach (h : typeOf term = .error error) :
    ∃ path subterm, Reaches term path subterm ∧ Breach subterm error := by
  induction term with
  | boolean value => simp at h
  | number value => simp at h
  | conditional cond thenBranch elseBranch hcond hthen helse =>
    rw [typeOf_conditional, bind_eq_error_iff] at h
    obtain h | ⟨condTy, hcondTy, h⟩ := h
    · obtain ⟨path, subterm, hreaches, hbreach⟩ := hcond h
      exact ⟨_, subterm, .step .cond hreaches, hbreach⟩
    rw [bind_eq_error_iff] at h
    obtain h | ⟨thenTy, hthenTy, h⟩ := h
    · obtain ⟨path, subterm, hreaches, hbreach⟩ := hthen h
      exact ⟨_, subterm, .step (.thenBranch hcondTy) hreaches, hbreach⟩
    rw [bind_eq_error_iff] at h
    obtain h | ⟨elseTy, helseTy, h⟩ := h
    · obtain ⟨path, subterm, hreaches, hbreach⟩ := helse h
      exact ⟨_, subterm, .step (.elseBranch hcondTy hthenTy) hreaches, hbreach⟩
    rw [guard_eq_error_iff] at h
    obtain ⟨-, h⟩ | ⟨hne, rfl⟩ := h
    · cases h
    · exact ⟨[], _, .here, .branches hcondTy hthenTy helseTy hne⟩
  | add left right hleft hright =>
    rw [typeOf_add, bind_eq_error_iff] at h
    obtain h | ⟨leftTy, hleftTy, h⟩ := h
    · obtain ⟨path, subterm, hreaches, hbreach⟩ := hleft h
      exact ⟨_, subterm, .step .left hreaches, hbreach⟩
    rw [guard_eq_error_iff] at h
    obtain ⟨rfl, h⟩ | ⟨hne, rfl⟩ := h
    · rw [bind_eq_error_iff] at h
      obtain h | ⟨rightTy, hrightTy, h⟩ := h
      · obtain ⟨path, subterm, hreaches, hbreach⟩ := hright h
        exact ⟨_, subterm, .step (.right hleftTy) hreaches, hbreach⟩
      rw [guard_eq_error_iff] at h
      obtain ⟨-, h⟩ | ⟨hne, rfl⟩ := h
      · cases h
      · exact ⟨[], _, .here, .right hleftTy hrightTy hne⟩
    · exact ⟨[], _, .here, .left hleftTy hne⟩

end Arith

/-! ## Visits -/

/-- The arithmetic subterm that is visited. -/
def Event.visitedArith? : Event → Option Arith.Term
  | visitArith term => some term
  | _ => none

namespace Arith

/-- A run within the arithmetic check of a term records its walk. -/
abbrev Recorded {α : Type} (term : Term) (run : Checking α) (listing : List (Occurrence Term)) :
    Prop :=
  walk.Records term Event.visitedArith? Occurrence.term run listing

/-- The arithmetic check records its walk through the whole term. -/
def Traverses (term : Term) : Prop := Recorded term (infer term) (occurrences term)

variable {term : Term} {γ : Type}

theorem Traverses.exists_visits (h : Traverses term) :
    ∃ visited, walk.Visits term visited ∧
      (infer term).events.filterMap Event.visitedArith? = visited.map Occurrence.term ∧
      ∀ ty, typeOf term = .ok ty → visited = occurrences term :=
  Walk.Records.exists_visits h

theorem Traverses.next {component : Component Term} {later : List (Component Term)}
    {after : Ty → Checking γ} (h : Traverses component.term)
    (hordered : (component :: later).Pairwise fun component later ↦
      component.step.Before later.step)
    (henters : Enters term component.step component.term)
    (hafter : ∀ ty, typeOf component.term = .ok ty →
      Recorded term (after ty) (occurrencesIn later)) :
    Recorded term (infer component.term >>= after) (occurrencesIn (component :: later)) := by
  have hinner : walk.enters term component.step component.term := henters
  have hunder : Recorded term (infer component.term)
      ((occurrences component.term).map (.under component)) := .under h hinner fun _ ↦ rfl
  refine Walk.Records.next hordered hinner hunder (fun error herror ↦ ?_) hafter
  rintro ⟨ty, hty⟩
  rw [typeOf, herror] at hty
  cases hty

theorem traverses (term : Term) : Traverses term := by
  induction term with
  | boolean value =>
    rw [Traverses, infer]
    exact .visit rfl (.silent rfl)
  | number value =>
    rw [Traverses, infer]
    exact .visit rfl (.silent rfl)
  | conditional cond thenBranch elseBranch hcond hthen helse =>
    have hordered := Term.components_ordered (.conditional cond thenBranch elseBranch)
    rw [Traverses, infer]
    refine .visit rfl (hcond.next hordered .cond fun condTy hcondTy ↦ ?_)
    refine hthen.next hordered.of_cons (.thenBranch hcondTy) fun thenTy hthenTy ↦ ?_
    refine helse.next hordered.of_cons.of_cons (.elseBranch hcondTy hthenTy) fun elseTy _ ↦ ?_
    exact .guard (fun _ ↦ .silent rfl) fun _ ↦ nofun
  | add left right hleft hright =>
    have hordered := Term.components_ordered (.add left right)
    rw [Traverses, infer]
    refine .visit rfl (hleft.next hordered .left fun leftTy hleftTy ↦ ?_)
    refine .guard (fun hnumber ↦ ?_) fun hne ↦ Walk.not_reached_of_not_entered ?_
    · rw [beq_iff_eq] at hnumber
      subst hnumber
      refine hright.next hordered.of_cons (.right hleftTy) fun rightTy _ ↦ ?_
      exact .guard (fun _ ↦ .silent rfl) fun _ ↦ nofun
    · refine List.forall_mem_singleton.mpr fun next hnext ↦ ?_
      cases hnext with
      | right hleftTy' => exact hne (beq_iff_eq.mpr (Except.ok.inj (hleftTy.symm.trans hleftTy')))

end Arith

/-- A check visits subterms in reading order: a beginning of their listing, and all of it if the
check succeeds.  If there is an error, the visits end where it is found: they contain the subterm
that breaks its rule and what is listed before it, of its components those that are looked at, and
nothing of what is written later in the terms around it.  Inference reports with each subterm the
scopes of the context and those that the subterm lies in, and the arithmetic check none. -/
theorem visits_in_reading_order :
    (∀ (context : Context) (term : Term), ∃ visited,
      (infer context term).events.filterMap Event.visited? =
        visited.map (fun occurrence ↦ (occurrence.term, context.depth + occurrence.scopes)) ∧
      visited <+: occurrences term ∧
      (∀ ty, typeOf context term = .ok ty → visited = occurrences term) ∧
      ∀ error, typeOf context term = .error error → ∃ path env subterm,
        Reaches context.erase term path env subterm ∧ Breach env subterm error ∧
        StopsAt (occurrences term) visited path subterm
          fun step ↦ ∃ env₁ term₁, Enters env subterm step env₁ term₁) ∧
    ∀ term : Arith.Term, ∃ visited,
      (Arith.infer term).events.filterMap Event.visitedArith? = visited.map Occurrence.term ∧
      visited <+: occurrences term ∧
      (∀ ty, Arith.typeOf term = .ok ty → visited = occurrences term) ∧
      ∀ error, Arith.typeOf term = .error error → ∃ path subterm,
        Arith.Reaches term path subterm ∧ Arith.Breach subterm error ∧
        StopsAt (occurrences term) visited path subterm
          fun step ↦ ∃ term₁, Arith.Enters subterm step term₁ := by
  constructor
  · intro context term
    obtain ⟨visited, hvisits, hevents, hall⟩ := (traverses context term).exists_visits
    refine ⟨visited, hevents, hvisits.isPrefix, hall, fun error herror ↦ ?_⟩
    obtain ⟨path, env, subterm, hreaches, hbreach⟩ := reports context term error herror
    have hstops := (hbreach.stuck hreaches).stopsAt hvisits
    simp only [Prod.exists] at hstops
    exact ⟨path, env, subterm, hreaches, hbreach, hstops⟩
  · intro term
    obtain ⟨visited, hvisits, hevents, hall⟩ := (Arith.traverses term).exists_visits
    refine ⟨visited, hevents, hvisits.isPrefix, hall, fun error herror ↦ ?_⟩
    obtain ⟨path, subterm, hreaches, hbreach⟩ := Arith.exists_breach herror
    exact ⟨path, subterm, hreaches, hbreach, (hbreach.stuck hreaches).stopsAt hvisits⟩

end ArrowLang
