import ArrowLang.Proofs.Typing.Violation
import Mathlib.Data.List.Nodup

/-!
# Subterms in reading order

The subterms of a term are listed from the outside in and from left to right, each with the path
that leads to it.  The same listing serves both dialects, as all it needs to know of a term are its
components in the order in which they are written.
-/

namespace ArrowLang

/-- The first step leads to a component that is written before that of the second step, in the same
term. -/
inductive Step.Before : Step → Step → Prop
  | condThen : Before .cond .thenBranch
  | condElse : Before .cond .elseBranch
  | thenElse : Before .thenBranch .elseBranch
  | leftRight : Before .left .right
  | calleeArg (index : Nat) : Before .callee (.arg index)
  | args {index later : Nat} : index < later → Before (.arg index) (.arg later)
  | statements {index later : Nat} : index < later → Before (.statement index) (.statement later)
  | statementRest (index : Nat) : Before (.statement index) .rest
  | initRest : Before .init .rest

theorem Step.Before.ne {step later : Step} (h : step.Before later) : step ≠ later := by
  cases h with
  | args hlt | statements hlt =>
    intro heq
    cases heq
    exact Nat.lt_irrefl _ hlt
  | _ => exact nofun

/-- A term within another one, one step down. -/
structure Component (τ : Type) where
  step : Step
  /-- One if the step leads into a scope of its own, and otherwise zero. -/
  scopes : Nat
  term : τ

/-- Terms that are made of components, which are given in the order in which they are written. -/
class Composite (τ : Type) [SizeOf τ] where
  components : τ → List (Component τ)
  sizeOf_lt {term : τ} {component : Component τ} :
    component ∈ components term → sizeOf component.term < sizeOf term
  ordered (term : τ) :
    (components term).Pairwise fun component later ↦ component.step.Before later.step

open Composite (components)

variable {τ : Type}

/-- The components that the steps with consecutive numbers lead to. -/
def Component.numbered (step : Nat → Step) (start : Nat) : List τ → List (Component τ)
  | [] => []
  | term :: terms => ⟨step start, 0, term⟩ :: numbered step (start + 1) terms

theorem Component.mem_numbered {step : Nat → Step} {start : Nat} {terms : List τ}
    {component : Component τ} :
    component ∈ numbered step start terms ↔
      ∃ index term, terms[index]? = some term ∧ component = ⟨step (start + index), 0, term⟩ := by
  induction terms generalizing start with
  | nil => simp [numbered]
  | cons first terms ih =>
    rw [numbered, List.mem_cons, ih]
    constructor
    · rintro (rfl | ⟨index, term, hterm, rfl⟩)
      · exact ⟨0, first, rfl, rfl⟩
      · exact ⟨index + 1, term, hterm, by rw [Nat.add_assoc, Nat.add_comm 1]⟩
    · rintro ⟨index, term, hterm, rfl⟩
      cases index with
      | zero =>
        cases hterm
        exact .inl rfl
      | succ index => exact .inr ⟨index, term, hterm, by rw [Nat.add_assoc, Nat.add_comm 1]⟩

theorem Component.ordered_numbered {step : Nat → Step}
    (hstep : ∀ {index later}, index < later → (step index).Before (step later)) (start : Nat)
    (terms : List τ) :
    (numbered step start terms).Pairwise fun component later ↦
      component.step.Before later.step := by
  induction terms generalizing start with
  | nil => exact .nil
  | cons first terms ih =>
    refine .cons (fun later hlater ↦ ?_) (ih (start + 1))
    obtain ⟨index, term, -, rfl⟩ := mem_numbered.mp hlater
    exact hstep (by omega)

/-- A subterm where it stands in a term. -/
structure Occurrence (τ : Type) where
  path : List Step
  term : τ
  /-- The number of scopes around it within the term. -/
  scopes : Nat

/-- An occurrence in a component as one in the whole term. -/
def Occurrence.under (component : Component τ) (occurrence : Occurrence τ) : Occurrence τ where
  path := component.step :: occurrence.path
  term := occurrence.term
  scopes := component.scopes + occurrence.scopes

variable [SizeOf τ] [Composite τ]

/-- All subterms in reading order, the term itself being the first. -/
def occurrences (term : τ) : List (Occurrence τ) :=
  ⟨[], term, 0⟩ :: (components term).flatMap fun component ↦
    (occurrences component.term).map (.under component)
termination_by sizeOf term
decreasing_by exact Composite.sizeOf_lt ‹_›

/-- The occurrences in the given components. -/
def occurrencesIn (components : List (Component τ)) : List (Occurrence τ) :=
  components.flatMap fun component ↦ (occurrences component.term).map (.under component)

theorem occurrences_eq (term : τ) :
    occurrences term = ⟨[], term, 0⟩ :: occurrencesIn (components term) := by
  rw [occurrences]
  rfl

theorem occurrencesIn_cons (component : Component τ) (components : List (Component τ)) :
    occurrencesIn (component :: components) =
      (occurrences component.term).map (.under component) ++ occurrencesIn components :=
  List.flatMap_cons

theorem occurrencesIn_append (components later : List (Component τ)) :
    occurrencesIn (components ++ later) = occurrencesIn components ++ occurrencesIn later :=
  List.flatMap_append

theorem mem_occurrencesIn {components : List (Component τ)} {occurrence : Occurrence τ} :
    occurrence ∈ occurrencesIn components ↔
      ∃ component ∈ components, ∃ inner ∈ occurrences component.term,
        inner.under component = occurrence := by
  simp [occurrencesIn]

/-- An occurrence is the term itself or lies in one of its components. -/
theorem mem_occurrences {term : τ} {occurrence : Occurrence τ} :
    occurrence ∈ occurrences term ↔ occurrence = ⟨[], term, 0⟩ ∨
      ∃ component ∈ components term, ∃ inner ∈ occurrences component.term,
        inner.under component = occurrence := by
  rw [occurrences_eq, List.mem_cons, mem_occurrencesIn]

theorem components_induction {motive : τ → Prop}
    (step : ∀ term, (∀ component ∈ components term, motive component.term) → motive term)
    (term : τ) : motive term :=
  step term fun component _ ↦ components_induction step component.term
termination_by sizeOf term
decreasing_by exact Composite.sizeOf_lt ‹_›

/-- A step leads to one component only. -/
theorem component_unique {term : τ} {component other : Component τ}
    (hcomponent : component ∈ components term) (hother : other ∈ components term)
    (hstep : component.step = other.step) : component = other := by
  have hnodup : ((components term).map Component.step).Nodup :=
    List.pairwise_map.mpr ((Composite.ordered term).imp Step.Before.ne)
  exact List.inj_on_of_nodup_map hnodup hcomponent hother hstep

/-- The listing is in reading order: an occurrence comes before those inside it and before those
inside components that are written later. -/
theorem occurrences_ordered (term : τ) :
    (occurrences term).Pairwise fun occurrence later ↦
      List.Lex Step.Before occurrence.path later.path := by
  induction term using components_induction with
  | step term ih =>
    rw [occurrences_eq, List.pairwise_cons]
    constructor
    · intro later hlater
      obtain ⟨component, -, inner, -, rfl⟩ := mem_occurrencesIn.mp hlater
      exact .nil
    · rw [occurrencesIn, List.pairwise_flatMap]
      constructor
      · intro component hcomponent
        exact List.pairwise_map.mpr ((ih component hcomponent).imp List.Lex.cons)
      · refine (Composite.ordered term).imp fun hbefore occurrence hoccurrence later hlater ↦ ?_
        obtain ⟨inner, -, rfl⟩ := List.mem_map.mp hoccurrence
        obtain ⟨inner', -, rfl⟩ := List.mem_map.mp hlater
        exact .rel hbefore

/-- A path that comes later goes further or turns off to a later component. -/
theorem lex_cases {path later : List Step} (h : List.Lex Step.Before path later) :
    (∃ step rest, later = path ++ step :: rest) ∨
      ∃ above step below step' rest, path = above ++ step :: below ∧
        later = above ++ step' :: rest ∧ step.Before step' := by
  induction h with
  | nil => exact .inl ⟨_, _, rfl⟩
  | rel hbefore => exact .inr ⟨[], _, _, _, _, rfl, rfl, hbefore⟩
  | @cons first _ _ _ ih =>
    obtain ⟨step, rest, rfl⟩ | ⟨above, step, below, step', rest, rfl, rfl, hbefore⟩ := ih
    · exact .inl ⟨step, rest, rfl⟩
    · exact .inr ⟨first :: above, step, below, step', rest, rfl, rfl, hbefore⟩

end ArrowLang
