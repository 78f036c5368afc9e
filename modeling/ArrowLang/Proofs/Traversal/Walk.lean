import ArrowLang.Proofs.Traversal.Listing

/-!
# Walks through a term

A check goes from a term to its components and stops at the first one that does not pass.  A walk
says which components are entered and which terms pass; what can be reached in this way is a
beginning of the listing of subterms.  If a walk gets stuck somewhere, the subterm there is reached
together with all that is written before it, and none of the components that are written later.
-/

namespace ArrowLang

open Composite (components)

/-- How a check moves over terms.  A node is a term with whatever is known where it stands. -/
structure Walk (ν τ : Type) [SizeOf τ] [Composite τ] where
  term : ν → τ
  /-- The check of a node enters a component. -/
  enters : ν → Step → ν → Prop
  /-- A node can be reached on a path. -/
  reaches : ν → List Step → ν → Prop
  passes : ν → Prop
  reaches_nil {node target : ν} : reaches node [] target ↔ node = target
  reaches_cons {node target : ν} {step : Step} {path : List Step} :
    reaches node (step :: path) target ↔ ∃ next, enters node step next ∧ reaches next path target
  /-- What is entered is a component. -/
  component {node next : ν} {step : Step} : enters node step next →
    ∃ component ∈ components (term node), component.step = step ∧ component.term = term next
  unique {node next next' : ν} {step : Step} :
    enters node step next → enters node step next' → next = next'
  /-- A component is entered only if those before it pass. -/
  passes_before {node next next' : ν} {step step' : Step} :
    enters node step next → enters node step' next' → step.Before step' → passes next
  /-- If a node passes, all its components are entered and pass. -/
  passes_components {node : ν} {component : Component τ} :
    passes node → component ∈ components (term node) →
      ∃ next, enters node component.step next ∧ term next = component.term ∧ passes next

/-- What is visited of a listing by a check that gets stuck at the end of a path, having entered
some components of the subterm there. -/
structure StopsAt {τ : Type} (listing visited : List (Occurrence τ)) (path : List Step) (term : τ)
    (entered : Step → Prop) : Prop where
  /-- The subterm at the end of the path is visited, and all that is visited after it is inside. -/
  present : ∃ before occurrence inside, visited = before ++ occurrence :: inside ∧
    occurrence.path = path ∧ occurrence.term = term ∧
    ∀ inner ∈ inside, ∃ step rest, inner.path = path ++ step :: rest
  /-- The components of that subterm are visited exactly as far as they are entered. -/
  inside : ∀ occurrence ∈ listing, ∀ step rest, occurrence.path = path ++ step :: rest →
    (occurrence ∈ visited ↔ entered step)
  /-- Nothing is visited of what is written later in any term on the path. -/
  later : ∀ above step below step', path = above ++ step :: below → step.Before step' →
    ∀ occurrence ∈ visited, ¬ (above ++ [step']) <+: occurrence.path

namespace Walk

variable {ν τ : Type} [SizeOf τ] [Composite τ] (walk : Walk ν τ) {node target : ν}

/-- Some node is reached on the path. -/
def Reached (node : ν) (path : List Step) : Prop := ∃ target, walk.reaches node path target

variable {walk}

theorem reached_nil : walk.Reached node [] := ⟨node, walk.reaches_nil.mpr rfl⟩

theorem reached_cons {next : ν} {step : Step} {path : List Step}
    (henters : walk.enters node step next) :
    walk.Reached node (step :: path) ↔ walk.Reached next path := by
  constructor
  · rintro ⟨target, h⟩
    obtain ⟨next', henters', hreaches⟩ := walk.reaches_cons.mp h
    obtain rfl := walk.unique henters henters'
    exact ⟨target, hreaches⟩
  · rintro ⟨target, h⟩
    exact ⟨target, walk.reaches_cons.mpr ⟨next, henters, h⟩⟩

theorem reaches_append {path rest : List Step} :
    walk.reaches node (path ++ rest) target ↔
      ∃ middle, walk.reaches node path middle ∧ walk.reaches middle rest target := by
  induction path generalizing node with
  | nil => simp [walk.reaches_nil]
  | cons step path ih =>
    rw [List.cons_append, walk.reaches_cons]
    simp only [walk.reaches_cons, ih]
    constructor
    · rintro ⟨next, henters, middle, hpath, hrest⟩
      exact ⟨middle, ⟨next, henters, hpath⟩, hrest⟩
    · rintro ⟨middle, ⟨next, henters, hpath⟩, hrest⟩
      exact ⟨next, henters, middle, hpath, hrest⟩

theorem reaches_unique {target' : ν} {path : List Step} (h : walk.reaches node path target)
    (h' : walk.reaches node path target') : target = target' := by
  induction path generalizing node with
  | nil => exact (walk.reaches_nil.mp h).symm.trans (walk.reaches_nil.mp h')
  | cons step path ih =>
    obtain ⟨next, henters, hreaches⟩ := walk.reaches_cons.mp h
    obtain ⟨next', henters', hreaches'⟩ := walk.reaches_cons.mp h'
    obtain rfl := walk.unique henters henters'
    exact ih hreaches hreaches'

theorem passes_of_enters {next : ν} {step : Step} (hpasses : walk.passes node)
    (henters : walk.enters node step next) : walk.passes next := by
  obtain ⟨component, hcomponent, rfl, -⟩ := walk.component henters
  obtain ⟨next', henters', -, hnext⟩ := walk.passes_components hpasses hcomponent
  rwa [walk.unique henters henters']

theorem passes_of_reaches {path : List Step} (hpasses : walk.passes node)
    (h : walk.reaches node path target) : walk.passes target := by
  induction path generalizing node with
  | nil => rwa [← walk.reaches_nil.mp h]
  | cons step path ih =>
    obtain ⟨next, henters, hreaches⟩ := walk.reaches_cons.mp h
    exact ih (passes_of_enters hpasses henters) hreaches

/-- All of a node that passes is reached. -/
theorem reached_of_passes (term : τ) {node : ν} (hterm : walk.term node = term)
    (hpasses : walk.passes node) {occurrence : Occurrence τ}
    (hoccurrence : occurrence ∈ occurrences term) : walk.Reached node occurrence.path := by
  induction term using components_induction generalizing node occurrence with
  | step term ih =>
    subst hterm
    obtain rfl | ⟨component, hcomponent, inner, hinner, rfl⟩ := mem_occurrences.mp hoccurrence
    · exact reached_nil
    · obtain ⟨next, henters, hnext, hpassesNext⟩ := walk.passes_components hpasses hcomponent
      exact (reached_cons henters).mpr (ih component hcomponent hnext hpassesNext hinner)

/-- What is reached stands in the listing. -/
theorem exists_occurrence {path : List Step} (h : walk.reaches node path target) :
    ∃ occurrence ∈ occurrences (walk.term node),
      occurrence.path = path ∧ occurrence.term = walk.term target := by
  induction path generalizing node with
  | nil =>
    obtain rfl := walk.reaches_nil.mp h
    exact ⟨_, mem_occurrences.mpr (.inl rfl), rfl, rfl⟩
  | cons step path ih =>
    obtain ⟨next, henters, hreaches⟩ := walk.reaches_cons.mp h
    obtain ⟨component, hcomponent, rfl, hterm⟩ := walk.component henters
    obtain ⟨inner, hinner, rfl, htarget⟩ := ih hreaches
    rw [← hterm] at hinner
    exact ⟨inner.under component,
      mem_occurrences.mpr (.inr ⟨component, hcomponent, inner, hinner, rfl⟩), rfl, htarget⟩

/-- Further down a path, occurrences are those of the node that the path reaches. -/
theorem occurrence_below {path rest : List Step} (h : walk.reaches node path target)
    {occurrence : Occurrence τ} (hoccurrence : occurrence ∈ occurrences (walk.term node))
    (hpath : occurrence.path = path ++ rest) :
    ∃ inner ∈ occurrences (walk.term target), inner.path = rest := by
  induction path generalizing node occurrence with
  | nil =>
    obtain rfl := walk.reaches_nil.mp h
    exact ⟨occurrence, hoccurrence, hpath⟩
  | cons step path ih =>
    obtain ⟨next, henters, hreaches⟩ := walk.reaches_cons.mp h
    obtain ⟨component, hcomponent, hstep, hterm⟩ := walk.component henters
    obtain rfl | ⟨component', hcomponent', inner, hinner, rfl⟩ := mem_occurrences.mp hoccurrence
    · cases hpath
    · obtain ⟨hstep', hrest⟩ := List.cons.inj hpath
      obtain rfl := component_unique hcomponent hcomponent' (hstep.trans hstep'.symm)
      exact ih hreaches (hterm ▸ hinner) hrest

variable (walk) in
/-- A beginning of the listing that holds just what is reached. -/
structure Visits (node : ν) (visited : List (Occurrence τ)) : Prop where
  isPrefix : visited <+: occurrences (walk.term node)
  mem_iff {occurrence : Occurrence τ} : occurrence ∈ occurrences (walk.term node) →
    (occurrence ∈ visited ↔ walk.Reached node occurrence.path)

variable (walk) in
/-- The path reaches a node that does not pass, although all components entered there do. -/
structure Stuck (node : ν) (path : List Step) (target : ν) : Prop where
  reaches : walk.reaches node path target
  not_passes : ¬walk.passes target
  entered {step : Step} {next : ν} : walk.enters target step next → walk.passes next

theorem Visits.reached {visited : List (Occurrence τ)} (h : walk.Visits node visited)
    {occurrence : Occurrence τ} (hoccurrence : occurrence ∈ visited) :
    walk.Reached node occurrence.path :=
  (h.mem_iff (h.isPrefix.subset hoccurrence)).mp hoccurrence

namespace Stuck

variable {path : List Step} {visited : List (Occurrence τ)}

/-- Of what is written later than a step on the path, nothing is reached. -/
theorem not_reached_later {above below rest : List Step} {step step' : Step}
    (h : walk.Stuck node (above ++ step :: below) target) (hbefore : step.Before step') :
    ¬walk.Reached node (above ++ step' :: rest) := by
  rintro ⟨target', h'⟩
  -- Both paths lead through one node, where the later component needs the earlier one to pass.
  obtain ⟨middle, habove, hbelow⟩ := reaches_append.mp h.reaches
  obtain ⟨middle', habove', hrest⟩ := reaches_append.mp h'
  obtain rfl := reaches_unique habove habove'
  obtain ⟨next, henters, hreaches⟩ := walk.reaches_cons.mp hbelow
  obtain ⟨next', henters', -⟩ := walk.reaches_cons.mp hrest
  have hpasses := walk.passes_before henters henters' hbefore
  exact h.not_passes (passes_of_reaches hpasses hreaches)

/-- What is reached and comes later in the listing lies inside. -/
theorem inside_of_lex (h : walk.Stuck node path target) {later : List Step}
    (hlex : List.Lex Step.Before path later) (hlater : walk.Reached node later) :
    ∃ step rest, later = path ++ step :: rest := by
  obtain hinside | ⟨above, step, below, step', rest, rfl, rfl, hbefore⟩ := lex_cases hlex
  · exact hinside
  · exact absurd hlater (h.not_reached_later hbefore)

/-- Inside the node, just the components that are entered are reached. -/
theorem reached_inside (h : walk.Stuck node path target) {step : Step} {rest : List Step}
    {occurrence : Occurrence τ} (hoccurrence : occurrence ∈ occurrences (walk.term node))
    (hpath : occurrence.path = path ++ step :: rest) :
    walk.Reached node occurrence.path ↔ ∃ next, walk.enters target step next := by
  rw [hpath]
  constructor
  · rintro ⟨last, hlast⟩
    obtain ⟨target', htarget', hbelow⟩ := reaches_append.mp hlast
    obtain rfl := reaches_unique h.reaches htarget'
    obtain ⟨next, henters, -⟩ := walk.reaches_cons.mp hbelow
    exact ⟨next, henters⟩
  · rintro ⟨next, henters⟩
    have hstep : walk.reaches target [step] next :=
      walk.reaches_cons.mpr ⟨next, henters, walk.reaches_nil.mpr rfl⟩
    have hnext : walk.reaches node (path ++ [step]) next :=
      reaches_append.mpr ⟨target, h.reaches, hstep⟩
    rw [List.append_cons] at hpath ⊢
    obtain ⟨inner, hinner, hrest⟩ := occurrence_below hnext hoccurrence hpath
    obtain ⟨last, hlast⟩ := reached_of_passes _ rfl (h.entered henters) hinner
    exact ⟨last, reaches_append.mpr ⟨next, hnext, hrest ▸ hlast⟩⟩

theorem present (h : walk.Stuck node path target) (hvisits : walk.Visits node visited) :
    ∃ before occurrence inside, visited = before ++ occurrence :: inside ∧
      occurrence.path = path ∧ occurrence.term = walk.term target ∧
      ∀ inner ∈ inside, ∃ step rest, inner.path = path ++ step :: rest := by
  obtain ⟨occurrence, hoccurrence, rfl, hterm⟩ := exists_occurrence h.reaches
  have hmem := (hvisits.mem_iff hoccurrence).mpr ⟨target, h.reaches⟩
  obtain ⟨before, inside, rfl⟩ := List.append_of_mem hmem
  refine ⟨before, occurrence, inside, rfl, rfl, hterm, fun inner hinner ↦ ?_⟩
  have hordered := (occurrences_ordered (walk.term node)).sublist hvisits.isPrefix.sublist
  rw [List.pairwise_append, List.pairwise_cons] at hordered
  refine h.inside_of_lex (hordered.2.1.1 inner hinner) (hvisits.reached ?_)
  simp [hinner]

/-- A walk that gets stuck stops where it does. -/
theorem stopsAt (h : walk.Stuck node path target) (hvisits : walk.Visits node visited) :
    StopsAt (occurrences (walk.term node)) visited path (walk.term target)
      fun step ↦ ∃ next, walk.enters target step next := by
  refine ⟨h.present hvisits, ?_, ?_⟩
  · intro occurrence hoccurrence step rest hpath
    rw [hvisits.mem_iff hoccurrence, h.reached_inside hoccurrence hpath]
  · rintro above step below step' rfl hbefore occurrence hoccurrence ⟨rest, hrest⟩
    have hreached := hvisits.reached hoccurrence
    rw [← hrest, ← List.append_cons] at hreached
    exact h.not_reached_later hbefore hreached

end Stuck

end Walk

end ArrowLang
