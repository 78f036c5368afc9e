import ArrowLang.Proofs.Traversal.Walk
import ArrowLang.Typing.Traced

/-!
# Runs that record a walk

A traced computation records a walk if the visits among its events are what the walk reaches of a
listing, in order, and if it succeeds only when it has visited all of the listing.  Records are put
together along the steps of a computation: a run on one component is followed by runs on the later
ones if it succeeds, and by none if it fails.
-/

namespace ArrowLang

namespace Traced

variable {ω ε α β : Type} {first : Traced ω ε α} {next : α → Traced ω ε β}

theorem events_bind_of_ok {value : α} (h : first.outcome = .ok value) :
    (first >>= next).events = first.events ++ (next value).events := by
  change (andThen first next).events = _
  rw [andThen, h]

theorem events_bind_of_error {error : ε} (h : first.outcome = .error error) :
    (first >>= next).events = first.events := by
  change (andThen first next).events = _
  rw [andThen, h]

end Traced

open Composite (components)
open Traced

namespace Walk

variable {ν τ ω ε α β γ : Type} [SizeOf τ] [Composite τ]

/-- The visits that a run reports are the entries of what the walk from a node reaches of the
listing, and these are all if the run succeeds. -/
def Records (walk : Walk ν τ) (node : ν) (report : ω → Option β) (entry : Occurrence τ → β)
    (run : Traced ω ε α) (listing : List (Occurrence τ)) : Prop :=
  ∃ visited rest, listing = visited ++ rest ∧ run.events.filterMap report = visited.map entry ∧
    (∀ occurrence ∈ visited, walk.Reached node occurrence.path) ∧
    (∀ occurrence ∈ rest, ¬walk.Reached node occurrence.path) ∧
    ∀ value, run.outcome = .ok value → rest = []

variable {walk : Walk ν τ} {node : ν} {report : ω → Option β} {entry : Occurrence τ → β}
  {run : Traced ω ε α} {listing : List (Occurrence τ)}

/-- Components that are not entered are not reached. -/
theorem not_reached_of_not_entered {components : List (Component τ)}
    (h : ∀ component ∈ components, ∀ next, ¬walk.enters node component.step next) :
    ∀ occurrence ∈ occurrencesIn components, ¬walk.Reached node occurrence.path := by
  rintro occurrence hoccurrence ⟨target, hreaches⟩
  obtain ⟨component, hcomponent, inner, -, rfl⟩ := mem_occurrencesIn.mp hoccurrence
  obtain ⟨next, henters, -⟩ := walk.reaches_cons.mp hreaches
  exact h component hcomponent next henters

namespace Records

theorem silent (h : run.events.filterMap report = []) :
    walk.Records node report entry run [] :=
  ⟨[], [], rfl, h, nofun, nofun, fun _ _ ↦ rfl⟩

theorem fail (error : ε)
    (h : ∀ occurrence ∈ listing, ¬walk.Reached node occurrence.path) :
    walk.Records node report entry (fail error : Traced ω ε α) listing :=
  ⟨[], listing, rfl, rfl, nofun, h, nofun⟩

theorem bind {next : α → Traced ω ε γ} {listing' : List (Occurrence τ)}
    (h : walk.Records node report entry run listing)
    (hok : ∀ value, run.outcome = .ok value →
      walk.Records node report entry (next value) listing')
    (herror : ∀ error, run.outcome = .error error →
      ∀ occurrence ∈ listing', ¬walk.Reached node occurrence.path) :
    walk.Records node report entry (run >>= next) (listing ++ listing') := by
  obtain ⟨visited, rest, rfl, hevents, hvisited, hrest, hdone⟩ := h
  cases houtcome : run.outcome with
  | ok value =>
    obtain rfl := hdone value houtcome
    obtain ⟨visited', rest', rfl, hevents', hvisited', hrest', hdone'⟩ := hok value houtcome
    refine ⟨visited ++ visited', rest', by simp, ?_, ?_, hrest', fun result hresult ↦ ?_⟩
    · rw [events_bind_of_ok houtcome, List.filterMap_append, hevents, hevents', List.map_append]
    · exact List.forall_mem_append.mpr ⟨hvisited, hvisited'⟩
    · rw [outcome_bind, houtcome] at hresult
      exact hdone' result hresult
  | error error =>
    refine ⟨visited, rest ++ listing', by simp, ?_, hvisited, ?_, fun result hresult ↦ ?_⟩
    · rw [events_bind_of_error houtcome, hevents]
    · exact List.forall_mem_append.mpr ⟨hrest, herror error houtcome⟩
    · rw [outcome_bind, houtcome] at hresult
      cases hresult

/-- A condition that fails keeps the walk from the rest of the listing. -/
theorem guard {condition : Bool} {error : ε} {next : Unit → Traced ω ε γ}
    (hholds : condition → walk.Records node report entry (next ()) listing)
    (hfails : ¬condition → ∀ occurrence ∈ listing, ¬walk.Reached node occurrence.path) :
    walk.Records node report entry (require condition error >>= next) listing := by
  cases condition with
  | true => exact bind (silent rfl) (fun _ _ ↦ hholds rfl) nofun
  | false => exact bind (silent rfl) nofun fun _ _ ↦ hfails nofun

/-- Events that are no visits do not count. -/
theorem emit {event : ω} {after : Unit → Traced ω ε α} (hevent : report event = none)
    (h : walk.Records node report entry (after ()) listing) :
    walk.Records node report entry (Traced.emit event >>= after) listing := by
  refine bind (silent ?_) (fun _ _ ↦ h) nofun
  simp [Traced.emit, hevent]

/-- A run without visits at the end changes nothing. -/
theorem finish {next : α → Traced ω ε γ} (h : walk.Records node report entry run listing)
    (hnext : ∀ value, (next value).events.filterMap report = []) :
    walk.Records node report entry (run >>= next) listing := by
  rw [← List.append_nil listing]
  exact h.bind (fun value _ ↦ silent (hnext value)) nofun

/-- A run on a component that is entered. -/
theorem under {component : Component τ} {next : ν} {entry' : Occurrence τ → β}
    (h : walk.Records next report entry' run listing)
    (henters : walk.enters node component.step next)
    (hentry : ∀ occurrence, entry (occurrence.under component) = entry' occurrence) :
    walk.Records node report entry run (listing.map (.under component)) := by
  obtain ⟨visited, rest, rfl, hevents, hvisited, hrest, hdone⟩ := h
  have hreached (occurrence : Occurrence τ) :
      walk.Reached node (occurrence.under component).path ↔ walk.Reached next occurrence.path :=
    reached_cons henters
  refine ⟨visited.map (.under component), rest.map (.under component), List.map_append, ?_, ?_, ?_,
    fun value hvalue ↦ ?_⟩
  · rw [hevents, List.map_map]
    exact List.map_congr_left fun occurrence _ ↦ (hentry occurrence).symm
  · exact List.forall_mem_map.mpr fun occurrence hmem ↦
      (hreached occurrence).mpr (hvisited occurrence hmem)
  · exact List.forall_mem_map.mpr fun occurrence hmem ↦
      (hreached occurrence).not.mpr (hrest occurrence hmem)
  · rw [hdone value hvalue, List.map_nil]

/-- A run on a component, followed by one on the later components if it succeeds. -/
theorem next {component : Component τ} {later : List (Component τ)} {inner : ν}
    {after : α → Traced ω ε γ}
    (hordered : (component :: later).Pairwise fun component later ↦
      component.step.Before later.step)
    (henters : walk.enters node component.step inner)
    (h : walk.Records node report entry run ((occurrences component.term).map (.under component)))
    (herror : ∀ error, run.outcome = .error error → ¬walk.passes inner)
    (hok : ∀ value, run.outcome = .ok value →
      walk.Records node report entry (after value) (occurrencesIn later)) :
    walk.Records node report entry (run >>= after) (occurrencesIn (component :: later)) := by
  rw [occurrencesIn_cons]
  refine h.bind hok fun error hfailed ↦ ?_
  refine not_reached_of_not_entered fun other hother next hnext ↦ herror error hfailed ?_
  exact walk.passes_before henters hnext (List.rel_of_pairwise_cons hordered hother)

/-- A run that reports the term itself before its components. -/
theorem visit {event : ω} {after : Unit → Traced ω ε α}
    (hevent : report event = some (entry ⟨[], walk.term node, 0⟩))
    (h : walk.Records node report entry (after ())
      (occurrencesIn (components (walk.term node)))) :
    walk.Records node report entry (Traced.emit event >>= after)
      (occurrences (walk.term node)) := by
  rw [occurrences_eq, ← List.singleton_append]
  refine bind ⟨[⟨[], walk.term node, 0⟩], [], rfl, ?_, ?_, nofun, fun _ _ ↦ rfl⟩ (fun _ _ ↦ h) nofun
  · simp [Traced.emit, hevent]
  · exact List.forall_mem_singleton.mpr reached_nil

/-- What is recorded of a whole term is a beginning of the listing. -/
theorem exists_visits (h : walk.Records node report entry run (occurrences (walk.term node))) :
    ∃ visited, walk.Visits node visited ∧ run.events.filterMap report = visited.map entry ∧
      ∀ value, run.outcome = .ok value → visited = occurrences (walk.term node) := by
  obtain ⟨visited, rest, hlisting, hevents, hvisited, hrest, hdone⟩ := h
  refine ⟨visited, ⟨⟨rest, hlisting.symm⟩, fun {occurrence} hmem ↦ ?_⟩, hevents,
    fun value hvalue ↦ ?_⟩
  · refine ⟨hvisited occurrence, fun hreached ↦ ?_⟩
    rw [hlisting, List.mem_append] at hmem
    exact hmem.resolve_right fun hin ↦ hrest occurrence hin hreached
  · rw [hlisting, hdone value hvalue, List.append_nil]

end Records

end Walk

end ArrowLang
