import ArrowLang.Proofs.Typing.Declarative
import Mathlib.Data.Finset.Basic

/-!
# Free names

A name is free in a term if it occurs outside the body of every function that has it as a parameter
and outside the rest of every constant of that name.  A term can have a type only if its environment
has a type for each of its free names.
-/

namespace ArrowLang

namespace Term

mutual

/-- The names that occur in a term without being bound there. -/
@[simp]
def freeNames : Term → Finset String
  | boolean _ => ∅
  | number _ => ∅
  | conditional cond thenBranch elseBranch =>
    freeNames cond ∪ freeNames thenBranch ∪ freeNames elseBranch
  | add left right => freeNames left ∪ freeNames right
  | var name => {name}
  | function params body => freeNames body \ (params.map Binding.name).toFinset
  | call callee args => freeNames callee ∪ freeNamesAll args
  | sequence statements rest => freeNamesAll statements ∪ freeNames rest
  -- The constant is not visible in its own initial value.
  | const name init rest => freeNames init ∪ (freeNames rest).erase name

def freeNamesAll : List Term → Finset String
  | [] => ∅
  | term :: terms => freeNames term ∪ freeNamesAll terms

end

@[simp]
theorem mem_freeNamesAll {name : String} {terms : List Term} :
    name ∈ freeNamesAll terms ↔ ∃ term ∈ terms, name ∈ term.freeNames := by
  induction terms with
  | nil => simp [freeNamesAll]
  | cons term terms ih => simp [freeNamesAll, ih]

theorem freeNames_subset_freeNamesAll {term : Term} {terms : List Term} (hmem : term ∈ terms) :
    term.freeNames ⊆ freeNamesAll terms :=
  fun _ hname ↦ mem_freeNamesAll.mpr ⟨term, hmem, hname⟩

end Term

namespace Environment

variable {env : Environment} {name : String}

theorem isSome_bind {name' : String} {ty : SimpleTy} :
    (env.bind name' ty name).isSome ↔ name = name' ∨ (env name).isSome := by
  rw [bind, Function.update_apply]
  by_cases hname : name = name' <;> simp [hname]

theorem isSome_bindAll {params : List Param} :
    (env.bindAll params name).isSome ↔ name ∈ params.map Binding.name ∨ (env name).isSome := by
  induction params using List.reverseRecOn with
  | nil => simp [bindAll]
  | append_singleton params param ih =>
    rw [bindAll_append_singleton, isSome_bind, ih, List.map_append, List.mem_append,
      List.map_singleton, List.mem_singleton, or_left_comm, or_assoc]

end Environment

theorem exists_mem_zip {α β : Type} {left : List α} {right : List β} {value : α}
    (hlength : left.length = right.length) (hmem : value ∈ left) :
    ∃ partner, (value, partner) ∈ left.zip right := by
  have hfirst : value ∈ (left.zip right).map Prod.fst := by
    rwa [List.map_fst_zip hlength.le]
  obtain ⟨⟨_, partner⟩, hpair, rfl⟩ := List.mem_map.mp hfirst
  exact ⟨partner, hpair⟩

/-- The environment of a typed term has a type for each free name of the term. -/
theorem HasType.isSome_of_mem_freeNames {env : Environment} {term : Term} {ty : SimpleTy}
    (h : HasType env term ty) : ∀ name ∈ term.freeNames, (env name).isSome := by
  induction h with
  | boolean value => simp
  | number value => simp
  | conditional _ _ _ hcond hthen helse =>
    intro name hname
    simp only [Term.freeNames, Finset.mem_union] at hname
    obtain (hname | hname) | hname := hname
    · exact hcond name hname
    · exact hthen name hname
    · exact helse name hname
  | add _ _ hleft hright =>
    intro name hname
    simp only [Term.freeNames, Finset.mem_union] at hname
    exact hname.elim (hleft name) (hright name)
  | var hname => simp [hname]
  | function _ hbody =>
    intro name hname
    simp only [Term.freeNames, Finset.mem_sdiff, List.mem_toFinset] at hname
    exact (Environment.isSome_bindAll.mp (hbody name hname.1)).resolve_left hname.2
  | call _ hlength _ hcallee hargs =>
    intro name hname
    simp only [Term.freeNames, Finset.mem_union, Term.mem_freeNamesAll] at hname
    obtain hname | ⟨arg, harg, hname⟩ := hname
    · exact hcallee name hname
    · obtain ⟨ty, hpair⟩ := exists_mem_zip hlength harg
      exact hargs _ hpair name hname
  | sequence hlength _ _ hstatements hrest =>
    intro name hname
    simp only [Term.freeNames, Finset.mem_union, Term.mem_freeNamesAll] at hname
    obtain ⟨statement, hstatement, hname⟩ | hname := hname
    · obtain ⟨ty, hpair⟩ := exists_mem_zip hlength hstatement
      exact hstatements _ hpair name hname
    · exact hrest name hname
  | const _ _ hinit hrest =>
    intro name hname
    simp only [Term.freeNames, Finset.mem_union, Finset.mem_erase] at hname
    obtain hname | ⟨hne, hname⟩ := hname
    · exact hinit name hname
    · exact (Environment.isSome_bind.mp (hrest name hname)).resolve_left hne

end ArrowLang
