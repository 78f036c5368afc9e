import ArrowLang.Proofs.Arith.Conversion
import ArrowLang.Proofs.Traversal.Inference

/-!
# Restriction and embedding

Restriction to arithmetic is the inverse of embedding, and what it refuses a term for is the first
construct in the listing of subterms.  The constructs that a term contains are those of the listing,
so that it is enough to follow the refusals through conditionals and additions.  Both dialects print
and compare arithmetic terms in the same way.
-/

namespace ArrowLang

open Composite (components)

/-- The step leads to a component of a conditional or of an addition. -/
def Step.isArithmetic : Step → Bool
  | cond | thenBranch | elseBranch | left | right => true
  | body | callee | arg _ | statement _ | init | rest => false

namespace Term

/-- The construct that a term is by itself, whatever its components are. -/
def construct? : Term → Option Construct
  | boolean _ | number _ | conditional _ _ _ | add _ _ => none
  | var _ => some .variableReference
  | function _ _ => some .function
  | call _ _ => some .functionCall
  | sequence _ _ => some .statementSequence
  | const _ _ _ => some .constBinding

/-- The first subterm in reading order that is a construct outside arithmetic. -/
def firstConstruct? (term : Term) : Option (Occurrence Term) :=
  (occurrences term).find? fun occurrence ↦ occurrence.term.construct?.isSome

theorem constructsAll_eq_flatMap (step : Nat → Step) (start : Nat) (terms : List Term) :
    constructsAll terms =
      (Component.numbered step start terms).flatMap fun component ↦ component.term.constructs := by
  induction terms generalizing start with
  | nil => rfl
  | cons term terms ih => rw [constructsAll, Component.numbered, List.flatMap_cons, ← ih]

theorem constructs_eq_components (term : Term) :
    term.constructs = term.construct?.toList ++
      (components term).flatMap fun component ↦ component.term.constructs := by
  cases term with
  | call callee args =>
    simp [construct?, components, Term.components, ← constructsAll_eq_flatMap]
  | sequence statements rest =>
    simp [construct?, components, Term.components, ← constructsAll_eq_flatMap]
  | _ => simp [construct?, components, Term.components]

/-- The constructs that a term contains are those of its subterms, in reading order. -/
theorem constructs_eq_filterMap (term : Term) :
    term.constructs = (occurrences term).filterMap fun occurrence ↦ occurrence.term.construct? := by
  induction term using components_induction with
  | step term ih =>
    have hcomponents :
        ((components term).flatMap fun component ↦ component.term.constructs) =
          (occurrencesIn (components term)).filterMap fun occurrence ↦
            occurrence.term.construct? := by
      rw [occurrencesIn, List.filterMap_flatMap]
      refine List.flatMap_congr fun component hcomponent ↦ ?_
      rw [List.filterMap_map, ih component hcomponent]
      rfl
    rw [constructs_eq_components, hcomponents, occurrences_eq, List.filterMap_cons]
    cases term.construct? <;> rfl

/-- The first construct that a term contains is that of the first subterm that is one. -/
theorem head?_constructs (term : Term) :
    term.constructs.head? =
      term.firstConstruct?.bind fun occurrence ↦ occurrence.term.construct? := by
  rw [constructs_eq_filterMap, List.head?_filterMap, firstConstruct?]
  induction occurrences term with
  | nil => rfl
  | cons occurrence listing ih =>
    rw [List.findSome?_cons, List.find?_cons]
    cases hconstruct : occurrence.term.construct? with
    | none => exact ih
    | some construct => simp [hconstruct]

theorem isArithmetic_of_mem_components {term : Term} {component : Component Term}
    (hterm : term.construct? = none) (h : component ∈ components term) :
    component.step.isArithmetic := by
  cases term with
  | boolean value | number value => cases h
  | conditional cond thenBranch elseBranch =>
    simp only [components, Term.components, List.mem_cons, List.not_mem_nil, or_false] at h
    obtain rfl | rfl | rfl := h <;> rfl
  | add left right =>
    simp only [components, Term.components, List.mem_cons, List.not_mem_nil, or_false] at h
    obtain rfl | rfl := h <;> rfl
  | _ => cases hterm

/-- Only conditionals and additions are around the first construct. -/
theorem isArithmetic_of_firstConstruct? {term : Term} {occurrence : Occurrence Term}
    (h : term.firstConstruct? = some occurrence) :
    ∀ step ∈ occurrence.path, step.isArithmetic := by
  induction term using components_induction generalizing occurrence with
  | step term ih =>
    rw [firstConstruct?, occurrences_eq] at h
    cases hterm : term.construct? with
    | some construct =>
      rw [List.find?_cons_of_pos (by simp [hterm])] at h
      cases h
      exact nofun
    | none =>
      rw [List.find?_cons_of_neg (by simp [hterm]), occurrencesIn, List.find?_flatMap] at h
      obtain ⟨component, hcomponent, h⟩ := List.exists_of_findSome?_eq_some h
      rw [List.find?_map, Option.map_eq_some_iff] at h
      obtain ⟨inner, hinner, rfl⟩ := h
      exact List.forall_mem_cons.mpr
        ⟨isArithmetic_of_mem_components hterm hcomponent, ih component hcomponent hinner⟩

end Term

namespace Arith

theorem embed_of_restrict {term : ArrowLang.Term} {arith : Term} (h : restrict term = .ok arith) :
    arith.embed = term := by
  induction term generalizing arith with
  | boolean value | number value =>
    cases h
    rfl
  | conditional _ _ _ ihcond ihthen ihelse =>
    simp only [restrict, bind_eq_ok_iff] at h
    obtain ⟨cond, hcond, thenBranch, hthen, elseBranch, helse, h⟩ := h
    cases h
    rw [Term.embed, ihcond hcond, ihthen hthen, ihelse helse]
  | add _ _ ihleft ihright =>
    simp only [restrict, bind_eq_ok_iff] at h
    obtain ⟨left, hleft, right, hright, h⟩ := h
    cases h
    rw [Term.embed, ihleft hleft, ihright hright]
  | _ => cases h

theorem restrict_eq_ok_iff {term : ArrowLang.Term} {arith : Term} :
    restrict term = .ok arith ↔ term = arith.embed := by
  constructor
  · exact fun h ↦ (embed_of_restrict h).symm
  · rintro rfl
    exact restrict_embed arith

theorem constructs_of_restrict {term : ArrowLang.Term} {arith : Term}
    (h : restrict term = .ok arith) : term.constructs = [] := by
  rw [← embed_of_restrict h, Term.constructs_embed]

/-- A term is refused for the first construct that it contains. -/
theorem head?_constructs_of_restrict {term : ArrowLang.Term} {construct : Construct}
    (h : restrict term = .error construct) : term.constructs.head? = some construct := by
  induction term with
  | boolean value | number value => cases h
  | conditional _ _ _ ihcond ihthen ihelse =>
    simp only [restrict, bind_eq_error_iff] at h
    rw [ArrowLang.Term.constructs, List.head?_append]
    -- The components before the refused one are arithmetic, so that they contain no constructs.
    obtain h | ⟨cond, hcond, h | ⟨thenBranch, hthen, h | ⟨elseBranch, helse, h⟩⟩⟩ := h
    · rw [ihcond h, Option.some_or]
    · rw [constructs_of_restrict hcond, List.head?_append, ihthen h]
      rfl
    · rw [constructs_of_restrict hcond, constructs_of_restrict hthen]
      exact ihelse h
    · cases h
  | add _ _ ihleft ihright =>
    simp only [restrict, bind_eq_error_iff] at h
    rw [ArrowLang.Term.constructs, List.head?_append]
    obtain h | ⟨left, hleft, h | ⟨right, hright, h⟩⟩ := h
    · rw [ihleft h, Option.some_or]
    · rw [constructs_of_restrict hleft]
      exact ihright h
    · cases h
  | _ =>
    cases h
    rfl

theorem restrict_eq_error_iff {term : ArrowLang.Term} {construct : Construct} :
    restrict term = .error construct ↔ term.constructs.head? = some construct := by
  refine ⟨head?_constructs_of_restrict, fun hhead ↦ ?_⟩
  cases hrestrict : restrict term with
  | ok arith =>
    rw [constructs_of_restrict hrestrict] at hhead
    cases hhead
  | error construct' =>
    rw [head?_constructs_of_restrict hrestrict] at hhead
    rw [Option.some.inj hhead]

/-- The call is refused, and not what is written inside it or later. -/
example : restrict (.add (.conditional (.boolean true) (.call (.var "f") []) (.var "x"))
    (.function [] (.boolean true))) = .error .functionCall := rfl

theorem Term.text_embed (term : Term) : term.embed.text = term.text := by
  induction term with
  | boolean value => cases value <;> rfl
  | number value => rfl
  | conditional cond thenBranch elseBranch hcond hthen helse =>
    rw [embed, ArrowLang.Term.text, text, hcond, hthen, helse]
  | add left right hleft hright => rw [embed, ArrowLang.Term.text, text, hleft, hright]

theorem Term.equiv_embed (term term' : Term) :
    term.embed.equiv term'.embed = term.equiv term' := by
  induction term generalizing term' with
  | boolean value | number value => cases term' <;> simp [embed, equiv, ArrowLang.Term.equiv]
  | conditional cond thenBranch elseBranch hcond hthen helse =>
    cases term' <;> simp [embed, equiv, ArrowLang.Term.equiv, hcond, hthen, helse]
  | add left right hleft hright =>
    cases term' <;> simp [embed, equiv, ArrowLang.Term.equiv, hleft, hright]

theorem constructs_of_equiv {term : ArrowLang.Term} {arith : Term}
    (h : term.equiv arith.embed) : term.constructs = [] := by
  induction arith generalizing term with
  | boolean value | number value => cases term <;> simp_all [Term.embed, ArrowLang.Term.equiv]
  | conditional cond thenBranch elseBranch hcond hthen helse =>
    cases term with
    | conditional cond' thenBranch' elseBranch' =>
      simp only [Term.embed, ArrowLang.Term.equiv, Bool.and_eq_true] at h
      rw [ArrowLang.Term.constructs, hcond h.1.1, hthen h.1.2, helse h.2]
      rfl
    | _ => simp [Term.embed, ArrowLang.Term.equiv] at h
  | add left right hleft hright =>
    cases term with
    | add left' right' =>
      simp only [Term.embed, ArrowLang.Term.equiv, Bool.and_eq_true] at h
      rw [ArrowLang.Term.constructs, hleft h.1, hright h.2]
      rfl
    | _ => simp [Term.embed, ArrowLang.Term.equiv] at h

/-- Restriction is the inverse of embedding also if terms are compared with numeric equality. -/
theorem exists_restrict_equiv_iff {term : ArrowLang.Term} {arith : Term} :
    (∃ found, restrict term = .ok found ∧ found.equiv arith) ↔ term.equiv arith.embed := by
  constructor
  · rintro ⟨found, hfound, hequiv⟩
    rwa [← embed_of_restrict hfound, Term.equiv_embed]
  · intro hequiv
    obtain ⟨found, rfl⟩ := exists_embed (constructs_of_equiv hequiv)
    rw [Term.equiv_embed] at hequiv
    exact ⟨found, restrict_embed found, hequiv⟩

/-- Restriction and embedding are inverse to each other, for identity and for numeric equality of
terms.  A term is refused if it contains a construct outside arithmetic, for the first one in
reading order, which has only conditionals and additions around it.  Both dialects print an
arithmetic term alike. -/
theorem restrict_inverts_embed :
    (∀ term : ArrowLang.Term,
      (∀ arith : Term, restrict term = .ok arith ↔ term = arith.embed) ∧
      (∀ arith : Term, (∃ found, restrict term = .ok found ∧ found.equiv arith) ↔
        term.equiv arith.embed) ∧
      ((∃ construct, restrict term = .error construct) ↔
        ∃ occurrence ∈ occurrences term, occurrence.term.construct?.isSome) ∧
      (∀ construct, restrict term = .error construct ↔ ∃ occurrence,
        term.firstConstruct? = some occurrence ∧ occurrence.term.construct? = some construct) ∧
      ∀ occurrence, term.firstConstruct? = some occurrence →
        ∀ step ∈ occurrence.path, step.isArithmetic) ∧
    ∀ arith : Term, arith.text = arith.embed.text := by
  refine ⟨fun term ↦ ⟨fun arith ↦ restrict_eq_ok_iff, fun arith ↦ exists_restrict_equiv_iff, ?_,
    fun construct ↦ ?_, fun _ ↦ ArrowLang.Term.isArithmetic_of_firstConstruct?⟩,
    fun arith ↦ arith.text_embed.symm⟩
  · simp only [restrict_eq_error_iff]
    rw [← Option.isSome_iff_exists, ArrowLang.Term.constructs_eq_filterMap, List.head?_filterMap,
      List.findSome?_isSome_iff]
  · rw [restrict_eq_error_iff, ArrowLang.Term.head?_constructs, Option.bind_eq_some_iff]

end Arith

end ArrowLang
