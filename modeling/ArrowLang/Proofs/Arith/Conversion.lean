import ArrowLang.Arith.Term

/-!
# Terms that are arithmetic

The constructs of a term tell whether it has an arithmetic counterpart: the terms without constructs
are the embedded ones, and restricting an embedded term gives back what was embedded.
-/

namespace ArrowLang

namespace Term

mutual

/-- The constructs outside arithmetic that occur in a term, from the outside in and from left to
right. -/
@[simp]
def constructs : Term → List Construct
  | boolean _ => []
  | number _ => []
  | conditional cond thenBranch elseBranch =>
    constructs cond ++ (constructs thenBranch ++ constructs elseBranch)
  | add left right => constructs left ++ constructs right
  | var _ => [.variableReference]
  | function _ body => .function :: constructs body
  | call callee args => .functionCall :: (constructs callee ++ constructsAll args)
  | sequence statements rest => .statementSequence :: (constructsAll statements ++ constructs rest)
  | const _ init rest => .constBinding :: (constructs init ++ constructs rest)

def constructsAll : List Term → List Construct
  | [] => []
  | term :: terms => constructs term ++ constructsAll terms

end

end Term

namespace Arith

theorem Term.constructs_embed (term : Term) : term.embed.constructs = [] := by
  induction term with
  | boolean value => rfl
  | number value => rfl
  | conditional cond thenBranch elseBranch hcond hthen helse => simp [embed, hcond, hthen, helse]
  | add left right hleft hright => simp [embed, hleft, hright]

/-- A term without constructs is embedded. -/
theorem exists_embed {term : ArrowLang.Term} (h : term.constructs = []) :
    ∃ arith : Term, arith.embed = term := by
  induction term with
  | boolean value => exact ⟨.boolean value, rfl⟩
  | number value => exact ⟨.number value, rfl⟩
  | conditional _ _ _ ihcond ihthen ihelse =>
    rw [ArrowLang.Term.constructs, List.append_eq_nil_iff, List.append_eq_nil_iff] at h
    obtain ⟨cond, rfl⟩ := ihcond h.1
    obtain ⟨thenBranch, rfl⟩ := ihthen h.2.1
    obtain ⟨elseBranch, rfl⟩ := ihelse h.2.2
    exact ⟨.conditional cond thenBranch elseBranch, rfl⟩
  | add _ _ ihleft ihright =>
    rw [ArrowLang.Term.constructs, List.append_eq_nil_iff] at h
    obtain ⟨left, rfl⟩ := ihleft h.1
    obtain ⟨right, rfl⟩ := ihright h.2
    exact ⟨.add left right, rfl⟩
  | _ => cases h

@[simp]
theorem restrict_embed (term : Term) : restrict term.embed = .ok term := by
  induction term with
  | boolean value => rfl
  | number value => rfl
  | conditional cond thenBranch elseBranch hcond hthen helse =>
    rw [Term.embed, restrict, hcond, hthen, helse]
    rfl
  | add left right hleft hright =>
    rw [Term.embed, restrict, hleft, hright]
    rfl

theorem Term.embed_inj {term term' : Term} : term.embed = term'.embed ↔ term = term' := by
  constructor
  · intro h
    have hrestrict := congrArg restrict h
    rw [restrict_embed, restrict_embed] at hrestrict
    exact Except.ok.inj hrestrict
  · exact congrArg embed

end Arith

end ArrowLang
