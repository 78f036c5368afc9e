import ArrowLang.Arith.Checker
import ArrowLang.Proofs.Typing.Dependence

/-!
# Arithmetic under both checks

An arithmetic term can be checked as such or as a term of the extended dialect.  Both checks follow
the same rules, but the extended one stops at a condition that is not a boolean, and then it does
not see what comes later.  One induction relates the outcomes, keeping track of the conditions in a
term.
-/

namespace ArrowLang.Arith

open Traced

section Forms

attribute [local simp] typeOf infer

@[simp]
theorem typeOf_boolean (value : Bool) : typeOf (.boolean value) = .ok .boolean := by
  simp

@[simp]
theorem typeOf_number (value : Binary64) : typeOf (.number value) = .ok .number := by
  simp

theorem typeOf_conditional (cond thenBranch elseBranch : Term) :
    typeOf (.conditional cond thenBranch elseBranch) =
      typeOf cond >>= fun _ ↦ typeOf thenBranch >>= fun thenTy ↦ typeOf elseBranch >>= fun elseTy ↦
        if thenTy = elseTy then .ok thenTy else .error .branchMismatch := by
  simp

theorem typeOf_add (left right : Term) :
    typeOf (.add left right) =
      typeOf left >>= fun leftTy ↦
        if leftTy = .number then
          typeOf right >>= fun rightTy ↦
            if rightTy = .number then .ok .number else .error .numberExpected
        else .error .numberExpected := by
  simp

end Forms

theorem Ty.equiv_embed {ty ty' : Ty} : ty.embed.equiv ty'.embed ↔ ty = ty' := by
  cases ty <;> cases ty' <;> decide

theorem Term.freeNames_embed (term : Term) : term.embed.freeNames = ∅ := by
  induction term with
  | boolean value => rfl
  | number value => rfl
  | conditional cond thenBranch elseBranch hcond hthen helse => simp [embed, hcond, hthen, helse]
  | add left right hleft hright => simp [embed, hleft, hright]

/-- The conditions of all conditionals in a term, those in conditions included. -/
def Term.conditions : Term → List Term
  | boolean _ => []
  | number _ => []
  | conditional cond thenBranch elseBranch =>
    conditions cond ++ cond :: (conditions thenBranch ++ conditions elseBranch)
  | add left right => conditions left ++ conditions right

/-- What the arithmetic and the extended check of a term with the given conditions come to. -/
inductive Agrees (conditions : List Term) :
    Except TypeError Ty → Except TypeError ArrowLang.Ty → Prop
  | ok (ty : Ty) : (∀ cond ∈ conditions, typeOf cond = .ok .boolean) →
      Agrees conditions (.ok ty) (.ok ty.embed)
  | numberExpected : Agrees conditions (.error .numberExpected) (.error .numberExpected)
  | branchMismatch : Agrees conditions (.error .branchMismatch) (.error .branchMismatch)
  /-- The extended check stops at a condition, whatever the arithmetic one comes to. -/
  | stopped (result : Except TypeError Ty) {cond : Term} : cond ∈ conditions →
      typeOf cond ≠ .ok .boolean → Agrees conditions result (.error .booleanExpected)

namespace Agrees

variable {conditions conditions' : List Term} {result : Except TypeError Ty}
  {result' : Except TypeError ArrowLang.Ty}

/-- Conditions that are booleans do not matter. -/
theorem after (hconditions : ∀ cond ∈ conditions, typeOf cond = .ok .boolean)
    (h : Agrees conditions' result result') :
    Agrees (conditions ++ conditions') result result' := by
  cases h with
  | ok ty hconditions' => exact .ok ty (List.forall_mem_append.mpr ⟨hconditions, hconditions'⟩)
  | numberExpected => exact .numberExpected
  | branchMismatch => exact .branchMismatch
  | stopped _ hmem hcond => exact .stopped _ (List.mem_append_right _ hmem) hcond

theorem bind {next : Ty → Except TypeError Ty}
    {next' : ArrowLang.Ty → Except TypeError ArrowLang.Ty}
    (h : Agrees conditions result result')
    (hnext : ∀ ty, result = .ok ty → Agrees conditions' (next ty) (next' ty.embed)) :
    Agrees (conditions ++ conditions') (result >>= next) (result' >>= next') := by
  cases h with
  | ok ty hconditions => exact after hconditions (hnext ty rfl)
  | numberExpected => exact .numberExpected
  | branchMismatch => exact .branchMismatch
  | stopped _ hmem hcond => exact .stopped _ (List.mem_append_left _ hmem) hcond

/-- After a condition, only the extended check looks at its type. -/
theorem cond {cond : Term} {ty : Ty} (hcond : typeOf cond = .ok ty)
    (h : Agrees conditions result result') :
    Agrees (cond :: conditions) result
      (if ty.embed.equiv .boolean then result' else .error .booleanExpected) := by
  cases ty with
  | number => exact .stopped _ List.mem_cons_self (by simp [hcond])
  | boolean => exact after (List.forall_mem_singleton.mpr hcond) h

theorem branches (thenTy elseTy : Ty) :
    Agrees [] (if thenTy = elseTy then .ok thenTy else .error .branchMismatch)
      (if thenTy.embed.equiv elseTy.embed then .ok thenTy.embed else .error .branchMismatch) := by
  by_cases h : thenTy = elseTy
  · rw [if_pos h, if_pos (Ty.equiv_embed.mpr h)]
    exact .ok thenTy nofun
  · rw [if_neg h, if_neg (Ty.equiv_embed.not.mpr h)]
    exact .branchMismatch

theorem summand (ty : Ty) (h : Agrees conditions result result') :
    Agrees conditions (if ty = .number then result else .error .numberExpected)
      (if ty.embed.equiv .number then result' else .error .numberExpected) := by
  cases ty with
  | number => exact h
  | boolean => exact .numberExpected

end Agrees

/-- The outcomes of the two checks on every arithmetic term. -/
theorem agrees (context : Context) (term : Term) :
    Agrees term.conditions (typeOf term) (ArrowLang.typeOf context term.embed) := by
  induction term with
  | boolean value => exact .ok .boolean nofun
  | number value => exact .ok .number nofun
  | conditional cond thenBranch elseBranch hcond hthen helse =>
    rw [typeOf_conditional, Term.embed, ArrowLang.typeOf_conditional]
    refine hcond.bind fun condTy hcondTy ↦ .cond hcondTy ?_
    refine hthen.bind fun thenTy _ ↦ ?_
    rw [← List.append_nil elseBranch.conditions]
    exact helse.bind fun elseTy _ ↦ .branches thenTy elseTy
  | add left right hleft hright =>
    rw [typeOf_add, Term.embed, ArrowLang.typeOf_add]
    refine hleft.bind fun leftTy _ ↦ .summand leftTy ?_
    rw [← List.append_nil right.conditions]
    exact hright.bind fun rightTy _ ↦ .summand rightTy (.ok .number nofun)

/-- The two checks agree on arithmetic except for the condition rule. -/
theorem typeOf_embed_agrees (term : Term) :
    (∀ context context',
      ArrowLang.typeOf context term.embed = ArrowLang.typeOf context' term.embed) ∧
    ∀ context,
      (∀ found, ArrowLang.typeOf context term.embed = .ok found →
        ∃ ty, typeOf term = .ok ty ∧ ty.embed = found) ∧
      (∀ error, ArrowLang.typeOf context term.embed = .error error → error ≠ .booleanExpected →
        typeOf term = .error error ∧ (error = .numberExpected ∨ error = .branchMismatch)) ∧
      (∀ error, typeOf term = .error error →
        ∃ error', ArrowLang.typeOf context term.embed = .error error') ∧
      (∀ ty, typeOf term = .ok ty →
        (ArrowLang.typeOf context term.embed = .ok ty.embed ∨
          ArrowLang.typeOf context term.embed = .error .booleanExpected) ∧
        (ArrowLang.typeOf context term.embed = .ok ty.embed ↔
          ∀ cond ∈ term.conditions, typeOf cond = .ok .boolean)) := by
  refine ⟨typeOf_eq_of_closed term.freeNames_embed, fun context ↦ ?_⟩
  have hagrees := agrees context term
  generalize typeOf term = result at hagrees ⊢
  generalize ArrowLang.typeOf context term.embed = result' at hagrees ⊢
  cases hagrees with
  | ok ty hconditions => simpa using hconditions
  | numberExpected => simp
  | branchMismatch => simp
  | stopped result hmem hcond =>
    have hnot : ¬∀ cond ∈ term.conditions, typeOf cond = .ok .boolean :=
      fun hall ↦ hcond (hall _ hmem)
    simp [hnot]

end ArrowLang.Arith
