import ArrowLang.Parsing.Program
import ArrowLang.Proofs.Typing.Outcome

/-!
# Checking a program item by item

The term of a program is put together from its end, statements that follow each other are grouped,
and the rest of a constant is checked in a scope of its own.  None of that shows in the outcome: it
is what one gets by going through the items in the order of the text, each in the context that the
items before it leave behind.
-/

namespace ArrowLang

variable (context : Context)

/-- Checks an item and gives the context for what comes after it. -/
def Item.check : Item → Except TypeError Context
  | .const name init => do
    let ty ← typeOf context init
    return context.bind name ty
  | .statement term => do
    let _ ← typeOf context term
    return context

/-- Checks the items from left to right up to the first error, then the result. -/
def checkItems (items : List Item) (result : Term) : Except TypeError Ty := do
  let last ← items.foldlM Item.check context
  typeOf last result

theorem checkItems_nil (result : Term) : checkItems context [] result = typeOf context result := rfl

theorem checkItems_const (name : String) (init : Term) (items : List Item) (result : Term) :
    checkItems context (.const name init :: items) result =
      typeOf context init >>= fun ty ↦ checkItems (context.bind name ty) items result := by
  rw [checkItems, List.foldlM_cons, Item.check]
  cases typeOf context init <;> rfl

theorem checkItems_statement (term : Term) (items : List Item) (result : Term) :
    checkItems context (.statement term :: items) result =
      typeOf context term >>= fun _ ↦ checkItems context items result := by
  rw [checkItems, List.foldlM_cons, Item.check]
  cases typeOf context term <;> rfl

/-- A statement in front is checked before all others, even if it is the only one. -/
theorem typeOf_sequence_cons (term : Term) (statements : List Term) (rest : Term) :
    typeOf context (Item.sequence (term :: statements) rest) =
      typeOf context term >>= fun _ ↦ typeOf context (Item.sequence statements rest) := by
  change typeOf context (.sequence (term :: statements) rest) = _
  rw [typeOf_sequence, checkStatements_cons]
  cases typeOf context term with
  | error error => rfl
  | ok ty =>
    cases statements with
    | nil => rfl
    | cons statement statements => exact (typeOf_sequence context _ rest).symm

/-- Inference on the term of a program is the check of its items in order: the same type, or the
same error, for every interleaving of constants and statements. -/
theorem typeOf_assemble_eq_checkItems (items : List Item) (result : Term) :
    typeOf context (Item.assemble items result) = checkItems context items result := by
  -- The context is general, as a constant leaves another one for the items after it.
  induction items generalizing context with
  | nil => rw [checkItems_nil, Item.assemble_nil]
  | cons item items ih =>
    cases item with
    | const name init =>
      rw [Item.assemble_const, typeOf_const, checkItems_const]
      congr 1
      funext ty
      exact ih (context.bind name ty)
    | statement term =>
      obtain ⟨statements, rest, hitems, hstatement⟩ := Item.assemble_statement items result
      rw [hstatement, typeOf_sequence_cons, ← hitems, checkItems_statement, ih context]

end ArrowLang
