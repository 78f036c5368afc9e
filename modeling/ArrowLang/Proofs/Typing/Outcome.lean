import ArrowLang.Typing.Checker

/-!
# Outcomes of inference

The type or error that inference ends with, form by form, once the events are left out.  Every later
statement about inference rests on these equations and not on its definition.
-/

namespace ArrowLang

open Traced

section Results

variable {ε α β : Type}

@[simp]
theorem ok_bind (value : α) (next : α → Except ε β) : (Except.ok value >>= next) = next value :=
  rfl

@[simp]
theorem error_bind (error : ε) (next : α → Except ε β) :
    (Except.error error >>= next) = .error error :=
  rfl

@[simp]
theorem guard_bind (condition : Prop) [Decidable condition] (error : ε) (next : Unit → Except ε β) :
    ((if condition then Except.ok () else Except.error error) >>= next) =
      if condition then next () else .error error := by
  split <;> rfl

theorem bind_eq_ok_iff (result : Except ε α) (next : α → Except ε β) (value : β) :
    (result >>= next) = .ok value ↔ ∃ middle, result = .ok middle ∧ next middle = .ok value := by
  cases result with
  | ok middle => simp
  | error error => simp

theorem bind_eq_error_iff (result : Except ε α) (next : α → Except ε β) (error : ε) :
    (result >>= next) = .error error ↔
      result = .error error ∨ ∃ middle, result = .ok middle ∧ next middle = .error error := by
  cases result with
  | ok middle => simp
  | error error => simp

theorem guard_eq_ok_iff (condition : Prop) [Decidable condition] (result : Except ε α) (error : ε)
    (value : α) :
    (if condition then result else .error error) = .ok value ↔
      condition ∧ result = .ok value := by
  by_cases h : condition <;> simp [h]

theorem guard_eq_error_iff (condition : Prop) [Decidable condition] (result : Except ε α)
    (error error' : ε) :
    (if condition then result else .error error) = .error error' ↔
      (condition ∧ result = .error error') ∨ (¬condition ∧ error = error') := by
  by_cases h : condition <;> simp [h]

end Results

section Forms

attribute [local simp] typeOf infer checkArgs checkStatements

variable (context : Context)

@[simp]
theorem typeOf_boolean (value : Bool) : typeOf context (.boolean value) = .ok .boolean := by
  simp

@[simp]
theorem typeOf_number (value : Binary64) : typeOf context (.number value) = .ok .number := by
  simp

theorem typeOf_conditional (cond thenBranch elseBranch : Term) :
    typeOf context (.conditional cond thenBranch elseBranch) =
      typeOf context cond >>= fun condTy ↦
        if condTy.equiv .boolean then
          typeOf context thenBranch >>= fun thenTy ↦
            typeOf context elseBranch >>= fun elseTy ↦
              if thenTy.equiv elseTy then .ok thenTy else .error .branchMismatch
        else .error .booleanExpected := by
  simp

theorem typeOf_add (left right : Term) :
    typeOf context (.add left right) =
      typeOf context left >>= fun leftTy ↦
        if leftTy.equiv .number then
          typeOf context right >>= fun rightTy ↦
            if rightTy.equiv .number then .ok .number else .error .numberExpected
        else .error .numberExpected := by
  simp

theorem typeOf_var (name : String) :
    typeOf context (.var name) =
      match context.lookup name with
      | some ty => .ok ty
      | none => .error (.unknownVariable name) := by
  simp only [typeOf, infer, outcome_bind, outcome_emit, ok_bind]
  cases context.lookup name <;> rfl

theorem typeOf_function (params : List Param) (body : Term) :
    typeOf context (.function params body) =
      typeOf (context.extend params) body >>= fun result ↦ .ok (.function params result) := by
  simp

/-- The arguments count only once there are as many as there are parameters. -/
theorem typeOf_call (callee : Term) (args : List Term) :
    typeOf context (.call callee args) =
      typeOf context callee >>= fun calleeTy ↦
        match calleeTy with
        | .function params result =>
          if params.length = args.length then
            (checkArgs context 0 args params).outcome >>= fun _ ↦ .ok result
          else .error (.wrongArgumentCount params.length args.length)
        | _ => .error .functionExpected := by
  simp only [typeOf, infer, outcome_bind, outcome_emit, ok_bind]
  congr 1
  funext calleeTy
  cases calleeTy with
  | boolean => rfl
  | number => rfl
  | function params result =>
    simp only [outcome_bind, outcome_require, outcome_pure, guard_bind, beq_iff_eq]

theorem typeOf_sequence (statements : List Term) (rest : Term) :
    typeOf context (.sequence statements rest) =
      (checkStatements context statements).outcome >>= fun _ ↦ typeOf context rest := by
  simp

theorem typeOf_const (name : String) (init rest : Term) :
    typeOf context (.const name init rest) =
      typeOf context init >>= fun ty ↦ typeOf (context.bind name ty) rest := by
  simp

@[simp]
theorem checkArgs_nil (position : Nat) (params : List Param) :
    (checkArgs context position [] params).outcome = .ok () := by
  simp

theorem checkArgs_cons (position : Nat) (arg : Term) (args : List Term) (param : Param)
    (params : List Param) :
    (checkArgs context position (arg :: args) (param :: params)).outcome =
      typeOf context arg >>= fun ty ↦
        if ty.equiv param.ty then (checkArgs context (position + 1) args params).outcome
        else .error (.argumentMismatch position) := by
  simp

@[simp]
theorem checkStatements_nil : (checkStatements context []).outcome = .ok () := by
  simp

theorem checkStatements_cons (statement : Term) (statements : List Term) :
    (checkStatements context (statement :: statements)).outcome =
      typeOf context statement >>= fun _ ↦ (checkStatements context statements).outcome := by
  simp

end Forms

end ArrowLang
