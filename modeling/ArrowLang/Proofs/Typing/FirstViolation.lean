import ArrowLang.Proofs.Typing.Agreement
import ArrowLang.Proofs.Typing.Violation

/-!
# Inference reports the first violation

The error that inference ends with is that of the first violation of a rule in the term.  One lemma
for each form of term leads from an error to the part it comes from or to the breach of the form's
own rule; as a term has only one violation, the converse needs no further induction.
-/

namespace ArrowLang

variable {context : Context}

/-- Every error that inference ends with on the term is that of a violation in it. -/
def Reports (context : Context) (term : Term) : Prop :=
  ∀ error, typeOf context term = .error error → ∃ path, Violates context.erase term path error

namespace Reports

theorem boolean (value : Bool) : Reports context (.boolean value) := by
  intro error h
  rw [typeOf_boolean] at h
  cases h

theorem number (value : Binary64) : Reports context (.number value) := by
  intro error h
  rw [typeOf_number] at h
  cases h

theorem conditional {cond thenBranch elseBranch : Term} (hcond : Reports context cond)
    (hthen : Reports context thenBranch) (helse : Reports context elseBranch) :
    Reports context (.conditional cond thenBranch elseBranch) := by
  intro error h
  rw [typeOf_conditional, bind_eq_error_iff] at h
  obtain h | ⟨condTy, hcondTy, h⟩ := h
  · obtain ⟨path, hpath⟩ := hcond error h
    exact ⟨_, .of_enters .cond hpath⟩
  have hcondType := (infers context cond).hasType hcondTy
  rw [guard_eq_error_iff, Ty.equiv_iff_erase_eq] at h
  obtain ⟨hboolean, h⟩ | ⟨hne, rfl⟩ := h
  · rw [hboolean] at hcondType
    rw [bind_eq_error_iff] at h
    obtain h | ⟨thenTy, hthenTy, h⟩ := h
    · obtain ⟨path, hpath⟩ := hthen error h
      exact ⟨_, .of_enters (.thenBranch hcondType) hpath⟩
    have hthenType := (infers context thenBranch).hasType hthenTy
    rw [bind_eq_error_iff] at h
    obtain h | ⟨elseTy, helseTy, h⟩ := h
    · obtain ⟨path, hpath⟩ := helse error h
      exact ⟨_, .of_enters (.elseBranch hcondType ⟨_, hthenType⟩) hpath⟩
    have helseType := (infers context elseBranch).hasType helseTy
    rw [guard_eq_error_iff, Ty.equiv_iff_erase_eq] at h
    obtain ⟨-, h⟩ | ⟨hne, rfl⟩ := h
    · cases h
    · exact ⟨_, .of_breach (.branches hcondType hthenType helseType hne)⟩
  · exact ⟨_, .of_breach (.cond hcondType hne)⟩

theorem add {left right : Term} (hleft : Reports context left) (hright : Reports context right) :
    Reports context (.add left right) := by
  intro error h
  rw [typeOf_add, bind_eq_error_iff] at h
  obtain h | ⟨leftTy, hleftTy, h⟩ := h
  · obtain ⟨path, hpath⟩ := hleft error h
    exact ⟨_, .of_enters .left hpath⟩
  have hleftType := (infers context left).hasType hleftTy
  rw [guard_eq_error_iff, Ty.equiv_iff_erase_eq] at h
  obtain ⟨hnumber, h⟩ | ⟨hne, rfl⟩ := h
  · rw [hnumber] at hleftType
    rw [bind_eq_error_iff] at h
    obtain h | ⟨rightTy, hrightTy, h⟩ := h
    · obtain ⟨path, hpath⟩ := hright error h
      exact ⟨_, .of_enters (.right hleftType) hpath⟩
    have hrightType := (infers context right).hasType hrightTy
    rw [guard_eq_error_iff, Ty.equiv_iff_erase_eq] at h
    obtain ⟨-, h⟩ | ⟨hne, rfl⟩ := h
    · cases h
    · exact ⟨_, .of_breach (.right hleftType hrightType hne)⟩
  · exact ⟨_, .of_breach (.left hleftType hne)⟩

theorem var (name : String) : Reports context (.var name) := by
  intro error h
  rw [typeOf_var] at h
  cases hlookup : context.lookup name with
  | some ty =>
    rw [hlookup] at h
    cases h
  | none =>
    rw [hlookup] at h
    cases h
    exact ⟨_, .of_breach (.unknownVariable (by simp [Context.erase, hlookup]))⟩

theorem function {params : List Param} {body : Term}
    (hbody : Reports (context.extend params) body) : Reports context (.function params body) := by
  intro error h
  rw [typeOf_function, bind_eq_error_iff] at h
  obtain h | ⟨result, hresult, h⟩ := h
  · obtain ⟨path, hpath⟩ := hbody error h
    rw [Context.erase_extend] at hpath
    exact ⟨_, .of_enters .body hpath⟩
  · cases h

/-- A failed check of arguments stopped at one that has an error or the wrong type. -/
theorem checkArgs_eq_error {args : List Term} {params : List Param} {error : TypeError}
    (position : Nat) (hlength : params.length = args.length)
    (h : (checkArgs context position args params).outcome = .error error) :
    ∃ index arg param, IsNext (fun pair ↦ HasType context.erase pair.1 pair.2)
        (args.zip (Ty.eraseParams params)) index (arg, param) ∧
      (typeOf context arg = .error error ∨ ∃ ty, HasType context.erase arg ty ∧ ty ≠ param ∧
        error = .argumentMismatch (position + index)) := by
  induction args generalizing position params with
  | nil =>
    rw [checkArgs_nil] at h
    cases h
  | cons arg args ih =>
    obtain ⟨param, params, rfl⟩ := List.exists_cons_of_length_eq_add_one hlength
    rw [checkArgs_cons, bind_eq_error_iff] at h
    obtain h | ⟨ty, hty, h⟩ := h
    · exact ⟨0, arg, _, .head, .inl h⟩
    have htype := (infers context arg).hasType hty
    rw [guard_eq_error_iff, Ty.equiv_iff_erase_eq] at h
    obtain ⟨hsame, h⟩ | ⟨hne, rfl⟩ := h
    · rw [hsame] at htype
      obtain ⟨index, arg', param', hnext, hstop⟩ := ih (position + 1) (Nat.succ.inj hlength) h
      rw [Nat.add_assoc, Nat.add_comm 1] at hstop
      exact ⟨index + 1, arg', param', .tail htype hnext, hstop⟩
    · exact ⟨0, arg, _, .head, .inr ⟨_, htype, hne, rfl⟩⟩

theorem call {callee : Term} {args : List Term} (hcallee : Reports context callee)
    (hargs : ∀ arg ∈ args, Reports context arg) : Reports context (.call callee args) := by
  intro error h
  rw [typeOf_call, bind_eq_error_iff] at h
  obtain h | ⟨calleeTy, hcalleeTy, h⟩ := h
  · obtain ⟨path, hpath⟩ := hcallee error h
    exact ⟨_, .of_enters .callee hpath⟩
  have hcalleeType := (infers context callee).hasType hcalleeTy
  cases calleeTy with
  | boolean | number =>
    cases h
    exact ⟨_, .of_breach (.callee hcalleeType nofun)⟩
  | function params result =>
    dsimp only at h
    rw [guard_eq_error_iff] at h
    obtain ⟨hlength, h⟩ | ⟨hlength, rfl⟩ := h
    · rw [bind_eq_error_iff] at h
      obtain h | ⟨_, -, h⟩ := h
      · obtain ⟨index, arg, param, hnext, hstop⟩ := checkArgs_eq_error 0 hlength h
        have hcount : args.length = (Ty.eraseParams params).length := by
          rw [Ty.length_eraseParams, hlength]
        obtain h | ⟨ty, hty, hne, rfl⟩ := hstop
        · obtain ⟨path, hpath⟩ := hargs arg (List.of_mem_zip hnext.mem).1 error h
          exact ⟨_, .of_enters (.arg hcalleeType hcount hnext) hpath⟩
        · rw [Nat.zero_add]
          exact ⟨_, .of_breach (.arg hcalleeType hcount hnext hty hne)⟩
      · cases h
    · have hcount : args.length ≠ (Ty.eraseParams params).length := by
        rw [Ty.length_eraseParams]
        exact Ne.symm hlength
      have hbreach := Breach.arity hcalleeType hcount
      rw [Ty.length_eraseParams] at hbreach
      exact ⟨_, .of_breach hbreach⟩

/-- A failed check of statements stopped at one that has an error. -/
theorem checkStatements_eq_error {statements : List Term} {error : TypeError}
    (h : (checkStatements context statements).outcome = .error error) :
    ∃ index statement, IsNext (Typable context.erase) statements index statement ∧
      typeOf context statement = .error error := by
  induction statements with
  | nil =>
    rw [checkStatements_nil] at h
    cases h
  | cons statement statements ih =>
    rw [checkStatements_cons, bind_eq_error_iff] at h
    obtain h | ⟨ty, hty, h⟩ := h
    · exact ⟨0, statement, .head, h⟩
    · obtain ⟨index, statement', hnext, herror⟩ := ih h
      exact ⟨index + 1, statement', .tail ⟨_, (infers context statement).hasType hty⟩ hnext, herror⟩

theorem sequence {statements : List Term} {rest : Term}
    (hstatements : ∀ statement ∈ statements, Reports context statement)
    (hrest : Reports context rest) : Reports context (.sequence statements rest) := by
  intro error h
  rw [typeOf_sequence, bind_eq_error_iff] at h
  obtain h | ⟨_, hchecked, h⟩ := h
  · obtain ⟨index, statement, hnext, herror⟩ := checkStatements_eq_error h
    obtain ⟨path, hpath⟩ := hstatements statement hnext.mem error herror
    exact ⟨_, .of_enters (.statement hnext) hpath⟩
  · have htypable := (Infers.checkStatements fun statement _ ↦ infers context statement).mp hchecked
    obtain ⟨path, hpath⟩ := hrest error h
    exact ⟨_, .of_enters (.rest htypable) hpath⟩

theorem const {name : String} {init rest : Term} (hinit : Reports context init)
    (hrest : ∀ ty, Reports (context.bind name ty) rest) :
    Reports context (.const name init rest) := by
  intro error h
  rw [typeOf_const, bind_eq_error_iff] at h
  obtain h | ⟨initTy, hinitTy, h⟩ := h
  · obtain ⟨path, hpath⟩ := hinit error h
    exact ⟨_, .of_enters .init hpath⟩
  · obtain ⟨path, hpath⟩ := hrest initTy error h
    rw [Context.erase_bind] at hpath
    exact ⟨_, .of_enters (.scope ((infers context init).hasType hinitTy)) hpath⟩

end Reports

/-- Every error of inference is that of a violation. -/
theorem reports (context : Context) (term : Term) : Reports context term := by
  induction term generalizing context with
  | boolean value => exact .boolean value
  | number value => exact .number value
  | conditional _ _ _ hcond hthen helse =>
    exact (hcond context).conditional (hthen context) (helse context)
  | add _ _ hleft hright => exact (hleft context).add (hright context)
  | var name => exact .var name
  | function params _ hbody => exact (hbody (context.extend params)).function
  | call _ _ hcallee hargs => exact (hcallee context).call fun arg hmem ↦ hargs arg hmem context
  | sequence _ _ hstatements hrest =>
    exact .sequence (fun statement hmem ↦ hstatements statement hmem context) (hrest context)
  | const name _ _ hinit hrest =>
    exact (hinit context).const fun ty ↦ hrest (context.bind name ty)

/-- Inference ends with an error exactly if the error is that of the first violation in the term,
and a term has at most one first violation. -/
theorem typeOf_reports_first_violation (context : Context) (term : Term) :
    (∀ error, typeOf context term = .error error ↔
      ∃ path, Violates context.erase term path error) ∧
    (∀ path path' error error', Violates context.erase term path error →
      Violates context.erase term path' error' → path = path' ∧ error = error') := by
  refine ⟨fun error ↦ ⟨reports context term error, ?_⟩, fun _ _ _ _ h h' ↦ h.unique h'⟩
  rintro ⟨path, hpath⟩
  cases hresult : typeOf context term with
  | ok found => exact absurd ⟨_, (infers context term).hasType hresult⟩ hpath.not_typable
  | error error' =>
    obtain ⟨path', hpath'⟩ := reports context term error' hresult
    rw [(hpath.unique hpath').2]

end ArrowLang
