import ArrowLang.Proofs.Parsing.Cursor
import ArrowLang.Verdict

/-!
# Outcomes of checking a text

A verdict is made of two results, that of reading the text and that of inferring a type for what was
read.
-/

namespace ArrowLang

open Parsing

/-- The verdict on a text that reads as given, with types inferred as given. -/
def Verdict.judge {τ : Type} (infer : τ → Except TypeError ProgramType) :
    Except ParseError τ → Verdict
  | .error error => .error (.parse error)
  | .ok term => (infer term).mapError .type

theorem Verdict.outcome_judge {τ σ : Type} (parsed : Except ParseError τ)
    (check : τ → Checking σ) (programType : σ → ProgramType) :
    ((Traced.ofExcept parsed).mapError CheckError.parse >>= fun term ↦
      (check term).mapError CheckError.type >>= fun ty ↦ pure (programType ty) :
        Traced Event CheckError ProgramType).outcome =
      judge (fun term ↦ (check term).outcome.map programType) parsed := by
  cases parsed with
  | error error => rfl
  | ok term =>
    rw [Traced.outcome_bind]
    change ((check term).mapError CheckError.type >>= fun ty ↦ pure (programType ty) :
      Traced Event CheckError ProgramType).outcome = _
    rw [Traced.outcome_bind]
    change (check term).outcome.mapError CheckError.type >>= _ = _
    rw [judge]
    cases (check term).outcome <;> rfl

theorem verdict_arith (source : String) :
    verdict .arith source =
      Verdict.judge (fun term ↦ (Arith.typeOf term).map .arith) (parseArith source) :=
  Verdict.outcome_judge (parseArith source) Arith.check .arith

theorem verdict_basic (source : String) :
    verdict .basic source =
      Verdict.judge (fun term ↦ (typeOf .empty term).map .basic) (parse source) :=
  Verdict.outcome_judge (parse source) checkClosed .basic

/-- The accepted programs and their types. -/
theorem verdict_basic_eq_ok_iff {source : String} {ty : Ty} :
    verdict .basic source = .ok (.basic ty) ↔
      ∃ term, parse source = .ok term ∧ typeOf .empty term = .ok ty := by
  rw [verdict_basic]
  cases parse source with
  | error error => simp [Verdict.judge]
  | ok term =>
    rw [Verdict.judge]
    constructor
    · intro h
      refine ⟨term, rfl, ?_⟩
      cases htype : typeOf .empty term with
      | error error =>
        rw [htype] at h
        cases h
      | ok ty' =>
        rw [htype] at h
        cases h
        rfl
    · rintro ⟨_, hterm, htype⟩
      cases hterm
      rw [htype]
      rfl

theorem verdict_of_parse_error {source : String} {error : ParseError}
    (h : parse source = .error error) : verdict .basic source = .error (.parse error) := by
  rw [verdict_basic, h, Verdict.judge]

theorem parse_eq_outcome (source : String) :
    parse source = outcome (program .basic (.ofString source)) := by
  rw [parse, Session.parse, Session.run_eq]
  rfl

theorem parseArith_eq_outcome (source : String) :
    parseArith source = outcome (arithProgram (.ofString source)) := by
  rw [parseArith, Session.parseArith, Session.run_eq]
  rfl

end ArrowLang
