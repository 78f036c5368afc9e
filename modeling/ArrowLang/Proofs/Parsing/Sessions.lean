import ArrowLang.Proofs.Grammar.Exactness
import ArrowLang.Proofs.Parsing.Dialects

/-!
# A session over many requests

A session can be asked for programs again and again, and each request goes on where the last one
stopped.  The tokens and the dialect stay, the cursor moves forward up to the end token, and the
depth counts the requests that were refused for their nesting.  A request that succeeds leaves
nothing ahead, so that there is no second program.
-/

namespace ArrowLang

namespace Parsing

open State

variable {s t : State}

namespace State

/-- The index of the end token. -/
def endIndex (s : State) : Nat := s.tokens.findIdx fun token ↦ token.kind == .endOfInput

theorem LeadsTo.finish_eq (h : s.LeadsTo t) : t.finish = s.finish := by
  have hlast := congrArg List.getLast? h.tokens_eq
  simpa [tokens] using hlast

/-- What is ahead is what was ahead, without the tokens read since. -/
theorem LeadsTo.ahead_eq (h : s.LeadsTo t) : t.ahead = s.ahead.drop (t.cursor - s.cursor) := by
  calc
    t.ahead = (t.before.reverse ++ t.ahead).drop t.cursor := by simp [cursor]
    _ = (s.before.reverse ++ s.ahead).drop (s.cursor + (t.cursor - s.cursor)) := by
      rw [h.append_eq, Nat.add_sub_cancel' h.cursor_le]
    _ = s.ahead.drop (t.cursor - s.cursor) := by simp [cursor, ← List.drop_drop]

theorem LeadsTo.wellFormed (h : s.LeadsTo t) (hs : s.WellFormed) : t.WellFormed := by
  apply hs.of_subset h.finish_eq
  unfold terminals
  rw [h.ahead_eq]
  exact List.map_subset _ (List.drop_subset _ _)

/-- The end token is the only one of its kind. -/
theorem endIndex_eq (hs : s.WellFormed) (hbefore : s.before = []) :
    s.endIndex = s.ahead.length := by
  have hahead : ∀ token ∈ s.ahead, (token.kind == .endOfInput) = false := by
    intro token hmem
    have hkind := hs.ahead_kind token.terminal (List.mem_map_of_mem hmem)
    exact beq_false_of_ne hkind
  have hnone : s.ahead.findIdx (fun token ↦ token.kind == .endOfInput) = s.ahead.length :=
    List.findIdx_eq_length_of_false hahead
  simp [endIndex, tokens, hbefore, List.findIdx_append, hnone, hs.finish_kind]

theorem getElem?_tokens_endIndex (hs : s.WellFormed) (hbefore : s.before = []) :
    s.tokens[s.endIndex]? = some s.finish := by
  rw [endIndex_eq hs hbefore]
  simp [tokens, hbefore]

/-- Nothing is ahead, and a level may still be opened. -/
structure Exhausted (s : State) : Prop where
  ahead_eq : s.ahead = []
  depth_lt : s.depth < nestingLimit

theorem Exhausted.current_eq (h : s.Exhausted) : s.current = s.finish := by
  rw [State.current, h.ahead_eq]
  rfl

end State

end Parsing

namespace Grammar.Derivation

theorem depth_expr_pos : (d : Derivation .expr) → 0 < d.depth
  | plain _ | conditional _ _ _ => Nat.succ_pos _

theorem depth_program_pos : (d : Derivation .program) → 0 < d.depth
  | const _ init _ => Nat.lt_of_lt_of_le init.depth_expr_pos (Nat.le_max_left _ _)
  | statement term _ => Nat.lt_of_lt_of_le term.depth_expr_pos (Nat.le_max_left _ _)
  | final term _ => term.depth_expr_pos

end Grammar.Derivation

namespace Parsing

open State

variable {α : Type} {s t : State}

theorem nested_of_error {parser : Parser α} {error : ParseError}
    (h : parser { s with depth := s.depth + 1 } = .error error t) :
    nested parser s = .error error { t with depth := t.depth - 1 } := by
  rw [nested, h]

theorem primary_of_end (dialect : Dialect) (type : Parser Ty) (expression : Parser Term)
    (h : s.current.kind = .endOfInput) :
    primary dialect type expression s = .error ⟨.unexpectedEnd, s.current.position⟩ s := by
  rw [primary, current_bind, h]
  change unexpected s = _
  rw [unexpected, current_bind, h]
  rfl

theorem expression_of_end (dialect : Dialect) (levels : Nat) (h : s.current.kind = .endOfInput) :
    expression dialect (levels + 1) s = .error ⟨.unexpectedEnd, s.current.position⟩ s := by
  apply nested_of_error (t := { s with depth := s.depth + 1 })
  apply bind_of_error
  apply bind_of_error
  apply bind_of_error
  exact primary_of_end dialect _ _ h

/-- A session with nothing ahead refuses every request at the end token, and stays as it is. -/
theorem program_of_exhausted (dialect : Dialect) (hs : s.WellFormed) (h : s.Exhausted) :
    program dialect s = .error ⟨.unexpectedEnd, s.finish.position⟩ s := by
  obtain ⟨levels, hlevels⟩ : ∃ levels, nestingLimit - s.depth = levels + 1 :=
    Nat.exists_eq_succ_of_ne_zero (Nat.sub_ne_zero_of_lt h.depth_lt)
  change (itemsAndResult dialect (expression dialect (nestingLimit - s.depth)) s.ahead.length >>= _)
    s = _
  rw [hlevels, h.ahead_eq]
  apply bind_of_error
  apply bind_of_error
  rw [expression_of_end dialect levels (by rw [h.current_eq, hs.finish_kind]), h.current_eq]

/-- A request that succeeds reads everything. -/
theorem exhausted_of_program {dialect : Dialect} {term : Term} (hs : s.WellFormed)
    (h : program dialect s = .ok term t) : t.Exhausted := by
  have hfollows := Steady.program dialect s
  rw [h] at hfollows
  cases hfollows with
  | ok hleads hdepth =>
    constructor
    · obtain ⟨parts, u, -, hlast⟩ := bind_eq_ok.mp h
      obtain ⟨ended, _, hat, hlast⟩ := bind_eq_ok.mp hlast
      obtain ⟨rfl, rfl⟩ := isAt_eq_ok.mp hat
      split at hlast
      · rename_i hend
        obtain ⟨-, rfl⟩ := pure_eq_ok.mp hlast
        have hnone := terminals_eq_nil (hleads.wellFormed hs) (beq_iff_eq.mp hend)
        exact List.map_eq_nil_iff.mp hnone
      · exact absurd hlast unexpected_ne_ok
    · obtain ⟨d, -, hd, -⟩ := derives_program hs h
      have hpos := d.depth_program_pos
      omega

end Parsing

/-! ## Requests -/

/-- What a session can be asked for. -/
inductive Request
  | program
  | arithProgram

/-- What a request comes to: a term of one of the dialects or an error. -/
abbrev Answer := Except ParseError (Term ⊕ Arith.Term)

/-- The request was refused for its nesting. -/
def Answer.isTooDeep : Answer → Bool
  | .ok _ => false
  | .error error => error.fault == .nestingTooDeep

namespace Session

/-- Answers a request from where the session stands. -/
def answer (session : Session) : Request → Answer × Session
  | .program => (session.parse.1.map .inl, session.parse.2)
  | .arithProgram => (session.parseArith.1.map .inr, session.parseArith.2)

/-- The answers to one request after the other, and the session after them. -/
def answers (session : Session) : List Request → List Answer × Session
  | [] => ([], session)
  | request :: requests =>
    let first := session.answer request
    let others := first.2.answers requests
    (first.1 :: others.1, others.2)

/-- The dialect in which the session reads for a request. -/
def dialectFor (session : Session) : Request → Dialect
  | .program => session.dialect
  | .arithProgram => .arith

open Parsing

/-- Every request reads a program; what is read as arithmetic has an arithmetic counterpart. -/
theorem answer_cases (session : Session) (request : Request) :
    (∃ term value t, program (session.dialectFor request) session.state = .ok term t ∧
      session.answer request = (.ok value, { session with state := t })) ∨
    (∃ error t, program (session.dialectFor request) session.state = .error error t ∧
      session.answer request = (.error error, { session with state := t })) := by
  cases request with
  | program =>
    cases hrun : program session.dialect session.state with
    | ok term t =>
      refine .inl ⟨term, .inl term, t, hrun, ?_⟩
      simp [answer, parse, run, hrun, Except.map]
    | error error t =>
      refine .inr ⟨error, t, hrun, ?_⟩
      simp [answer, parse, run, hrun, Except.map]
  | arithProgram =>
    obtain ⟨arith, t, hrun, harith⟩ | ⟨error, t, hrun, harith⟩ := arithProgram_cases session.state
    · refine .inl ⟨arith.embed, .inr arith, t, hrun, ?_⟩
      simp [answer, parseArith, run, harith, Except.map]
    · refine .inr ⟨error, t, hrun, ?_⟩
      simp [answer, parseArith, run, harith, Except.map]

/-- A request moves the session as a run of a parser does. -/
theorem exists_follows_answer (session : Session) (request : Request) :
    ∃ result, Follows session.state result ∧
      session.answer request = (outcome result, { session with state := finalState result }) := by
  have hfollows := Steady.program (session.dialectFor request) session.state
  obtain ⟨term, value, t, hrun, hanswer⟩ | ⟨error, t, hrun, hanswer⟩ := session.answer_cases request
  · rw [hrun] at hfollows
    cases hfollows with
    | ok hleads hdepth => exact ⟨.ok value t, .ok hleads hdepth, hanswer⟩
  · rw [hrun] at hfollows
    cases hfollows with
    | error hleads hposition hdepth =>
      exact ⟨.error error t, .error hleads hposition hdepth, hanswer⟩

theorem leadsTo_answer (session : Session) (request : Request) :
    session.state.LeadsTo (session.answer request).2.state := by
  obtain ⟨result, hfollows, hanswer⟩ := session.exists_follows_answer request
  rw [hanswer]
  exact hfollows.leadsTo

theorem isAt_answer (session : Session) {request : Request} {error : ParseError}
    (herror : (session.answer request).1 = .error error) :
    error.IsAt session.state.tokens (session.answer request).2.state.cursor := by
  obtain ⟨result, hfollows, hanswer⟩ := session.exists_follows_answer request
  rw [hanswer] at herror ⊢
  exact hfollows.isAt herror

/-- How a session on the text stands after the answers. -/
structure Stands (dialect : Dialect) (source : String) (answers : List Answer)
    (session : Session) : Prop where
  dialect_eq : session.dialect = dialect
  leadsTo : (State.ofString source).LeadsTo session.state
  depth_eq : session.state.depth = answers.countP Answer.isTooDeep
  exhausted : (∃ answer ∈ answers, answer.isOk) → session.state.Exhausted

theorem stands_ofString (dialect : Dialect) (source : String) :
    Stands dialect source [] (ofString dialect source) :=
  ⟨rfl, .refl _, rfl, nofun⟩

namespace Stands

variable {dialect : Dialect} {source : String} {earlier : List Answer} {session : Session}

theorem wellFormed (h : Stands dialect source earlier session) : session.state.WellFormed :=
  h.leadsTo.wellFormed (wellFormed_ofString source)

/-- Once a request has succeeded, every other one fails at the end token and changes nothing. -/
theorem answer_eq (h : Stands dialect source earlier session)
    (hok : ∃ answer ∈ earlier, answer.isOk) (request : Request) :
    session.answer request =
      (.error ⟨.unexpectedEnd, (State.ofString source).finish.position⟩, session) := by
  have hend := program_of_exhausted (session.dialectFor request) h.wellFormed (h.exhausted hok)
  rw [h.leadsTo.finish_eq] at hend
  obtain ⟨term, value, t, hrun, -⟩ | ⟨error, t, hrun, hanswer⟩ := session.answer_cases request
  · rw [hend] at hrun
    cases hrun
  · rw [hend] at hrun
    cases hrun
    exact hanswer

theorem exhausted_answer (h : Stands dialect source earlier session) {request : Request}
    (hok : ∃ answer ∈ earlier ++ [(session.answer request).1], answer.isOk) :
    (session.answer request).2.state.Exhausted := by
  by_cases hearlier : ∃ answer ∈ earlier, answer.isOk
  · rw [h.answer_eq hearlier request]
    exact h.exhausted hearlier
  · obtain ⟨answer, hmem, hok⟩ := hok
    have hlast : answer = (session.answer request).1 := by
      obtain hmem | hmem := List.mem_append.mp hmem
      · exact absurd ⟨answer, hmem, hok⟩ hearlier
      · exact List.mem_singleton.mp hmem
    obtain ⟨term, value, t, hrun, hanswer⟩ | ⟨error, t, -, hanswer⟩ := session.answer_cases request
    · rw [hanswer]
      exact exhausted_of_program h.wellFormed hrun
    · rw [hlast, hanswer] at hok
      cases hok

/-- What one request does to a session. -/
theorem answer (h : Stands dialect source earlier session) (request : Request) :
    Stands dialect source (earlier ++ [(session.answer request).1])
      (session.answer request).2 := by
  refine ⟨?_, h.leadsTo.trans (session.leadsTo_answer request), ?_, h.exhausted_answer⟩
  all_goals
    obtain ⟨result, hfollows, hanswer⟩ := session.exists_follows_answer request
    rw [hanswer]
  · exact h.dialect_eq
  · rw [List.countP_append, ← h.depth_eq]
    cases hfollows with
    | ok hleads hdepth => exact hdepth
    | error hleads hposition hdepth =>
      rw [finalState, hdepth, outcome, List.countP_singleton, Answer.isTooDeep]
      simp only [beq_iff_eq]
      split <;> rfl

/-- What a series of requests does to a session. -/
theorem answers (h : Stands dialect source earlier session) (requests : List Request) :
    Stands dialect source (earlier ++ (session.answers requests).1)
      (session.answers requests).2 := by
  induction requests generalizing earlier session with
  | nil => simpa [Session.answers] using h
  | cons request requests ih => simpa [Session.answers] using ih (h.answer request)

theorem cursor_le_endIndex (h : Stands dialect source earlier session) :
    session.state.cursor ≤ (State.ofString source).endIndex := by
  rw [State.endIndex_eq (wellFormed_ofString source) rfl]
  have hlength := congrArg List.length h.leadsTo.tokens_eq
  simp only [State.tokens, State.ofString, List.length_append, List.length_reverse,
    List.length_nil, List.length_singleton] at hlength
  change session.state.before.length ≤ _
  simp only [State.ofString]
  omega

end Stands

/-- One more request after any others: the tokens and the dialect stay, the cursor does not move
back nor past the end token, the depth is the number of requests refused for their nesting, an error
is at the token the cursor is left on, and once a request has succeeded, the others fail at the end
token. -/
theorem answer_after_answers (dialect : Dialect) (source : String) (requests : List Request)
    (request : Request) :
    let start := State.ofString source
    let before := (Session.ofString dialect source).answers requests
    let after := before.2.answer request
    after.2.state.tokens = start.tokens ∧
    after.2.dialect = dialect ∧
    before.2.state.cursor ≤ after.2.state.cursor ∧ after.2.state.cursor ≤ start.endIndex ∧
    after.2.state.depth = (before.1 ++ [after.1]).countP Answer.isTooDeep ∧
    (∀ error, after.1 = .error error → error.IsAt start.tokens after.2.state.cursor) ∧
    ((∃ answer ∈ before.1, answer.isOk) → ∃ error, after.1 = .error error ∧
      error.fault.message = "Unexpected end of input" ∧
      error.IsAt start.tokens start.endIndex) := by
  intro start before after
  have hbefore : Stands dialect source before.1 before.2 := by
    simpa using (stands_ofString dialect source).answers requests
  have hafter : Stands dialect source (before.1 ++ [after.1]) after.2 := hbefore.answer request
  refine ⟨hafter.leadsTo.tokens_eq, hafter.dialect_eq, (before.2.leadsTo_answer request).cursor_le,
    hafter.cursor_le_endIndex, hafter.depth_eq, fun error herror ↦ ?_, fun hok ↦ ?_⟩
  · have hat := before.2.isAt_answer herror
    rwa [hbefore.leadsTo.tokens_eq] at hat
  · refine ⟨_, congrArg Prod.fst (hbefore.answer_eq hok request), rfl, ?_⟩
    rw [ParseError.IsAt, State.getElem?_tokens_endIndex (wellFormed_ofString source) rfl]
    rfl

end Session

end ArrowLang
