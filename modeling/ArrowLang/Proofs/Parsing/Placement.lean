import ArrowLang.Proofs.Parsing.Cursor

/-!
# Parsers do not look at positions

Moving the tokens of a state elsewhere moves what a parser leaves behind, and the error it reports,
along with them, and changes nothing else.  So two states that differ only in positions lead to the
same value, or to the same fault at tokens with the same index.
-/

namespace ArrowLang

/-- The token at another position. -/
def Token.move (f : Position → Position) (token : Token) : Token :=
  { token with position := f token.position }

namespace Parsing

variable {α β : Type} {f : Position → Position}

namespace State

/-- The state with all its tokens moved. -/
def move (f : Position → Position) (s : State) : State where
  before := s.before.map (Token.move f)
  ahead := s.ahead.map (Token.move f)
  finish := s.finish.move f
  depth := s.depth

@[simp]
theorem cursor_move (s : State) : (s.move f).cursor = s.cursor := List.length_map ..

theorem current_move (s : State) : (s.move f).current = s.current.move f := by
  unfold current move
  cases s.ahead <;> rfl

theorem advance_move (s : State) : (s.move f).advance = s.advance.move f := by
  unfold advance move
  cases hahead : s.ahead <;> simp [hahead]

theorem first_move (s : State) : (s.move f).first = s.first.move f := by
  unfold first
  rw [current_move]
  cases hlast : s.before.getLast? <;> simp [move, hlast]

theorem startsFunction_move (s : State) :
    startsFunction (s.move f).ahead = startsFunction s.ahead := by
  unfold move
  match s.ahead with
  | [] | [_] | [_, _] => rfl
  | _ :: _ :: _ :: _ => rfl

end State

/-- The result with its tokens and its error moved. -/
def moveResult (f : Position → Position) :
    EStateM.Result ParseError State α → EStateM.Result ParseError State α
  | .ok value t => .ok value (t.move f)
  | .error error t => .error ⟨error.fault, f error.position⟩ (t.move f)

/-- Moving the tokens moves the result along with them. -/
def Relocatable (parser : Parser α) : Prop :=
  ∀ f s, parser (s.move f) = moveResult f (parser s)

namespace Relocatable

theorem bind {first : Parser α} {next : α → Parser β} (hfirst : Relocatable first)
    (hnext : ∀ value, Relocatable (next value)) : Relocatable (first >>= next) := by
  intro f s
  change EStateM.bind first next (s.move f) = moveResult f (EStateM.bind first next s)
  unfold EStateM.bind
  rw [hfirst f s]
  cases first s with
  | ok value t => exact hnext value f t
  | error error t => rfl

/-- A look at the current token sees it at another position. -/
theorem look {next : Token → Parser α}
    (hplace : ∀ token position, next { token with position } = next token)
    (hnext : ∀ token, Relocatable (next token)) : Relocatable (current >>= next) := by
  intro f s
  calc
    (current >>= next) (s.move f) = next (s.move f).current (s.move f) := rfl
    _ = next s.current (s.move f) := by rw [State.current_move, Token.move, hplace]
    _ = moveResult f (next s.current s) := hnext s.current f s

theorem fail (fault : ParseFault) : Relocatable (fail fault : Parser α) := by
  intro f s
  rw [Parsing.fail, State.current_move]
  rfl

theorem nested {parser : Parser α} (h : Relocatable parser) : Relocatable (nested parser) := by
  intro f s
  have hrun : parser { s.move f with depth := (s.move f).depth + 1 } = _ :=
    h f { s with depth := s.depth + 1 }
  rw [Parsing.nested, hrun, Parsing.nested]
  cases parser { s with depth := s.depth + 1 } <;> rfl

theorem compositional : Compositional Relocatable where
  pure _ _ _ := rfl
  bind := bind
  look := look
  advance f s := by
    change EStateM.Result.ok () (s.move f).advance = _
    rw [State.advance_move]
    rfl
  isAt kind f s := by
    rw [isAt, State.current_move]
    rfl
  fail _ := fail _
  nested := nested
  tooDeep f s := by
    exact fail .nestingTooDeep f { s with depth := s.depth + 1 }
  choose h h' f s := by
    dsimp only
    rw [State.startsFunction_move]
    split
    · exact h f s
    · exact h' f s
  measure h f s := by
    have hlength : (s.move f).ahead.length = s.ahead.length := List.length_map ..
    dsimp only
    rw [hlength]
    exact h s.ahead.length s.depth f s

theorem program (dialect : Dialect) : Relocatable (program dialect) :=
  compositional.program dialect

theorem arithProgram : Relocatable arithProgram := by
  refine bind (program .arith) fun term ↦ ?_
  cases Arith.restrict term with
  | ok arith => exact compositional.pure arith
  | error construct =>
    intro f s
    dsimp only
    rw [State.first_move]
    rfl

/-- States that differ only in positions lead to the same value, or to the same fault with the
cursor at the same index. -/
theorem outcome_eq {parser : Parser α} (h : Relocatable parser) {s t : State}
    (hmove : s.move f = t.move f) :
    (∃ value, outcome (parser s) = .ok value ∧ outcome (parser t) = .ok value) ∨
    (∃ error error', outcome (parser s) = .error error ∧ outcome (parser t) = .error error' ∧
      error.fault = error'.fault ∧
      (finalState (parser s)).cursor = (finalState (parser t)).cursor) := by
  have hresult : moveResult f (parser s) = moveResult f (parser t) := by
    rw [← h f s, ← h f t, hmove]
  cases hs : parser s with
  | ok value u =>
    cases ht : parser t with
    | ok value' v =>
      rw [hs, ht] at hresult
      obtain ⟨rfl, -⟩ := EStateM.Result.ok.inj hresult
      exact .inl ⟨value, rfl, rfl⟩
    | error error v =>
      rw [hs, ht] at hresult
      cases hresult
  | error error u =>
    cases ht : parser t with
    | ok value v =>
      rw [hs, ht] at hresult
      cases hresult
    | error error' v =>
      rw [hs, ht] at hresult
      obtain ⟨herror, hstate⟩ := EStateM.Result.error.inj hresult
      have hcursor := congrArg State.cursor hstate
      rw [State.cursor_move, State.cursor_move] at hcursor
      exact .inr ⟨error, error', rfl, rfl, (ParseError.mk.inj herror).1, hcursor⟩

end Relocatable

end Parsing

end ArrowLang
