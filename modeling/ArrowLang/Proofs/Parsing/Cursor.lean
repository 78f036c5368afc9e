import ArrowLang.Proofs.Parsing.Closure

/-!
# How a parser moves

A run of a parser keeps the tokens and never moves the cursor back.  A run that fails does so at the
current token of the state it leaves behind.  The nesting depth comes back to what it was, except
that a level that was one too many stays open.  Each basic step has these properties and every way
of putting parsers together keeps them.
-/

namespace ArrowLang

namespace Parsing

namespace State

variable {s t u : State}

/-- The index of the current token among all tokens. -/
def cursor (s : State) : Nat := s.before.length

/-- The current token stands behind those already read. -/
theorem getElem?_tokens_cursor (s : State) : s.tokens[s.cursor]? = some s.current := by
  unfold tokens cursor current
  cases s.ahead <;> simp

/-- The same tokens, with the cursor at the same place or further on. -/
structure LeadsTo (s t : State) : Prop where
  tokens_eq : t.tokens = s.tokens
  cursor_le : s.cursor ≤ t.cursor

namespace LeadsTo

theorem refl (s : State) : s.LeadsTo s := ⟨rfl, Nat.le_refl _⟩

theorem trans (h : s.LeadsTo t) (h' : t.LeadsTo u) : s.LeadsTo u :=
  ⟨h'.tokens_eq.trans h.tokens_eq, Nat.le_trans h.cursor_le h'.cursor_le⟩

/-- Tokens move from what is ahead to what has been read. -/
theorem append_eq (h : s.LeadsTo t) :
    t.before.reverse ++ t.ahead = s.before.reverse ++ s.ahead := by
  have htokens := h.tokens_eq
  unfold tokens at htokens
  exact (List.append_inj' htokens rfl).1

/-- Cursors do not depend on the depth. -/
theorem atDepth (h : s.LeadsTo t) (depth depth' : Nat) :
    ({ s with depth } : State).LeadsTo { t with depth := depth' } :=
  ⟨h.tokens_eq, h.cursor_le⟩

theorem advance (s : State) : s.LeadsTo s.advance := by
  unfold State.advance
  cases hahead : s.ahead with
  | nil => exact refl s
  | cons token ahead => exact ⟨by simp [tokens, hahead], by simp [cursor]⟩

end LeadsTo

@[simp]
theorem depth_advance (s : State) : s.advance.depth = s.depth := by
  unfold advance
  split <;> rfl

end State

open State

variable {α β : Type} {s t : State}

theorem current_bind (next : Token → Parser β) : (current >>= next) s = next s.current s := rfl

theorem advance_bind (next : Unit → Parser β) : (advance >>= next) s = next () s.advance := rfl

theorem isAt_bind (kind : TokenKind) (next : Bool → Parser β) :
    (isAt kind >>= next) s = next (s.current.kind == kind) s := rfl

theorem bind_of_error {first : Parser α} {next : α → Parser β} {error : ParseError}
    (h : first s = .error error t) : (first >>= next) s = .error error t := by
  change EStateM.bind first next s = _
  rw [EStateM.bind, h]

/-- What a run from the state can come to. -/
inductive Follows (s : State) : EStateM.Result ParseError State α → Prop
  | ok {value : α} {t : State} : s.LeadsTo t → t.depth = s.depth → Follows s (.ok value t)
  | error {error : ParseError} {t : State} : s.LeadsTo t → error.position = t.current.position →
      (t.depth = if error.fault = .nestingTooDeep then s.depth + 1 else s.depth) →
      Follows s (.error error t)

theorem Follows.of_leadsTo {result : EStateM.Result ParseError State α} (h : s.LeadsTo t)
    (hdepth : t.depth = s.depth) (hfollows : Follows t result) : Follows s result := by
  cases hfollows with
  | ok hleads hsame => exact .ok (h.trans hleads) (hsame.trans hdepth)
  | error hleads hposition hafter =>
    rw [hdepth] at hafter
    exact .error (h.trans hleads) hposition hafter

/-- Every run of the parser keeps the tokens, moves forward and fails where it stands. -/
def Steady (parser : Parser α) : Prop := ∀ s, Follows s (parser s)

namespace Steady

theorem pure (value : α) : Steady (pure value) := fun s ↦ .ok (.refl s) rfl

theorem bind {first : Parser α} {next : α → Parser β} (hfirst : Steady first)
    (hnext : ∀ value, Steady (next value)) : Steady (first >>= next) := by
  intro s
  change Follows s (EStateM.bind first next s)
  unfold EStateM.bind
  have hrun := hfirst s
  generalize first s = result at hrun
  cases hrun with
  | ok hleads hdepth => exact .of_leadsTo hleads hdepth (hnext _ _)
  | error hleads hposition hdepth => exact .error hleads hposition hdepth

theorem ite {condition : Prop} [Decidable condition] {parser parser' : Parser α}
    (h : Steady parser) (h' : Steady parser') :
    Steady (if condition then parser else parser') := by
  split
  · exact h
  · exact h'

theorem advance : Steady advance := fun s ↦ .ok (.advance s) (depth_advance s)

theorem isAt (kind : TokenKind) : Steady (isAt kind) := fun s ↦ .ok (.refl s) rfl

theorem fail {fault : ParseFault} (hfault : fault ≠ .nestingTooDeep) :
    Steady (fail fault : Parser α) :=
  fun s ↦ .error (.refl s) rfl (by simp [hfault])

theorem nested {parser : Parser α} (h : Steady parser) : Steady (nested parser) := by
  intro s
  unfold Parsing.nested
  have hrun := h { s with depth := s.depth + 1 }
  generalize parser { s with depth := s.depth + 1 } = result at hrun
  cases hrun with
  | ok hleads hdepth => exact .ok (hleads.atDepth s.depth _) (by simp [hdepth])
  | error hleads hposition hdepth =>
    refine .error (hleads.atDepth s.depth _) hposition ?_
    rw [hdepth]
    split <;> rfl

theorem tooDeep : Steady (tooDeep : Parser α) :=
  fun s ↦ .error ((LeadsTo.refl s).atDepth s.depth _) rfl rfl

theorem choose {parser parser' : Parser α} (h : Steady parser) (h' : Steady parser') :
    Steady fun s ↦ if startsFunction s.ahead then parser s else parser' s := by
  intro s
  dsimp only
  split
  · exact h s
  · exact h' s

theorem compositional : Compositional Steady where
  pure := pure
  bind := bind
  look _ hnext := bind (fun s ↦ .ok (.refl s) rfl) hnext
  advance := advance
  isAt := isAt
  fail := fail
  nested := nested
  tooDeep := tooDeep
  choose := choose
  measure h s := h s.ahead.length s.depth s

theorem unexpected : Steady (unexpected : Parser α) := compositional.unexpected

theorem consume (kind : TokenKind) (what : Expectation) : Steady (consume kind what) :=
  compositional.consume kind what

theorem requireExtended (dialect : Dialect) (construct : Construct) :
    Steady (requireExtended dialect construct) :=
  compositional.requireExtended dialect construct

theorem repeatAt {kind : TokenKind} {step : α → Parser α} (hstep : ∀ value, Steady (step value))
    (rounds : Nat) (value : α) : Steady (repeatAt kind step rounds value) :=
  compositional.repeatAt hstep rounds value

theorem whileAt {kind : TokenKind} {step : α → Parser α} (hstep : ∀ value, Steady (step value))
    (value : α) : Steady (whileAt kind step value) :=
  compositional.whileAt hstep value

theorem itemsToClose {item : Parser α} (hitem : Steady item) (what : Expectation) :
    Steady (itemsToClose item what) :=
  compositional.itemsToClose hitem what

theorem params {ty : Parser Ty} (hty : Steady ty) : Steady (params ty) := compositional.params hty

theorem type (levels : Nat) : Steady (Parsing.type levels) := compositional.type levels

section Expressions

variable {dialect : Dialect} {ty : Parser Ty} {expr summand : Parser Term}

theorem arguments (hexpr : Steady expr) (callee : Term) :
    Steady (arguments dialect expr callee) :=
  compositional.arguments hexpr callee

theorem operand (hty : Steady ty) (hexpr : Steady expr) : Steady (operand dialect ty expr) :=
  compositional.operand hty hexpr

theorem plus (hsummand : Steady summand) (left : Term) : Steady (plus summand left) :=
  compositional.plus hsummand left

theorem expression (dialect : Dialect) (levels : Nat) :
    Steady (Parsing.expression dialect levels) :=
  compositional.expression dialect levels

theorem constItem (hexpr : Steady expr) : Steady (constItem expr) := compositional.constItem hexpr

theorem itemsAndResult (hexpr : Steady expr) (rounds : Nat) :
    Steady (itemsAndResult dialect expr rounds) :=
  compositional.itemsAndResult hexpr rounds

end Expressions

theorem program (dialect : Dialect) : Steady (Parsing.program dialect) :=
  compositional.program dialect

end Steady

/-- The value or the error that a run ends with. -/
def outcome : EStateM.Result ParseError State α → Except ParseError α
  | .ok value _ => .ok value
  | .error error _ => .error error

/-- The state that a run leaves behind. -/
def finalState : EStateM.Result ParseError State α → State
  | .ok _ t => t
  | .error _ t => t

theorem Follows.leadsTo {result : EStateM.Result ParseError State α} (h : Follows s result) :
    s.LeadsTo (finalState result) := by
  cases h with
  | ok hleads => exact hleads
  | error hleads => exact hleads

end Parsing

theorem Session.run_eq {α : Type} (session : Session) (parser : Parsing.Parser α) :
    session.run parser = (Parsing.outcome (parser session.state),
      { session with state := Parsing.finalState (parser session.state) }) := by
  unfold run
  cases parser session.state <;> rfl

end ArrowLang
