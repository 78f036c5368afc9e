import ArrowLang.Proofs.Grammar.Completion
import ArrowLang.Proofs.Grammar.Exactness

/-!
# The tokens of arithmetic

A text that is read as arithmetic has a derivation without variables, functions, calls, constants
and statements.  So its tokens are numerals, truth values, plus signs, the marks of conditionals and
parentheses, but for a semicolon that may stand at the end.  Every opening parenthesis stands where
an operand starts, and an expression and its closing parenthesis follow.
-/

namespace ArrowLang

namespace TokenKind

/-- A token of the kind may stand in an arithmetic expression. -/
def isArith : TokenKind → Bool
  | number | boolean _ | plus | question | colon | leftParen | rightParen => true
  | _ => false

/-- No operand ends with a token of the kind, and one starts after it. -/
def precedesOperand : TokenKind → Bool
  | plus | question | colon | leftParen => true
  | _ => false

end TokenKind

namespace Grammar

open Terminal (mark)

variable {n : Nonterminal} {previous left right : List Terminal}

/-- An operand starts after the terminals. -/
def OperandNext (previous : List Terminal) : Prop :=
  ∀ terminal ∈ previous.getLast?, terminal.kind.precedesOperand

theorem operandNext_append_singleton {terminal : Terminal} :
    OperandNext (previous ++ [terminal]) ↔ terminal.kind.precedesOperand := by
  simp [OperandNext]

/-- Between the terminals, a parenthesis opens around an arithmetic expression. -/
structure GroupBetween (previous after : List Terminal) : Prop where
  operandNext : OperandNext previous
  closes : ∃ (inner : Derivation .expr) (rest : List Terminal), inner.IsArith ∧
    after = inner.terminals ++ mark .rightParen :: rest

theorem GroupBetween.append {after : List Terminal} (h : GroupBetween previous after)
    (rest : List Terminal) : GroupBetween previous (after ++ rest) := by
  obtain ⟨inner, rest', hinner, rfl⟩ := h.closes
  exact ⟨h.operandNext, inner, rest' ++ rest, hinner, by simp⟩

/-- Every opening parenthesis among the terminals, which follow others, has an expression after
it. -/
def GroupsAfter (previous terminals : List Terminal) : Prop :=
  ∀ before after, terminals = before ++ mark .leftParen :: after →
    GroupBetween (previous ++ before) after

namespace GroupsAfter

theorem of_not_mem {terminals : List Terminal} (h : mark .leftParen ∉ terminals) :
    GroupsAfter previous terminals := by
  intro before after hsplit
  rw [hsplit] at h
  exact absurd (by simp) h

theorem append (hleft : GroupsAfter previous left) (hright : GroupsAfter (previous ++ left) right) :
    GroupsAfter previous (left ++ right) := by
  intro before after hsplit
  obtain ⟨middle, rfl, hmiddle⟩ | ⟨middle, rfl, hmiddle⟩ := List.append_eq_append_iff.mp hsplit
  · rw [← List.append_assoc]
    exact hright middle after hmiddle
  · obtain ⟨rfl, hafter⟩ | ⟨inside, rfl, rfl⟩ := List.cons_eq_append_iff.mp hmiddle
    · simpa using hright [] after hafter
    · exact (hleft before inside rfl).append right

end GroupsAfter

/-- The terminals that follow others are a stretch of arithmetic. -/
structure ArithAfter (previous terminals : List Terminal) : Prop where
  isArith : ∀ terminal ∈ terminals, terminal.kind.isArith
  groups : GroupsAfter previous terminals

namespace ArithAfter

theorem nil : ArithAfter previous [] := ⟨nofun, .of_not_mem nofun⟩

theorem singleton {terminal : Terminal} (harith : terminal.kind.isArith)
    (hkind : terminal.kind ≠ .leftParen) : ArithAfter previous [terminal] := by
  refine ⟨by simpa using harith, .of_not_mem fun hmem ↦ hkind ?_⟩
  rw [← List.mem_singleton.mp hmem, Terminal.mark_kind]

theorem append (hleft : ArithAfter previous left) (hright : ArithAfter (previous ++ left) right) :
    ArithAfter previous (left ++ right) where
  isArith := List.forall_mem_append.mpr ⟨hleft.isArith, hright.isArith⟩
  groups := hleft.groups.append hright.groups

/-- A mark other than an opening parenthesis, and what follows it. -/
theorem mark_cons (kind : TokenKind) (harith : kind.isArith) (hkind : kind ≠ .leftParen)
    (hright : ArithAfter (previous ++ [mark kind]) right) :
    ArithAfter previous (mark kind :: right) :=
  append (singleton harith hkind) hright

theorem group {inner : Derivation .expr} (hnext : OperandNext previous) (hinner : inner.IsArith)
    (hafter : ArithAfter (previous ++ [mark .leftParen]) inner.terminals) :
    ArithAfter previous (mark .leftParen :: (inner.terminals ++ [mark .rightParen])) := by
  have hclosed : ArithAfter (previous ++ [mark .leftParen])
      (inner.terminals ++ [mark .rightParen]) := hafter.append (singleton rfl nofun)
  refine ⟨List.forall_mem_cons.mpr ⟨rfl, hclosed.isArith⟩, fun before after hsplit ↦ ?_⟩
  obtain ⟨rfl, hafter⟩ | ⟨inside, rfl, hinside⟩ := List.cons_eq_append_iff.mp hsplit
  · obtain ⟨-, rfl⟩ := List.cons.inj hafter
    exact ⟨by simpa using hnext, inner, [], hinner, rfl⟩
  · simpa using hclosed.groups inside after hinside

end ArithAfter

namespace Derivation

/-- The sentence of an arithmetic derivation is arithmetic where an operand starts.  The tails start
with a mark of their own, if they are not empty, and fit anywhere. -/
def Arithmetic : {n : Nonterminal} → Derivation n → Prop
  | .expr, d | .add, d | .call, d | .primary, d =>
    d.IsArith → ∀ previous, OperandNext previous → ArithAfter previous d.terminals
  | .addTail, d | .callTail, d => d.IsArith → ∀ previous, ArithAfter previous d.terminals
  | .program, _ | .type, _ | .param, _ | .series _, _ | .list _, _ => True

theorem arithmetic (d : Derivation n) : d.Arithmetic := by
  induction d with
  | numberType | booleanType | functionType | param | last | more | noItems | items => trivial
  | const | statement | final => trivial
  | var | function | apply => exact nofun
  | boolean | number => exact fun _ _ _ ↦ .singleton rfl nofun
  | endAdd | endCall => exact fun _ _ ↦ .nil
  | plain sum hsum => exact hsum
  | add first others hfirst hothers | call first others hfirst hothers =>
    intro harith previous hnext
    exact (hfirst harith.1 previous hnext).append (hothers harith.2 _)
  | plus operand others hoperand hothers =>
    intro harith previous
    apply ArithAfter.mark_cons .plus rfl nofun
    apply ArithAfter.append
    · exact hoperand harith.1 _ (operandNext_append_singleton.mpr rfl)
    · exact hothers harith.2 _
  | group inner hinner =>
    intro harith previous hnext
    exact .group hnext harith (hinner harith _ (operandNext_append_singleton.mpr rfl))
  | conditional cond thenBranch elseBranch hcond hthen helse =>
    intro harith previous hnext
    apply (hcond harith.1 previous hnext).append
    apply ArithAfter.mark_cons .question rfl nofun
    apply (hthen harith.2.1 _ (operandNext_append_singleton.mpr rfl)).append
    apply ArithAfter.mark_cons .colon rfl nofun
    exact helse harith.2.2 _ (operandNext_append_singleton.mpr rfl)

/-- An arithmetic program is an arithmetic expression, with a semicolon after it or not. -/
theorem exists_final : {d : Derivation .program} → d.IsArith →
    ∃ term semicolon, d = final term semicolon ∧ ArithAfter [] term.terminals
  | final term semicolon, harith => ⟨term, semicolon, rfl, term.arithmetic harith [] nofun⟩

theorem groupsAfter_of_isArith {d : Derivation .program} (harith : d.IsArith) :
    GroupsAfter [] d.terminals := by
  obtain ⟨term, semicolon, rfl, hterm⟩ := exists_final harith
  apply hterm.groups.append
  apply GroupsAfter.of_not_mem
  cases semicolon <;> simp [mark]

end Derivation

/-- A sentence of arithmetic, written with tokens. -/
theorem Derivation.exists_body {d : Derivation .program} (harith : d.IsArith) {tokens : List Token}
    (htokens : d.terminals = tokens.map Token.terminal) :
    ∃ body ending, tokens = body ++ ending ∧ (∀ token ∈ body, token.kind.isArith) ∧
      (ending = [] ∨ ∃ semicolon, ending = [semicolon] ∧ semicolon.kind = .semicolon) := by
  obtain ⟨term, semicolon, rfl, hterm⟩ := exists_final harith
  obtain ⟨body, ending, rfl, hbody, hending⟩ := List.map_eq_append_iff.mp htokens.symm
  refine ⟨body, ending, rfl, fun token htoken ↦ ?_, ?_⟩
  · apply hterm.isArith token.terminal
    rw [← hbody]
    exact List.mem_map_of_mem htoken
  · cases semicolon with
    | false => exact .inl (List.map_eq_nil_iff.mp hending)
    | true =>
      obtain ⟨token, rfl, htoken⟩ := List.map_eq_singleton_iff.mp hending
      exact .inr ⟨token, rfl, congrArg Terminal.kind htoken⟩

/-- A group, written with tokens. -/
theorem GroupBetween.exists_tokens {before after : List Token}
    (h : GroupBetween (before.map Token.terminal) (after.map Token.terminal)) :
    (∀ token ∈ before.getLast?, token.kind.precedesOperand) ∧
    ∃ inner closing rest, after = inner ++ closing :: rest ∧ closing.kind = .rightParen ∧
      ∃ d : Derivation .expr, d.IsArith ∧ d.terminals = inner.map Token.terminal := by
  constructor
  · intro token htoken
    apply h.operandNext token.terminal
    rw [List.getLast?_map]
    exact Option.mem_map_of_mem _ htoken
  · obtain ⟨d, rest', hd, hafter⟩ := h.closes
    obtain ⟨inner, others, rfl, hinner, hothers⟩ := List.map_eq_append_iff.mp hafter
    obtain ⟨closing, rest, rfl, hclosing, -⟩ := List.map_eq_cons_iff.mp hothers
    exact ⟨inner, closing, rest, rfl, congrArg Terminal.kind hclosing, d, hd, hinner.symm⟩

end Grammar

open Grammar Parsing

/-- Both ways to read arithmetic run the same parser. -/
theorem exists_program_of_accepted {dialect : Dialect} {source : String}
    (h : (Session.ofString .arith source).parse.1.isOk ∨
      (Session.ofString dialect source).parseArith.1.isOk) :
    ∃ term t, program .arith (.ofString source) = .ok term t := by
  rw [Session.parse, Session.parseArith, Session.run_eq, Session.run_eq] at h
  change (outcome (program .arith (.ofString source))).isOk ∨
    (outcome (arithProgram (.ofString source))).isOk at h
  obtain ⟨arith, t, hrun, -⟩ | ⟨error, t, hrun, harith⟩ := arithProgram_cases (.ofString source)
  · exact ⟨arith.embed, t, hrun⟩
  · rw [hrun, harith] at h
    exact absurd h (by simp [outcome, Except.isOk, Except.toBool])

/-- A text that is read in the arithmetic dialect has an arithmetic derivation. -/
theorem exists_isArith_of_program {source : String} {term : Term} {t : State}
    (h : program .arith (.ofString source) = .ok term t) :
    ∃ d : Derivation .program, d.Derives (State.ofString source).terminals ∧ d.IsArith := by
  obtain ⟨d, hd, -, hterm⟩ := derives_program (wellFormed_ofString source) h
  have hplain := restricts_program.yields h
  rw [← hterm] at hplain
  exact ⟨d, hd, d.reflects hplain⟩

/-- The tokens of a text that is read as arithmetic, in a session of the arithmetic dialect or by
asking any session for arithmetic.  The text has one derivation, in which there are only arithmetic
productions.  Its tokens are of arithmetic kinds, but for a semicolon that may stand at the end.
Every opening parenthesis stands where an operand starts, so that it cannot open an argument list,
and an expression and a closing parenthesis follow it. -/
theorem tokens_of_accepted_arithmetic {dialect : Dialect} {source : String}
    (haccepted : (Session.ofString .arith source).parse.1.isOk ∨
      (Session.ofString dialect source).parseArith.1.isOk) :
    let tokens := (Token.Cursor.ofString source).tokens
    (∃ d : Derivation .program, d.Derives (tokens.map Token.terminal) ∧ d.IsArith ∧
      ∀ d' : Derivation .program, d'.Derives (tokens.map Token.terminal) → d' = d) ∧
    (∃ body ending, tokens = body ++ ending ∧ (∀ token ∈ body, token.kind.isArith) ∧
      (ending = [] ∨ ∃ semicolon, ending = [semicolon] ∧ semicolon.kind = .semicolon)) ∧
    ∀ before opening after, tokens = before ++ opening :: after → opening.kind = .leftParen →
      (∀ token ∈ before.getLast?, token.kind.precedesOperand) ∧
      ∃ inner closing rest, after = inner ++ closing :: rest ∧ closing.kind = .rightParen ∧
        ∃ d : Derivation .expr, d.IsArith ∧ d.terminals = inner.map Token.terminal := by
  intro tokens
  obtain ⟨term, t, hrun⟩ := exists_program_of_accepted haccepted
  obtain ⟨d, hd, harith⟩ := exists_isArith_of_program hrun
  change d.Derives (tokens.map Token.terminal) at hd
  refine ⟨⟨d, hd, harith, fun d' hd' ↦ hd'.unique hd⟩, ?_, ?_⟩
  · exact Derivation.exists_body harith hd.terminals_eq
  · intro before opening after hsplit hopening
    apply GroupBetween.exists_tokens
    apply Derivation.groupsAfter_of_isArith harith
    have hmark : opening.terminal = .mark .leftParen := by
      rw [Token.terminal_eq_mark (by rw [hopening]; rfl), hopening]
    rw [hd.terminals_eq, hsplit, List.map_append, List.map_cons, hmark]

theorem tokens_of_accepted_arithmetic_sample :
    (Session.ofString .arith "1 + ((2) ? true : (3));").parse.1.isOk ∧
    let tokens := (Token.Cursor.ofString "1 + ((2) ? true : (3));").tokens
    (∃ d : Derivation .program, d.Derives (tokens.map Token.terminal) ∧ d.IsArith ∧
      ∀ d' : Derivation .program, d'.Derives (tokens.map Token.terminal) → d' = d) ∧
    (∃ body ending, tokens = body ++ ending ∧ (∀ token ∈ body, token.kind.isArith) ∧
      (ending = [] ∨ ∃ semicolon, ending = [semicolon] ∧ semicolon.kind = .semicolon)) ∧
    ∀ before opening after, tokens = before ++ opening :: after → opening.kind = .leftParen →
      (∀ token ∈ before.getLast?, token.kind.precedesOperand) ∧
      ∃ inner closing rest, after = inner ++ closing :: rest ∧ closing.kind = .rightParen ∧
        ∃ d : Derivation .expr, d.IsArith ∧ d.terminals = inner.map Token.terminal := by
  have haccepted : (Session.ofString .arith "1 + ((2) ? true : (3));").parse.1.isOk := by
    decide +kernel
  exact ⟨haccepted, tokens_of_accepted_arithmetic (.inl haccepted : _ ∨
    (Session.ofString .basic "1 + ((2) ? true : (3));").parseArith.1.isOk)⟩

/-- The semicolon at the end is no token of an arithmetic expression. -/
theorem semicolon_accepted_in_arithmetic :
    (Session.ofString .arith "1;").parse.1.isOk ∧ (Session.ofString .arith "1;").parseArith.1.isOk ∧
    ¬∀ token ∈ (Token.Cursor.ofString "1;").tokens, token.kind.isArith := by
  decide +kernel

end ArrowLang
