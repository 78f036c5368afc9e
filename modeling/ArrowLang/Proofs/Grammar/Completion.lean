import ArrowLang.Proofs.Grammar.Derivation
import ArrowLang.Proofs.Parsing.Dialects
import Mathlib.Data.Set.List

/-!
# Derivations that complete a text

A text that breaks off can be completed by a derivation of which it is the start.  What stands in
the derivation before the break keeps its place in the greedy reading, because only the kind of the
next terminal counts there, and what stands behind the break can be written as tokens again.
Whether the derivation belongs to the arithmetic dialect can be seen from its productions as well as
from its value.
-/

namespace ArrowLang.Grammar

variable {n : Nonterminal} {rest rest' : List Terminal}

theorem continues_append (terminals : List Terminal)
    (h : (nextKind rest').continues → (nextKind rest).continues) :
    (nextKind (terminals ++ rest')).continues → (nextKind (terminals ++ rest)).continues := by
  cases terminals with
  | nil => exact h
  | cons terminal terminals => exact id

namespace Derivation

/-- The greedy reading depends on what follows only in so far as it continues an expression. -/
theorem Greedy.congr {d : Derivation n} (hgreedy : d.Greedy rest)
    (h : (nextKind rest').continues → (nextKind rest).continues) : d.Greedy rest' := by
  induction d generalizing rest rest' with
  | numberType | booleanType | endAdd | endCall | noItems | boolean | number | var => trivial
  | param _ _ hinner | plain _ hinner | last _ hinner | items _ hinner => exact hinner hgreedy h
  | group _ hinner => exact hinner hgreedy id
  | final _ _ hterm => exact hterm hgreedy (continues_append _ h)
  | add _ _ hfirst hothers | plus _ _ hfirst hothers | call _ _ hfirst hothers =>
    exact ⟨hfirst hgreedy.1 (continues_append _ h), hothers hgreedy.2 h⟩
  | functionType _ _ hfirst hothers | apply _ _ hfirst hothers | more _ _ hfirst hothers
  | const _ _ _ hfirst hothers | statement _ _ hfirst hothers =>
    exact ⟨hfirst hgreedy.1 id, hothers hgreedy.2 h⟩
  | conditional _ _ _ hcond hthen helse =>
    exact ⟨hcond hgreedy.1 id, hthen hgreedy.2.1 id, helse hgreedy.2.2 h⟩
  | function _ _ hparams hbody =>
    refine ⟨hparams hgreedy.1 id, hbody hgreedy.2.1 h, Bool.eq_false_iff.mpr fun hnext ↦ ?_⟩
    exact Bool.eq_false_iff.mp hgreedy.2.2 (h hnext)

/-- Where an expression cannot go on, any greedy derivation may end. -/
theorem Greedy.before {d : Derivation n} (hgreedy : d.Greedy rest)
    (hstop : (nextKind rest').continues = false) : d.Greedy rest' :=
  hgreedy.congr fun hnext ↦ absurd hnext (Bool.eq_false_iff.mp hstop)

/-- The tail of a form comes after everything else in it. -/
theorem Greedy.before_tail {d : Derivation n} (hgreedy : d.Greedy rest)
    (h : (nextKind rest').continues → (nextKind rest).continues) : d.Greedy (rest' ++ []) := by
  rw [List.append_nil]
  exact hgreedy.congr h

/-- The expression `true`. -/
def literal : Derivation .expr := .ofPrimary (.boolean true)

theorem greedy_literal (rest : List Terminal) : literal.Greedy rest := by
  simp [literal]

/-- Only identifiers and numerals have a text. -/
theorem text_eq_empty (d : Derivation n) :
    ∀ terminal ∈ d.terminals, terminal.kind.isMark → terminal.text = "" := by
  induction d <;>
    simp_all [Terminal.mark, Terminal.ident, Terminal.number, TokenKind.isMark, or_imp]

/-- A sentence can be written with tokens. -/
theorem exists_tokens (d : Derivation n) {terminals : List Terminal}
    (hsuffix : terminals <:+ d.terminals) :
    ∃ tokens : List Token, tokens.map Token.terminal = terminals := by
  have hrange : terminals ∈ { l | ∀ terminal ∈ l, terminal ∈ Set.range Token.terminal } := by
    intro terminal hmem
    refine ⟨⟨terminal.kind, terminal.text, .start⟩, ?_⟩
    have htext := d.text_eq_empty terminal (hsuffix.subset hmem)
    by_cases hmark : terminal.kind.isMark
    · simp [Token.terminal, hmark, ← htext hmark]
    · simp [Token.terminal, hmark]
  rw [← Set.range_list_map] at hrange
  exact hrange

/-- The derivation is one of the arithmetic grammar: there is no variable, function, call, constant
or statement in it.  Types and lists stand only inside of these. -/
def IsArith {n : Nonterminal} : Derivation n → Prop
  | var _ | function _ _ | apply _ _ | const _ _ _ | statement _ _ => False
  | plain sum => sum.IsArith
  | conditional cond thenBranch elseBranch =>
    cond.IsArith ∧ thenBranch.IsArith ∧ elseBranch.IsArith
  | add first others => first.IsArith ∧ others.IsArith
  | plus operand others => operand.IsArith ∧ others.IsArith
  | call callee arguments => callee.IsArith ∧ arguments.IsArith
  | group inner => inner.IsArith
  | final term _ => term.IsArith
  | boolean _ | number _ | endAdd | endCall => True
  | numberType | booleanType | functionType _ _ | param _ _ => True
  | last _ | more _ _ | noItems | items _ => True

/-- The derivation is one of the grammar of the dialect. -/
def Within (dialect : Dialect) (d : Derivation n) : Prop := dialect = .arith → d.IsArith

theorem within_literal (dialect : Dialect) : literal.Within dialect :=
  fun _ ↦ ⟨⟨trivial, trivial⟩, trivial⟩

/-- The derivation is arithmetic if its value is; a tail is arithmetic, and so is the term to its
left, if what it makes of the term is. -/
def Reflects : {n : Nonterminal} → Derivation n → Prop
  | .expr, d | .add, d | .call, d | .primary, d => d.value.constructs = [] → d.IsArith
  | .addTail, d | .callTail, d =>
    ∀ left, (d.value left).constructs = [] → d.IsArith ∧ left.constructs = []
  | .program, d => Parsing.programConstructs d.value = [] → d.IsArith
  | .type, _ | .param, _ | .series _, _ | .list _, _ => True

theorem reflects (d : Derivation n) : d.Reflects := by
  induction d with
  | numberType | booleanType | functionType | param | last | more | noItems | items => trivial
  | plain _ hinner | group _ hinner | final _ _ hinner => exact hinner
  | boolean | number => exact fun _ ↦ trivial
  | var | function | const => exact nofun
  | conditional cond thenBranch elseBranch hcond hthen helse =>
    intro h
    rw [value, Term.constructs, List.append_eq_nil_iff, List.append_eq_nil_iff] at h
    exact ⟨hcond h.1, hthen h.2.1, helse h.2.2⟩
  | add first others hfirst hothers | call first others hfirst hothers =>
    intro h
    obtain ⟨htail, hleft⟩ := hothers first.value h
    exact ⟨hfirst hleft, htail⟩
  | endAdd | endCall => exact fun left hleft ↦ ⟨trivial, hleft⟩
  | plus operand others hoperand hothers =>
    intro left h
    obtain ⟨htail, hsum⟩ := hothers (.add left operand.value) h
    rw [Term.constructs, List.append_eq_nil_iff] at hsum
    exact ⟨⟨hoperand hsum.2, htail⟩, hsum.1⟩
  | apply args others hargs hothers =>
    intro left h
    obtain ⟨-, hcall⟩ := hothers (.call left args.value) h
    cases hcall
  | statement term prog hterm hprog =>
    intro h
    obtain ⟨others, hothers⟩ :=
      Parsing.programConstructs_statement term.value prog.value.1 prog.value.2
    rw [value, hothers] at h
    cases h

end Derivation

end ArrowLang.Grammar
