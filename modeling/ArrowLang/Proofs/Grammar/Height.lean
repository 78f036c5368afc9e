import ArrowLang.Proofs.Grammar.Concatenation
import ArrowLang.Proofs.Parsing.Sessions
import ArrowLang.Proofs.Verdict.PrintedTypes

/-!
# The height of parsed terms

The nesting limit counts expressions and types inside each other.  Additions, argument lists and the
items of a program are repetitions, which the limit does not count, but each round of them makes the
term higher: an addition has the earlier operands to its left, a call has the earlier argument lists
in its callee, and an item has the later ones in its rest.  So the limit bounds the height of a term
except for these chains, and a chain can be as long as the text.
-/

namespace ArrowLang

namespace Term

mutual

/-- The height of a term and the types in it, where the links of chains count as much as `link`
says.  A link is the step from an addition to its left operand, from a call to its callee, and from
a sequence or a constant to its rest. -/
def heightWith (link : Nat) : Term → Nat
  | boolean _ | number _ | var _ => 1
  | conditional cond thenBranch elseBranch =>
    max (heightWith link cond)
      (max (heightWith link thenBranch) (heightWith link elseBranch)) + 1
  | add left right => max (heightWith link left + link) (heightWith link right + 1)
  | function params body => max (Ty.paramsDepth params) (heightWith link body) + 1
  | call callee args => max (heightWith link callee + link) (heightWithAll link args + 1)
  | sequence statements rest =>
    max (heightWithAll link statements + 1) (heightWith link rest + link)
  | const _ init rest => max (heightWith link init + 1) (heightWith link rest + link)

def heightWithAll (link : Nat) : List Term → Nat
  | [] => 0
  | term :: terms => max (heightWith link term) (heightWithAll link terms)

end

/-- The number of nodes on a longest path from the root. -/
def height (term : Term) : Nat := term.heightWith 1

/-- The height where the links of chains do not count. -/
def nesting (term : Term) : Nat := term.heightWith 0

end Term

namespace Arith.Term

/-- The height of an arithmetic term, where the step from an addition to its left operand counts as
much as `link` says. -/
def heightWith (link : Nat) : Term → Nat
  | boolean _ | number _ => 1
  | conditional cond thenBranch elseBranch =>
    max (heightWith link cond)
      (max (heightWith link thenBranch) (heightWith link elseBranch)) + 1
  | add left right => max (heightWith link left + link) (heightWith link right + 1)

def height (term : Term) : Nat := term.heightWith 1

def nesting (term : Term) : Nat := term.heightWith 0

theorem heightWith_embed (link : Nat) (term : Term) :
    term.embed.heightWith link = term.heightWith link := by
  induction term with
  | boolean value => rfl
  | number value => rfl
  | conditional cond thenBranch elseBranch hcond hthen helse =>
    rw [embed, ArrowLang.Term.heightWith, heightWith, hcond, hthen, helse]
  | add left right hleft hright => rw [embed, ArrowLang.Term.heightWith, heightWith, hleft, hright]

end Arith.Term

/-- A statement before a program goes one level down, and moves the rest by at most one link. -/
theorem Item.heightWith_statement (link : Nat) (term : Term) (items : List Item) (result : Term) :
    (assemble (.statement term :: items) result).heightWith link ≤
      max (term.heightWith link + 1) ((assemble items result).heightWith link + link) := by
  obtain ⟨statements, rest, hitems, hstatement⟩ := assemble_statement items result
  rw [hitems, hstatement]
  cases statements with
  | nil =>
    simp only [sequence, List.isEmpty_cons, List.isEmpty_nil, Term.heightWith, Term.heightWithAll,
      if_true, Bool.false_eq_true, if_false]
    omega
  | cons statement statements =>
    simp only [sequence, List.isEmpty_cons, Term.heightWith, Term.heightWithAll,
      Bool.false_eq_true, if_false]
    omega

/-- A round of a repetition has a token of the kind: a plus, the parenthesis of an argument list, or
the semicolon after an item. -/
def TokenKind.isRound : TokenKind → Bool
  | plus | leftParen | semicolon => true
  | _ => false

namespace Grammar

/-- How many rounds of repetitions the terminals can have. -/
def rounds (terminals : List Terminal) : Nat :=
  terminals.countP fun terminal ↦ terminal.kind.isRound

@[simp]
theorem rounds_cons (terminal : Terminal) (terminals : List Terminal) :
    rounds (terminal :: terminals) = rounds terminals + terminal.kind.isRound.toNat := by
  rw [rounds, List.countP_cons]
  cases terminal.kind.isRound <;> rfl

@[simp]
theorem rounds_append (left right : List Terminal) :
    rounds (left ++ right) = rounds left + rounds right :=
  List.countP_append

namespace Derivation

variable {n : Nonterminal}

/-- The height of what the derivation denotes is at most three for each level, and one for each
round of a repetition as far as links count.  A tail adds to the term to its left. -/
def Bounded (link : Nat) : {n : Nonterminal} → Derivation n → Prop
  | .expr, d => d.value.heightWith link ≤ 3 * d.depth + link * rounds d.terminals
  | .add, d => d.value.heightWith link ≤ 3 * d.depth + 2 + link * rounds d.terminals
  | .call, d | .primary, d => d.value.heightWith link ≤ 3 * d.depth + 1 + link * rounds d.terminals
  | .addTail, d => ∀ left, (d.value left).heightWith link ≤
      max (left.heightWith link) (3 * d.depth + 2) + link * rounds d.terminals
  | .callTail, d => ∀ left, (d.value left).heightWith link ≤
      max (left.heightWith link) (3 * d.depth + 1) + link * rounds d.terminals
  | .program, d => d.term.heightWith link ≤ 3 * d.depth + 1 + link * rounds d.terminals
  | .series .argument, d | .list .argument, d =>
    Term.heightWithAll link d.value ≤ 3 * d.depth + link * rounds d.terminals
  | .type, _ | .param, _ | .series .param, _ | .list .param, _ => True

theorem bounded (link : Nat) (d : Derivation n) : d.Bounded link := by
  induction d with
  | numberType | booleanType | functionType | param => trivial
  | boolean | number | var =>
    simp only [Bounded, value, Term.heightWith]
    omega
  | endAdd | endCall =>
    intro left
    simp only [value]
    omega
  | plain sum hsum =>
    simp only [Bounded, value, depth, terminals] at hsum ⊢
    omega
  | conditional cond thenBranch elseBranch hcond hthen helse =>
    simp only [Bounded, value, depth, terminals, Term.heightWith, rounds_append, rounds_cons,
      Nat.mul_add] at hcond hthen helse ⊢
    omega
  | add first others hfirst hothers | call first others hfirst hothers =>
    have htail := hothers first.value
    simp only [Bounded, value, depth, terminals, rounds_append, Nat.mul_add] at hfirst ⊢
    omega
  | plus operand others hoperand hothers =>
    -- The tail goes on from a term that is one link higher, which the plus makes up for.
    intro left
    have htail := hothers (.add left operand.value)
    simp only [Bounded, value, depth, terminals, Term.heightWith, rounds_append, rounds_cons,
      Terminal.mark_kind, TokenKind.isRound, Bool.toNat_true, Nat.mul_add, Nat.mul_one]
      at hoperand htail ⊢
    omega
  | apply args others hargs hothers =>
    intro left
    have htail := hothers (.call left args.value)
    simp only [Bounded, value, depth, terminals, Term.heightWith, rounds_append, rounds_cons,
      Terminal.mark_kind, TokenKind.isRound, Bool.toNat_true, Nat.mul_add, Nat.mul_one]
      at hargs htail ⊢
    omega
  | function params body hparams hbody =>
    -- Types have no chains, so that the levels of the parameters alone bound them.
    have hdepth := params.depth_params
    simp only [Bounded, value, depth, terminals, Term.heightWith, rounds_append, rounds_cons,
      Nat.mul_add] at hbody ⊢
    omega
  | group inner hinner =>
    simp only [Bounded, value, depth, terminals, rounds_append, rounds_cons, Nat.mul_add]
      at hinner ⊢
    omega
  | const name init rest hinit hrest =>
    simp only [Bounded, term, value, depth, terminals, Item.assemble_const, Term.heightWith,
      rounds_append, rounds_cons, Terminal.mark_kind, TokenKind.isRound, Bool.toNat_true,
      Nat.mul_add, Nat.mul_one] at hinit hrest ⊢
    omega
  | statement head rest hhead hrest =>
    have hitem := Item.heightWith_statement link head.value rest.value.1 rest.value.2
    simp only [Bounded, term, value, depth, terminals, rounds_append, rounds_cons,
      Terminal.mark_kind, TokenKind.isRound, Bool.toNat_true, Nat.mul_add, Nat.mul_one]
      at hhead hrest ⊢
    omega
  | final last semicolon hlast =>
    simp only [Bounded, term, value, depth, terminals, Item.assemble_nil, rounds_append,
      Nat.mul_add] at hlast ⊢
    omega
  | @last listed item hitem =>
    cases listed with
    | param => trivial
    | argument =>
      simp only [Bounded, value, depth, terminals, Term.heightWithAll] at hitem ⊢
      omega
  | @more listed item others hitem hothers =>
    cases listed with
    | param => trivial
    | argument =>
      simp only [Bounded, value, depth, terminals, Term.heightWithAll, rounds_append, rounds_cons,
        Nat.mul_add] at hitem hothers ⊢
      omega
  | @noItems listed =>
    cases listed with
    | param => trivial
    | argument => exact Nat.zero_le _
  | @items listed series hseries =>
    cases listed with
    | param => trivial
    | argument => exact hseries

end Derivation

end Grammar

open Grammar Parsing
open Token (sentence)

/-- Whatever is read, the nesting limit bounds its height except for chains. -/
theorem Parsing.heightWith_program_le {dialect : Dialect} {s t : State} {term : Term}
    (hs : s.WellFormed) (h : program dialect s = .ok term t) (link : Nat) :
    term.heightWith link ≤ 3 * nestingLimit + 1 + link * rounds s.terminals := by
  obtain ⟨d, hd, hdepth, rfl⟩ := derives_program hs h
  have hbounded : d.term.heightWith link ≤ 3 * d.depth + 1 + link * rounds d.terminals :=
    d.bounded link
  rw [hd.terminals_eq] at hbounded
  omega

/-- An arithmetic term is read as its embedding is. -/
theorem Parsing.program_of_arithProgram {s t : State} {term : Arith.Term}
    (h : arithProgram s = .ok term t) : program .arith s = .ok term.embed t := by
  obtain ⟨arith, u, hrun, harith⟩ | ⟨error, u, -, harith⟩ := arithProgram_cases s
  · rw [h] at harith
    cases harith
    exact hrun
  · rw [h] at harith
    cases harith

namespace Session

variable {dialect : Dialect} {source : String} {session : Session}

theorem exists_of_run_eq_ok {α : Type} {parser : Parser α} {value : α}
    (h : (session.run parser).1 = .ok value) : ∃ t, parser session.state = .ok value t := by
  rw [run_eq] at h
  cases hrun : parser session.state with
  | ok value' t =>
    rw [hrun] at h
    cases h
    exact ⟨t, rfl⟩
  | error error t =>
    rw [hrun] at h
    cases h

/-- What a session can still read has no more rounds than the text. -/
theorem Stands.rounds_le {earlier : List Answer} (h : Stands dialect source earlier session) :
    rounds session.state.terminals ≤
      (Token.Cursor.ofString source).tokens.countP fun token ↦ token.kind.isRound := by
  unfold State.terminals
  rw [h.leadsTo.ahead_eq, rounds, List.countP_map]
  exact (List.drop_sublist _ _).countP_le

/-- The nesting limit bounds the height of every term that is read from a text, however long the
text is and whatever the session was asked for before, except for the links of chains.  These add at
most one for each plus, opening parenthesis and semicolon of the text. -/
theorem nesting_of_parsed_le (dialect : Dialect) (source : String) (requests : List Request) :
    let session := ((Session.ofString dialect source).answers requests).2
    let bound := 3 * nestingLimit + 1
    let rounds := (Token.Cursor.ofString source).tokens.countP fun token ↦ token.kind.isRound
    (∀ term, session.parse.1 = .ok term →
      term.nesting ≤ bound ∧ term.height ≤ bound + rounds) ∧
    (∀ term, session.parseArith.1 = .ok term →
      term.nesting ≤ bound ∧ term.height ≤ bound + rounds) := by
  intro session bound rounds
  have hstands : Stands dialect source _ session :=
    (stands_ofString dialect source).answers requests
  have hrounds := hstands.rounds_le
  -- Without links only the limit is left of the bound, and with links the rounds come on top.
  have hbound {dialect : Dialect} {term : Term} {t : State}
      (hrun : program dialect session.state = .ok term t) :
      term.nesting ≤ bound ∧ term.height ≤ bound + rounds := by
    have hnesting := heightWith_program_le hstands.wellFormed hrun 0
    have hheight := heightWith_program_le hstands.wellFormed hrun 1
    constructor
    · simpa [Term.nesting] using hnesting
    · rw [Term.height]
      omega
  constructor
  · intro term hterm
    obtain ⟨t, hrun⟩ := exists_of_run_eq_ok hterm
    exact hbound hrun
  · intro term hterm
    obtain ⟨t, hrun⟩ := exists_of_run_eq_ok hterm
    have hembed := hbound (program_of_arithProgram hrun)
    rwa [Term.nesting, Term.height, Arith.Term.heightWith_embed, Arith.Term.heightWith_embed]
      at hembed

end Session

/-! ## Long chains -/

/-- A line so many times, and a last one. -/
def repeatLine (line last : String) : Nat → String
  | 0 => last
  | count + 1 => line ++ "\n" ++ repeatLine line last count

theorem sentence_append_line (line next : String) :
    sentence (line ++ "\n" ++ next).toList = sentence line.toList ++ sentence next.toList := by
  have htext : (line ++ "\n" ++ next).toList = line.toList ++ '\n' :: next.toList := by simp
  rw [htext, Token.sentence_line]

/-- A derivation that is repeated in the same way has the sentence. -/
theorem sentence_repeatLine {n : Nonterminal} {line last : String} {round : List Terminal}
    {chain : Nat → Derivation n} (hline : sentence line.toList = round)
    (hlast : sentence last.toList = (chain 0).terminals)
    (hround : ∀ count, (chain (count + 1)).terminals = round ++ (chain count).terminals)
    (count : Nat) : sentence (repeatLine line last count).toList = (chain count).terminals := by
  induction count with
  | zero => exact hlast
  | succ count ih => rw [repeatLine, sentence_append_line, hline, ih, hround]

namespace Grammar.Derivation

variable {n : Nonterminal}

/-- So many ones added to what is to the left. -/
def sumTail : Nat → Derivation .addTail
  | 0 => .endAdd
  | count + 1 => .plus (.call (.number "1") .endCall) (sumTail count)

/-- So many calls without arguments. -/
def callsTail : Nat → Derivation .callTail
  | 0 => .endCall
  | count + 1 => .apply .noItems (callsTail count)

def sum (count : Nat) : Derivation .program :=
  .final (.plain (.add (.call (.number "1") .endCall) (sumTail count))) false

def calls (count : Nat) : Derivation .program :=
  .final (.plain (.add (.call (.var "f") (callsTail count)) .endAdd)) false

/-- So many constants before a result. -/
def constants : Nat → Derivation .program
  | 0 => .final (.ofPrimary (.number "1")) false
  | count + 1 => .const "x" (.ofPrimary (.number "1")) (constants count)

/-- The derivation makes terms higher by so many links. -/
def Heightens (count : Nat) : {n : Nonterminal} → Derivation n → Prop
  | .addTail, d | .callTail, d => ∀ left, left.height + count ≤ (d.value left).height
  | .program, d => count < d.term.height
  | _, _ => True

/-- The derivation has so many rounds, all of one kind, and few levels. -/
structure Chain (levels : Nat) (kind : TokenKind) (count : Nat) (d : Derivation n) : Prop where
  depth_le : d.depth ≤ levels
  greedy : d.Greedy []
  kind_eq : ∀ terminal ∈ d.terminals, terminal.kind.isRound → terminal.kind = kind
  heightens : d.Heightens count

theorem chain_sumTail (count : Nat) : Chain 0 .plus count (sumTail count) := by
  induction count with
  | zero => exact ⟨by decide, trivial, nofun, fun _ ↦ Nat.le_refl _⟩
  | succ count ih =>
    refine ⟨by simpa [sumTail] using ih.depth_le, by simpa [sumTail] using ih.greedy, ?_, ?_⟩
    · simpa [sumTail, TokenKind.isRound] using ih.kind_eq
    · intro left
      have hlink : left.height + 1 ≤ (Term.add left (.number (numeralValue "1"))).height :=
        Nat.le_max_left _ _
      have hothers := ih.heightens (.add left (.number (numeralValue "1")))
      simp only [sumTail, value]
      omega

theorem chain_callsTail (count : Nat) : Chain 0 .leftParen count (callsTail count) := by
  induction count with
  | zero => exact ⟨by decide, trivial, nofun, fun _ ↦ Nat.le_refl _⟩
  | succ count ih =>
    refine ⟨by simpa [callsTail] using ih.depth_le, by simpa [callsTail] using ih.greedy, ?_, ?_⟩
    · simpa [callsTail, TokenKind.isRound] using ih.kind_eq
    · intro callee
      have hlink : callee.height + 1 ≤ (Term.call callee []).height := Nat.le_max_left _ _
      have hothers := ih.heightens (.call callee [])
      simp only [callsTail, value]
      omega

theorem chain_constants (count : Nat) : Chain 1 .semicolon count (constants count) := by
  induction count with
  | zero => exact ⟨by decide, by simp [constants], by decide, Nat.zero_lt_one⟩
  | succ count ih =>
    refine ⟨by simpa [constants] using ih.depth_le, by simpa [constants] using ih.greedy, ?_, ?_⟩
    · simpa [constants, TokenKind.isRound] using ih.kind_eq
    · have hlink : (constants count).term.height + 1 ≤ (constants (count + 1)).term.height :=
        Nat.le_max_right _ _
      exact Nat.lt_of_lt_of_le (Nat.succ_lt_succ ih.heightens) hlink

theorem chain_sum (count : Nat) : Chain 1 .plus count (sum count) := by
  have htail := chain_sumTail count
  refine ⟨by simpa [sum] using htail.depth_le, by simpa [sum] using htail.greedy, ?_, ?_⟩
  · simpa [sum, TokenKind.isRound] using htail.kind_eq
  · have hheight := htail.heightens (.number (numeralValue "1"))
    exact Nat.lt_of_lt_of_le (Nat.lt_add_of_pos_left Nat.zero_lt_one) hheight

theorem chain_calls (count : Nat) : Chain 1 .leftParen count (calls count) := by
  have htail := chain_callsTail count
  refine ⟨by simpa [calls] using htail.depth_le, by simpa [calls] using htail.greedy, ?_, ?_⟩
  · simpa [calls, TokenKind.isRound] using htail.kind_eq
  · have hheight := htail.heightens (.var "f")
    exact Nat.lt_of_lt_of_le (Nat.lt_add_of_pos_left Nat.zero_lt_one) hheight

/-- A sum of ones is arithmetic. -/
theorem constructs_sum (count : Nat) : (sum count).term.constructs = [] := by
  have htail (left : Term) : ((sumTail count).value left).constructs = left.constructs := by
    induction count generalizing left with
    | zero => rfl
    | succ count ih =>
      rw [sumTail, value, ih]
      simp [Term.constructs]
  exact htail _

end Grammar.Derivation

open Grammar.Derivation

/-- Ones with plus signs between them. -/
def sumText (count : Nat) : String := "1" ++ "\n" ++ repeatLine "+ 1" "" count

/-- A name with argument lists after it. -/
def callsText (count : Nat) : String := "f" ++ "\n" ++ repeatLine "()" "" count

/-- Constants before a result. -/
def constantsText (count : Nat) : String := repeatLine "const x = 1;" "1" count

theorem sentence_sumText (count : Nat) :
    sentence (sumText count).toList = (sum count).terminals := by
  have hfirst : sentence "1".toList = [.number "1"] := by decide +kernel
  have hline : sentence "+ 1".toList = [.mark .plus, .number "1"] := by decide +kernel
  have htail : sentence (repeatLine "+ 1" "" count).toList = (sumTail count).terminals :=
    sentence_repeatLine hline (by decide +kernel) (fun _ ↦ rfl) count
  rw [sumText, sentence_append_line, hfirst, htail]
  simp [sum]

theorem sentence_callsText (count : Nat) :
    sentence (callsText count).toList = (calls count).terminals := by
  have hfirst : sentence "f".toList = [.ident "f"] := by decide +kernel
  have hline : sentence "()".toList = [.mark .leftParen, .mark .rightParen] := by decide +kernel
  have htail : sentence (repeatLine "()" "" count).toList = (callsTail count).terminals :=
    sentence_repeatLine hline (by decide +kernel) (fun _ ↦ rfl) count
  rw [callsText, sentence_append_line, hfirst, htail]
  simp [calls]

theorem sentence_constantsText (count : Nat) :
    sentence (constantsText count).toList = (constants count).terminals := by
  have hline : sentence "const x = 1;".toList =
      [.mark .const, .ident "x", .mark .equals, .number "1", .mark .semicolon] := by
    decide +kernel
  exact sentence_repeatLine hline (by decide +kernel) (fun _ ↦ rfl) count

theorem parse_of_chain {source : String} {d : Derivation .program} {kind : TokenKind} {count : Nat}
    (hsource : sentence source.toList = d.terminals) (h : d.Chain 1 kind count) :
    parse source = .ok d.term := by
  have hdepth : d.depth ≤ nestingLimit := Nat.le_trans h.depth_le (by decide)
  exact parse_eq_ok_iff.mpr ⟨d, ⟨hsource.symm, h.greedy⟩, hdepth, rfl⟩

/-- For each kind of round, the texts with rounds of that kind only have terms of any height. -/
theorem exists_higher {kind : TokenKind} (hkind : kind.isRound) (bound : Nat) :
    ∃ source term, parse source = .ok term ∧ bound < term.height ∧
      ∀ terminal ∈ sentence source.toList, terminal.kind.isRound → terminal.kind = kind := by
  obtain ⟨source, d, hsource, hchain⟩ : ∃ (source : String) (d : Derivation .program),
      sentence source.toList = d.terminals ∧ d.Chain 1 kind bound := by
    cases kind with
    | plus => exact ⟨_, _, sentence_sumText bound, chain_sum bound⟩
    | leftParen => exact ⟨_, _, sentence_callsText bound, chain_calls bound⟩
    | semicolon => exact ⟨_, _, sentence_constantsText bound, chain_constants bound⟩
    | _ => cases hkind
  refine ⟨source, d.term, parse_of_chain hsource hchain, hchain.heightens, ?_⟩
  rw [hsource]
  exact hchain.kind_eq

/-- The arithmetic programs of the extended dialect are those of both dialects. -/
theorem parsed_of_embed {source : String} {term : Arith.Term} (h : parse source = .ok term.embed)
    (dialect : Dialect) :
    (Session.ofString dialect source).parse.1 = .ok term.embed ∧
      (Session.ofString dialect source).parseArith.1 = .ok term := by
  have hread (dialect : Dialect) : (Session.ofString dialect source).parseArith.1 = .ok term := by
    rw [parse, Session.parse, Session.run_eq] at h
    rw [Session.parseArith, Session.run_eq]
    exact ((restricted_arithProgram _).outcome_eq_ok_iff term).mpr h
  refine ⟨?_, hread dialect⟩
  cases dialect with
  | basic => exact h
  | arith =>
    obtain ⟨t, hrun⟩ := Session.exists_of_run_eq_ok (hread .arith)
    rw [Session.parse, Session.run_eq]
    exact congrArg outcome (program_of_arithProgram hrun)

/-- There is no bound on the height of terms read from texts, in either dialect and either way of
reading.  Any one kind of round is enough for that. -/
theorem height_unbounded :
    (∀ dialect : Dialect,
      (¬∃ bound, ∀ source term,
        (Session.ofString dialect source).parse.1 = .ok term → term.height ≤ bound) ∧
      (¬∃ bound, ∀ source term,
        (Session.ofString dialect source).parseArith.1 = .ok term → term.height ≤ bound)) ∧
    ∀ kind : TokenKind, kind.isRound → ¬∃ bound, ∀ source term,
      (∀ token ∈ (Token.Cursor.ofString source).tokens, token.kind.isRound → token.kind = kind) →
      parse source = .ok term → term.height ≤ bound := by
  have hsum (bound : Nat) : ∃ term : Arith.Term, parse (sumText bound) = .ok term.embed ∧
      bound < term.embed.height := by
    obtain ⟨term, hterm⟩ := Arith.exists_embed (constructs_sum bound)
    refine ⟨term, ?_⟩
    rw [hterm]
    exact ⟨parse_of_chain (sentence_sumText bound) (chain_sum bound), (chain_sum bound).heightens⟩
  refine ⟨fun dialect ↦ ⟨?_, ?_⟩, ?_⟩
  · rintro ⟨bound, hbound⟩
    obtain ⟨term, hparse, hheight⟩ := hsum bound
    exact Nat.not_le_of_lt hheight (hbound _ _ (parsed_of_embed hparse dialect).1)
  · rintro ⟨bound, hbound⟩
    obtain ⟨term, hparse, hheight⟩ := hsum bound
    rw [Term.height, Arith.Term.heightWith_embed] at hheight
    exact Nat.not_le_of_lt hheight (hbound _ _ (parsed_of_embed hparse dialect).2)
  · rintro kind hkind ⟨bound, hbound⟩
    obtain ⟨source, term, hparse, hheight, hkinds⟩ := exists_higher hkind bound
    refine Nat.not_le_of_lt hheight (hbound source term (fun token htoken ↦ ?_) hparse)
    exact hkinds token.terminal (List.mem_map_of_mem htoken)

end ArrowLang
