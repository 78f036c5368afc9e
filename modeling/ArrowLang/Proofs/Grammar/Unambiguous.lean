import ArrowLang.Proofs.Grammar.Derivation

/-!
# One derivation for each sentence

Read greedily, the grammar is unambiguous.  Two derivations of one nonterminal that spell the
beginnings of the same text are equal, provided that what follows each of them cannot be taken as a
part of it.  The second and third terminal after an opening parenthesis tell a function from a
parenthesised expression.
-/

namespace ArrowLang.Grammar

open Terminal (mark ident)

/-- The terminals start like a function: an opening parenthesis, and then either a closing one and
an arrow, or a name and a colon. -/
def opensFunction : List Terminal → Bool
  | _ :: second :: third :: _ =>
    second.kind == .rightParen && third.kind == .arrow ||
      second.kind == .ident && third.kind == .colon
  | _ => false

/-- The kinds of token with which a sentence of the nonterminal may start; nothing is said where the
sentence may be empty. -/
def Nonterminal.starts : Nonterminal → TokenKind → Bool
  | type, kind => kind == .ident || kind == .leftParen
  | param, kind | series .param, kind => kind == .ident
  | expr, kind | add, kind | call, kind | primary, kind | series .argument, kind => kind.startsExpr
  | program, kind => kind == .const || kind.startsExpr
  | addTail, _ | callTail, _ | list _, _ => true

namespace Derivation

variable {n : Nonterminal}

/-- Every sentence starts as its nonterminal says, whatever follows it. -/
theorem starts_nextKind (d : Derivation n) (rest : List Terminal) :
    n.starts (nextKind (d.terminals ++ rest)) := by
  induction d generalizing rest with
  | numberType | booleanType | functionType | param | boolean | number | var | function | group
  | const => rfl
  | endAdd | plus | endCall | apply | noItems | items => rfl
  | plain sum ih => exact ih rest
  | conditional cond thenBranch elseBranch ih =>
    rw [terminals, List.append_assoc]
    exact ih _
  | add first others ih =>
    rw [terminals, List.append_assoc]
    exact ih _
  | call callee arguments ih =>
    rw [terminals, List.append_assoc]
    exact ih _
  | statement term prog ih =>
    rw [terminals, List.append_assoc]
    have h := ih (mark .semicolon :: prog.terminals ++ rest)
    simp only [Nonterminal.starts] at h ⊢
    rw [h, Bool.or_true]
  | final term semicolon ih =>
    rw [terminals, List.append_assoc]
    have h := ih ((if semicolon then [mark .semicolon] else []) ++ rest)
    simp only [Nonterminal.starts] at h ⊢
    rw [h, Bool.or_true]
  | @last listed item ih => cases listed <;> exact ih rest
  | @more listed item others ih =>
    rw [terminals, List.append_assoc]
    cases listed <;> exact ih _

/-- A name at the start of an expression is not followed by a colon, unless the expression is. -/
def ColonFree (terminals rest : List Terminal) : Prop :=
  nextKind rest ≠ .colon → nextKind (terminals ++ rest) = .ident →
    nextKind (terminals ++ rest).tail ≠ .colon

theorem colonFree_primary (d : Derivation .primary) (rest : List Terminal) :
    ColonFree d.terminals rest := by
  intro hrest hident
  cases d with
  | var name => exact hrest
  | boolean | number | function | group => cases hident

theorem nextKind_callTail_ne_colon (d : Derivation .callTail) {rest : List Terminal}
    (hrest : nextKind rest ≠ .colon) : nextKind (d.terminals ++ rest) ≠ .colon := by
  cases d with
  | endCall => exact hrest
  | apply => simp [terminals]

theorem nextKind_addTail_ne_colon (d : Derivation .addTail) {rest : List Terminal}
    (hrest : nextKind rest ≠ .colon) : nextKind (d.terminals ++ rest) ≠ .colon := by
  cases d with
  | endAdd => exact hrest
  | plus => simp [terminals]

theorem colonFree_call (d : Derivation .call) (rest : List Terminal) :
    ColonFree d.terminals rest := by
  intro hrest
  cases d with
  | call callee arguments =>
    rw [terminals, List.append_assoc]
    exact colonFree_primary callee _ (nextKind_callTail_ne_colon arguments hrest)

theorem colonFree_add (d : Derivation .add) (rest : List Terminal) :
    ColonFree d.terminals rest := by
  intro hrest
  cases d with
  | add first others =>
    rw [terminals, List.append_assoc]
    exact colonFree_call first _ (nextKind_addTail_ne_colon others hrest)

theorem colonFree_expr (d : Derivation .expr) (rest : List Terminal) :
    ColonFree d.terminals rest := by
  intro hrest
  cases d with
  | plain sum => exact colonFree_add sum rest hrest
  | conditional cond thenBranch elseBranch =>
    rw [terminals, List.append_assoc]
    exact colonFree_add cond _ (by simp)

theorem opensFunction_function (params : Derivation (.list .param)) (body : Derivation .expr)
    (rest : List Terminal) : opensFunction ((function params body).terminals ++ rest) = true := by
  cases params with
  | noItems => rfl
  | items series =>
    cases series with
    | last item =>
      cases item with
      | param name type => rfl
    | more item others =>
      cases item with
      | param name type => rfl

theorem opensFunction_group (inner : Derivation .expr) (rest : List Terminal) :
    opensFunction ((group inner).terminals ++ rest) = false := by
  have hstarts := inner.starts_nextKind (mark .rightParen :: rest)
  have hcolon := inner.colonFree_expr (mark .rightParen :: rest) (by simp)
  simp only [terminals, List.cons_append, List.append_assoc, List.nil_append]
  revert hstarts hcolon
  match inner.terminals ++ mark .rightParen :: rest with
  | [] => simp [opensFunction]
  | [second] => simp [opensFunction]
  | second :: third :: _ =>
    intro hstarts hcolon
    simp only [nextKind_cons, List.tail_cons] at hstarts hcolon
    simp only [opensFunction, Bool.or_eq_false_iff, Bool.and_eq_false_iff, beq_eq_false_iff_ne]
    refine ⟨.inl ?_, ?_⟩
    · intro hparen
      rw [hparen] at hstarts
      cases hstarts
    · by_cases hident : second.kind = .ident
      · exact .inr (hcolon hident)
      · exact .inl hident

end Derivation

/-! ## What may follow -/

/-- The sentence is complete before a token of the kind, which cannot belong to it. -/
def Nonterminal.endsBefore : Nonterminal → TokenKind → Bool
  | type, _ | param, _ | primary, _ => true
  | expr, kind => !kind.continues
  | add, kind | addTail, kind => kind != .leftParen && kind != .plus
  | call, kind | callTail, kind => kind != .leftParen
  | program, kind => kind == .endOfInput
  | series _, kind | list _, kind => kind == .rightParen

namespace Nonterminal

theorem endsBefore_add_of_expr {kind : TokenKind} (h : expr.endsBefore kind) :
    add.endsBefore kind := by
  cases kind <;> first | rfl | cases h

theorem endsBefore_expr_of_add {kind : TokenKind} (h : add.endsBefore kind)
    (hquestion : kind ≠ .question) : expr.endsBefore kind := by
  cases kind <;> first | rfl | exact absurd rfl hquestion | cases h

theorem endsBefore_call_of_addTail {kind : TokenKind} (h : addTail.endsBefore kind) :
    call.endsBefore kind := by
  cases kind <;> first | rfl | cases h

theorem endsBefore_rightParen (listed : Listed) :
    (Nonterminal.item listed).endsBefore .rightParen := by
  cases listed <;> rfl

theorem endsBefore_comma (listed : Listed) : (Nonterminal.item listed).endsBefore .comma := by
  cases listed <;> rfl

end Nonterminal

namespace Derivation

theorem endsBefore_addTail (others : Derivation .addTail) {rest : List Terminal}
    (hends : Nonterminal.addTail.endsBefore (nextKind rest)) :
    Nonterminal.call.endsBefore (nextKind (others.terminals ++ rest)) := by
  cases others with
  | endAdd => exact Nonterminal.endsBefore_call_of_addTail hends
  | plus => rfl

theorem nextKind_series_ne_rightParen {listed : Listed} (series : Derivation (.series listed))
    (rest : List Terminal) : nextKind (series.terminals ++ rest) ≠ .rightParen := by
  intro hparen
  have hstarts := series.starts_nextKind rest
  rw [hparen] at hstarts
  cases listed <;> cases hstarts

/-- What may follow the last expression of a program cannot belong to it. -/
theorem endsBefore_final {semicolon : Bool} {rest : List Terminal}
    (hends : Nonterminal.program.endsBefore (nextKind rest)) :
    Nonterminal.expr.endsBefore
      (nextKind ((if semicolon then [mark .semicolon] else []) ++ rest)) := by
  have hend : nextKind rest = .endOfInput := by simpa [Nonterminal.endsBefore] using hends
  cases semicolon with
  | true => rfl
  | false =>
    simp only [Bool.false_eq_true, if_false, List.nil_append, hend]
    rfl

/-- An expression does not start with the keyword of a constant. -/
theorem nextKind_expr_ne_const (term : Derivation .expr) (rest : List Terminal) :
    nextKind (term.terminals ++ rest) ≠ .const := by
  intro hconst
  have hstarts := term.starts_nextKind rest
  rw [hconst] at hstarts
  cases hstarts

/-- A program does not start where the input ends. -/
theorem nextKind_program_ne_endOfInput (prog : Derivation .program) (rest : List Terminal) :
    nextKind (prog.terminals ++ rest) ≠ .endOfInput := by
  intro hend
  have hstarts := prog.starts_nextKind rest
  rw [hend] at hstarts
  cases hstarts

/-! ## Unambiguity -/

/-- No other derivation spells a beginning of the same text, if neither can be continued by what
follows it. -/
def Determined (d : Derivation n) : Prop :=
  ∀ (d' : Derivation n) (rest rest' : List Terminal),
    d.terminals ++ rest = d'.terminals ++ rest' → d.Greedy rest → d'.Greedy rest' →
    n.endsBefore (nextKind rest) → n.endsBefore (nextKind rest') → d = d' ∧ rest = rest'

namespace Determined

theorem numberType : Determined .numberType := by
  intro d' rest rest' hsame hgreedy hgreedy' hends hends'
  cases d' with
  | numberType => simpa [terminals] using hsame
  | booleanType => simp [terminals, ident] at hsame
  | functionType => simp [terminals, ident, mark] at hsame

theorem booleanType : Determined .booleanType := by
  intro d' rest rest' hsame hgreedy hgreedy' hends hends'
  cases d' with
  | numberType => simp [terminals, ident] at hsame
  | booleanType => simpa [terminals] using hsame
  | functionType => simp [terminals, ident, mark] at hsame

theorem functionType {params : Derivation (.list .param)} {result : Derivation .type}
    (hparams : Determined params) (hresult : Determined result) :
    Determined (.functionType params result) := by
  intro d' rest rest' hsame hgreedy hgreedy' hends hends'
  cases d' with
  | numberType | booleanType => simp [terminals, mark, ident] at hsame
  | functionType params' result' =>
    simp only [terminals, List.cons_append, List.append_assoc, List.cons.injEq, true_and] at hsame
    obtain ⟨rfl, htail⟩ := hparams params' _ _ hsame hgreedy.1 hgreedy'.1 rfl rfl
    simp only [List.cons.injEq, true_and] at htail
    obtain ⟨rfl, rfl⟩ := hresult result' _ _ htail hgreedy.2 hgreedy'.2 rfl rfl
    exact ⟨rfl, rfl⟩

theorem param {name : String} {type : Derivation .type} (htype : Determined type) :
    Determined (.param name type) := by
  intro d' rest rest' hsame hgreedy hgreedy' hends hends'
  cases d' with
  | param name' type' =>
    simp only [terminals, List.cons_append, List.cons.injEq, true_and] at hsame
    obtain ⟨hname, htail⟩ := hsame
    cases hname
    obtain ⟨rfl, rfl⟩ := htype type' _ _ htail hgreedy hgreedy' rfl rfl
    exact ⟨rfl, rfl⟩

theorem plain {sum : Derivation .add} (hsum : Determined sum) : Determined (.plain sum) := by
  intro d' rest rest' hsame hgreedy hgreedy' hends hends'
  have hadd := Nonterminal.endsBefore_add_of_expr hends
  cases d' with
  | plain sum' =>
    obtain ⟨rfl, rfl⟩ := hsum sum' _ _ hsame hgreedy hgreedy' hadd
      (Nonterminal.endsBefore_add_of_expr hends')
    exact ⟨rfl, rfl⟩
  | conditional cond thenBranch elseBranch =>
    simp only [terminals, List.cons_append, List.append_assoc] at hsame
    obtain ⟨-, rfl⟩ := hsum cond _ _ hsame hgreedy hgreedy'.1 hadd rfl
    cases hends

theorem conditional {cond : Derivation .add} {thenBranch elseBranch : Derivation .expr}
    (hcond : Determined cond) (hthen : Determined thenBranch) (helse : Determined elseBranch) :
    Determined (.conditional cond thenBranch elseBranch) := by
  intro d' rest rest' hsame hgreedy hgreedy' hends hends'
  simp only [terminals, List.cons_append, List.append_assoc] at hsame
  cases d' with
  | plain sum =>
    obtain ⟨-, rfl⟩ := hcond sum _ _ hsame hgreedy.1 hgreedy' rfl
      (Nonterminal.endsBefore_add_of_expr hends')
    cases hends'
  | conditional cond' thenBranch' elseBranch' =>
    simp only [terminals, List.cons_append, List.append_assoc] at hsame
    obtain ⟨rfl, htail⟩ := hcond cond' _ _ hsame hgreedy.1 hgreedy'.1 rfl rfl
    simp only [List.cons.injEq, true_and] at htail
    obtain ⟨rfl, hcolon⟩ := hthen thenBranch' _ _ htail hgreedy.2.1 hgreedy'.2.1 rfl rfl
    simp only [List.cons.injEq, true_and] at hcolon
    obtain ⟨rfl, rfl⟩ := helse elseBranch' _ _ hcolon hgreedy.2.2 hgreedy'.2.2 hends hends'
    exact ⟨rfl, rfl⟩

theorem add {first : Derivation .call} {others : Derivation .addTail} (hfirst : Determined first)
    (hothers : Determined others) : Determined (.add first others) := by
  intro d' rest rest' hsame hgreedy hgreedy' hends hends'
  cases d' with
  | add first' others' =>
    simp only [terminals, List.append_assoc] at hsame
    obtain ⟨rfl, htail⟩ := hfirst first' _ _ hsame hgreedy.1 hgreedy'.1
      (endsBefore_addTail others hends) (endsBefore_addTail others' hends')
    obtain ⟨rfl, rfl⟩ := hothers others' _ _ htail hgreedy.2 hgreedy'.2 hends hends'
    exact ⟨rfl, rfl⟩

theorem endAdd : Determined .endAdd := by
  intro d' rest rest' hsame hgreedy hgreedy' hends hends'
  cases d' with
  | endAdd => exact ⟨rfl, hsame⟩
  | plus operand others =>
    obtain rfl : rest = _ := hsame
    cases hends

theorem plus {operand : Derivation .call} {others : Derivation .addTail}
    (hoperand : Determined operand) (hothers : Determined others) :
    Determined (.plus operand others) := by
  intro d' rest rest' hsame hgreedy hgreedy' hends hends'
  cases d' with
  | endAdd =>
    obtain rfl : _ = rest' := hsame
    cases hends'
  | plus operand' others' =>
    simp only [terminals, List.cons_append, List.append_assoc, List.cons.injEq, true_and] at hsame
    obtain ⟨rfl, htail⟩ := hoperand operand' _ _ hsame hgreedy.1 hgreedy'.1
      (endsBefore_addTail others hends) (endsBefore_addTail others' hends')
    obtain ⟨rfl, rfl⟩ := hothers others' _ _ htail hgreedy.2 hgreedy'.2 hends hends'
    exact ⟨rfl, rfl⟩

theorem call {callee : Derivation .primary} {arguments : Derivation .callTail}
    (hcallee : Determined callee) (harguments : Determined arguments) :
    Determined (.call callee arguments) := by
  intro d' rest rest' hsame hgreedy hgreedy' hends hends'
  cases d' with
  | call callee' arguments' =>
    simp only [terminals, List.append_assoc] at hsame
    obtain ⟨rfl, htail⟩ := hcallee callee' _ _ hsame hgreedy.1 hgreedy'.1 rfl rfl
    obtain ⟨rfl, rfl⟩ := harguments arguments' _ _ htail hgreedy.2 hgreedy'.2 hends hends'
    exact ⟨rfl, rfl⟩

theorem endCall : Determined .endCall := by
  intro d' rest rest' hsame hgreedy hgreedy' hends hends'
  cases d' with
  | endCall => exact ⟨rfl, hsame⟩
  | apply args others =>
    obtain rfl : rest = _ := hsame
    cases hends

theorem apply {args : Derivation (.list .argument)} {others : Derivation .callTail}
    (hargs : Determined args) (hothers : Determined others) : Determined (.apply args others) := by
  intro d' rest rest' hsame hgreedy hgreedy' hends hends'
  cases d' with
  | endCall =>
    obtain rfl : _ = rest' := hsame
    cases hends'
  | apply args' others' =>
    simp only [terminals, List.cons_append, List.append_assoc, List.cons.injEq, true_and] at hsame
    obtain ⟨rfl, htail⟩ := hargs args' _ _ hsame hgreedy.1 hgreedy'.1 rfl rfl
    simp only [List.cons.injEq, true_and] at htail
    obtain ⟨rfl, rfl⟩ := hothers others' _ _ htail hgreedy.2 hgreedy'.2 hends hends'
    exact ⟨rfl, rfl⟩

theorem boolean (value : Bool) : Determined (.boolean value) := by
  intro d' rest rest' hsame hgreedy hgreedy' hends hends'
  cases d' with
  | boolean value' => simpa [terminals, mark] using hsame
  | number | var | function | group => simp [terminals, mark, ident, Terminal.number] at hsame

theorem number (lexeme : String) : Determined (.number lexeme) := by
  intro d' rest rest' hsame hgreedy hgreedy' hends hends'
  cases d' with
  | number lexeme' => simpa [terminals, Terminal.number] using hsame
  | boolean | var | function | group => simp [terminals, mark, ident, Terminal.number] at hsame

theorem var (name : String) : Determined (.var name) := by
  intro d' rest rest' hsame hgreedy hgreedy' hends hends'
  cases d' with
  | var name' => simpa [terminals, ident] using hsame
  | boolean | number | function | group => simp [terminals, mark, ident, Terminal.number] at hsame

theorem function {params : Derivation (.list .param)} {body : Derivation .expr}
    (hparams : Determined params) (hbody : Determined body) :
    Determined (.function params body) := by
  intro d' rest rest' hsame hgreedy hgreedy' hends hends'
  cases d' with
  | boolean | number | var => simp [terminals, mark, ident, Terminal.number] at hsame
  | group inner =>
    have hopens := opensFunction_function params body rest
    rw [hsame, opensFunction_group] at hopens
    cases hopens
  | function params' body' =>
    simp only [terminals, List.cons_append, List.append_assoc, List.cons.injEq, true_and] at hsame
    obtain ⟨rfl, htail⟩ := hparams params' _ _ hsame hgreedy.1 hgreedy'.1 rfl rfl
    simp only [List.cons.injEq, true_and] at htail
    -- The greedy reading is what keeps either body from going on.
    obtain ⟨rfl, rfl⟩ := hbody body' _ _ htail hgreedy.2.1 hgreedy'.2.1
      (by simp [Nonterminal.endsBefore, hgreedy.2.2])
      (by simp [Nonterminal.endsBefore, hgreedy'.2.2])
    exact ⟨rfl, rfl⟩

theorem group {inner : Derivation .expr} (hinner : Determined inner) :
    Determined (.group inner) := by
  intro d' rest rest' hsame hgreedy hgreedy' hends hends'
  cases d' with
  | boolean | number | var => simp [terminals, mark, ident, Terminal.number] at hsame
  | function params body =>
    have hopens := opensFunction_group inner rest
    rw [hsame, opensFunction_function] at hopens
    cases hopens
  | group inner' =>
    simp only [terminals, List.cons_append, List.append_assoc, List.cons.injEq, true_and,
      List.nil_append] at hsame
    obtain ⟨rfl, htail⟩ := hinner inner' _ _ hsame hgreedy hgreedy' rfl rfl
    simp only [List.cons.injEq, true_and] at htail
    exact ⟨rfl, htail⟩

theorem last {listed : Listed} {item : Derivation (.item listed)} (hitem : Determined item) :
    Determined (.last item) := by
  intro d' rest rest' hsame hgreedy hgreedy' hends hends'
  have hparen : nextKind rest = .rightParen := by simpa [Nonterminal.endsBefore] using hends
  have hitemEnds : (Nonterminal.item listed).endsBefore (nextKind rest) := by
    rw [hparen]
    exact Nonterminal.endsBefore_rightParen listed
  cases d' with
  | last item' =>
    have hparen' : nextKind rest' = .rightParen := by simpa [Nonterminal.endsBefore] using hends'
    obtain ⟨rfl, rfl⟩ := hitem item' _ _ hsame hgreedy hgreedy' hitemEnds (by
      rw [hparen']
      exact Nonterminal.endsBefore_rightParen listed)
    exact ⟨rfl, rfl⟩
  | more item' others =>
    simp only [terminals, List.append_assoc, List.cons_append] at hsame
    obtain ⟨-, rfl⟩ := hitem item' _ _ hsame hgreedy hgreedy'.1 hitemEnds
      (Nonterminal.endsBefore_comma listed)
    cases hends

theorem more {listed : Listed} {item : Derivation (.item listed)}
    {others : Derivation (.series listed)} (hitem : Determined item) (hothers : Determined others) :
    Determined (.more item others) := by
  intro d' rest rest' hsame hgreedy hgreedy' hends hends'
  simp only [terminals, List.append_assoc, List.cons_append] at hsame
  cases d' with
  | last item' =>
    have hparen' : nextKind rest' = .rightParen := by simpa [Nonterminal.endsBefore] using hends'
    obtain ⟨-, rfl⟩ := hitem item' _ _ hsame hgreedy.1 hgreedy'
      (Nonterminal.endsBefore_comma listed) (by
        rw [hparen']
        exact Nonterminal.endsBefore_rightParen listed)
    cases hends'
  | more item' others' =>
    simp only [terminals, List.append_assoc, List.cons_append] at hsame
    obtain ⟨rfl, htail⟩ := hitem item' _ _ hsame hgreedy.1 hgreedy'.1
      (Nonterminal.endsBefore_comma listed) (Nonterminal.endsBefore_comma listed)
    simp only [List.cons.injEq, true_and] at htail
    obtain ⟨rfl, rfl⟩ := hothers others' _ _ htail hgreedy.2 hgreedy'.2 hends hends'
    exact ⟨rfl, rfl⟩

theorem noItems {listed : Listed} : Determined (.noItems : Derivation (.list listed)) := by
  intro d' rest rest' hsame hgreedy hgreedy' hends hends'
  cases d' with
  | noItems => exact ⟨rfl, hsame⟩
  | items series =>
    obtain rfl : rest = _ := hsame
    exact absurd (by simpa [Nonterminal.endsBefore] using hends)
      (nextKind_series_ne_rightParen series rest')

theorem items {listed : Listed} {series : Derivation (.series listed)}
    (hseries : Determined series) : Determined (.items series) := by
  intro d' rest rest' hsame hgreedy hgreedy' hends hends'
  cases d' with
  | noItems =>
    obtain rfl : _ = rest' := hsame
    exact absurd (by simpa [Nonterminal.endsBefore] using hends')
      (nextKind_series_ne_rightParen series rest)
  | items series' =>
    obtain ⟨rfl, rfl⟩ := hseries series' _ _ hsame hgreedy hgreedy' hends hends'
    exact ⟨rfl, rfl⟩

theorem expr_ne_const {term : Derivation .expr} {rest tail : List Terminal}
    (hsame : term.terminals ++ rest = mark .const :: tail) : False :=
  nextKind_expr_ne_const term rest (by rw [hsame]; rfl)

theorem const {name : String} {init : Derivation .expr} {prog : Derivation .program}
    (hinit : Determined init) (hprog : Determined prog) : Determined (.const name init prog) := by
  intro d' rest rest' hsame hgreedy hgreedy' hends hends'
  cases d' with
  | const name' init' prog' =>
    simp only [terminals, List.cons_append, List.append_assoc, List.cons.injEq, true_and] at hsame
    obtain ⟨hname, htail⟩ := hsame
    cases hname
    obtain ⟨rfl, hnext⟩ := hinit init' _ _ htail hgreedy.1 hgreedy'.1 rfl rfl
    simp only [List.cons.injEq, true_and] at hnext
    obtain ⟨rfl, rfl⟩ := hprog prog' _ _ hnext hgreedy.2 hgreedy'.2 hends hends'
    exact ⟨rfl, rfl⟩
  | statement term prog' =>
    simp only [terminals, List.cons_append, List.append_assoc] at hsame
    exact (expr_ne_const hsame.symm).elim
  | final term semicolon =>
    simp only [terminals, List.cons_append, List.append_assoc] at hsame
    exact (expr_ne_const hsame.symm).elim

/-- A statement with a program after it is not the end of a program. -/
theorem statement_ne_final {prog : Derivation .program} {semicolon : Bool}
    {rest rest' : List Terminal} (hends' : Nonterminal.program.endsBefore (nextKind rest'))
    (hsame : mark .semicolon :: (prog.terminals ++ rest) =
      (if semicolon then [mark .semicolon] else []) ++ rest') : False := by
  have hend : nextKind rest' = .endOfInput := by simpa [Nonterminal.endsBefore] using hends'
  cases semicolon with
  | true =>
    simp only [if_true, List.singleton_append, List.cons.injEq, true_and] at hsame
    rw [← hsame] at hend
    exact nextKind_program_ne_endOfInput prog rest hend
  | false =>
    simp only [Bool.false_eq_true, if_false, List.nil_append] at hsame
    rw [← hsame] at hend
    cases hend

theorem statement {term : Derivation .expr} {prog : Derivation .program} (hterm : Determined term)
    (hprog : Determined prog) : Determined (.statement term prog) := by
  intro d' rest rest' hsame hgreedy hgreedy' hends hends'
  cases d' with
  | const name init prog' =>
    simp only [terminals, List.cons_append, List.append_assoc] at hsame
    exact (expr_ne_const hsame).elim
  | statement term' prog' =>
    simp only [terminals, List.cons_append, List.append_assoc] at hsame
    obtain ⟨rfl, htail⟩ := hterm term' _ _ hsame hgreedy.1 hgreedy'.1 rfl rfl
    simp only [List.cons.injEq, true_and] at htail
    obtain ⟨rfl, rfl⟩ := hprog prog' _ _ htail hgreedy.2 hgreedy'.2 hends hends'
    exact ⟨rfl, rfl⟩
  | final term' semicolon =>
    simp only [terminals, List.cons_append, List.append_assoc] at hsame
    obtain ⟨-, htail⟩ := hterm term' _ _ hsame hgreedy.1 hgreedy' rfl (endsBefore_final hends')
    exact (statement_ne_final hends' htail).elim

theorem final {term : Derivation .expr} {semicolon : Bool} (hterm : Determined term) :
    Determined (.final term semicolon) := by
  intro d' rest rest' hsame hgreedy hgreedy' hends hends'
  cases d' with
  | const name init prog =>
    simp only [terminals, List.cons_append, List.append_assoc] at hsame
    exact (expr_ne_const hsame).elim
  | statement term' prog =>
    simp only [terminals, List.cons_append, List.append_assoc] at hsame
    obtain ⟨-, htail⟩ := hterm term' _ _ hsame hgreedy hgreedy'.1 (endsBefore_final hends) rfl
    exact (statement_ne_final hends htail.symm).elim
  | final term' semicolon' =>
    simp only [terminals, List.append_assoc] at hsame
    obtain ⟨rfl, htail⟩ := hterm term' _ _ hsame hgreedy hgreedy' (endsBefore_final hends)
      (endsBefore_final hends')
    have hend : nextKind rest = .endOfInput := by simpa [Nonterminal.endsBefore] using hends
    have hend' : nextKind rest' = .endOfInput := by simpa [Nonterminal.endsBefore] using hends'
    cases semicolon <;> cases semicolon'
    · exact ⟨rfl, htail⟩
    · obtain rfl : rest = _ := htail
      cases hend
    · obtain rfl : _ = rest' := htail
      cases hend'
    · exact ⟨rfl, by simpa using htail⟩

end Determined

/-- Every derivation is determined by the text that starts with its sentence. -/
theorem determined (d : Derivation n) : Determined d := by
  induction d with
  | numberType => exact .numberType
  | booleanType => exact .booleanType
  | functionType _ _ hparams hresult => exact .functionType hparams hresult
  | param _ _ htype => exact .param htype
  | plain _ hsum => exact .plain hsum
  | conditional _ _ _ hcond hthen helse => exact .conditional hcond hthen helse
  | add _ _ hfirst hothers => exact .add hfirst hothers
  | endAdd => exact .endAdd
  | plus _ _ hoperand hothers => exact .plus hoperand hothers
  | call _ _ hcallee harguments => exact .call hcallee harguments
  | endCall => exact .endCall
  | apply _ _ hargs hothers => exact .apply hargs hothers
  | boolean value => exact .boolean value
  | number lexeme => exact .number lexeme
  | var name => exact .var name
  | function _ _ hparams hbody => exact .function hparams hbody
  | group _ hinner => exact .group hinner
  | const _ _ _ hinit hprog => exact .const hinit hprog
  | statement _ _ hterm hprog => exact .statement hterm hprog
  | final _ _ hterm => exact .final hterm
  | last _ hitem => exact .last hitem
  | more _ _ hitem hothers => exact .more hitem hothers
  | noItems => exact .noItems
  | items _ hseries => exact .items hseries

/-- A sentence has at most one derivation as a program. -/
theorem Derives.unique {d d' : Derivation .program} {sentence : List Terminal}
    (h : d.Derives sentence) (h' : d'.Derives sentence) : d = d' := by
  have hsame : d.terminals ++ [] = d'.terminals ++ [] := by
    rw [h.terminals_eq, h'.terminals_eq]
  exact (d.determined d' [] [] hsame h.greedy h'.greedy rfl rfl).1

end Derivation

end ArrowLang.Grammar
