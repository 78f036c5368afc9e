import ArrowLang.Proofs.Grammar.Reading
import ArrowLang.Proofs.Grammar.Unambiguous

/-!
# Whatever has a derivation is accepted, unless it is too deep

On the sentence of a derivation a parser has only two outcomes.  It reads the sentence if the
derivation is within the levels that may still be opened, and otherwise fails because the nesting is
too deep.  Which value it returns need not be followed here, since whatever is accepted has a
derivation with that value, and there is only one derivation.
-/

namespace ArrowLang.Parsing

open Grammar State
open Terminal (mark ident)

variable {α β : Type} {input middle rest : List Terminal} {fits fits' : Prop}

/-- The parser reads the input down to the rest if it fits, and otherwise refuses its nesting. -/
def Accepts (parser : Parser α) (input : List Terminal) (fits : Prop) (rest : List Terminal) :
    Prop :=
  ∀ s : State, s.WellFormed → s.terminals = input →
    (fits ∧ ∃ value t, parser s = .ok value t ∧ t.WellFormed ∧ t.terminals = rest) ∨
    (¬fits ∧ ∃ position t, parser s = .error ⟨.nestingTooDeep, position⟩ t)

namespace Accepts

theorem congr {parser : Parser α} (h : Accepts parser input fits rest) (hfits : fits ↔ fits') :
    Accepts parser input fits' rest := by
  rwa [← propext hfits]

theorem pure {value : α} : Accepts (pure value) input True input := by
  intro s hs hinput
  exact .inl ⟨trivial, value, s, rfl, hs, hinput⟩

theorem bind {first : Parser α} {next : α → Parser β} (hfirst : Accepts first input fits middle)
    (hnext : ∀ value, Accepts (next value) middle fits' rest) :
    Accepts (first >>= next) input (fits ∧ fits') rest := by
  intro s hs hinput
  change (_ ∧ ∃ value t, EStateM.bind first next s = _ ∧ _) ∨
    (_ ∧ ∃ position t, EStateM.bind first next s = _)
  unfold EStateM.bind
  obtain ⟨hfits, value, t, hrun, ht, hmiddle⟩ | ⟨hfits, position, t, hrun⟩ := hfirst s hs hinput
  · rw [hrun]
    obtain ⟨hfits', result⟩ | ⟨hfits', result⟩ := hnext value t ht hmiddle
    · exact .inl ⟨⟨hfits, hfits'⟩, result⟩
    · exact .inr ⟨fun h ↦ hfits' h.2, result⟩
  · rw [hrun]
    exact .inr ⟨fun h ↦ hfits h.1, position, t, rfl⟩

/-- A step that always succeeds. -/
theorem step {first : Parser α} {next : α → Parser β} (hfirst : Accepts first input True middle)
    (hnext : ∀ value, Accepts (next value) middle fits rest) :
    Accepts (first >>= next) input fits rest :=
  (hfirst.bind hnext).congr (iff_of_eq (true_and fits))

/-- A last step that always succeeds. -/
theorem last {first : Parser α} {next : α → Parser β} (hfirst : Accepts first input fits middle)
    (hnext : ∀ value, Accepts (next value) middle True rest) :
    Accepts (first >>= next) input fits rest :=
  (hfirst.bind hnext).congr (iff_of_eq (and_true fits))

theorem advance : Accepts advance input True input.tail := by
  intro s hs hinput
  refine .inl ⟨trivial, (), s.advance, rfl, ?_, ?_⟩
  · refine hs.of_subset s.finish_advance fun terminal hmem ↦ ?_
    rw [terminals_advance] at hmem
    exact List.mem_of_mem_tail hmem
  · rw [terminals_advance, hinput]

/-- A test of the current token has one outcome for each input. -/
theorem isAt {kind : TokenKind} {next : Bool → Parser β}
    (hnext : Accepts (next (nextKind input == kind)) input fits rest) :
    Accepts (isAt kind >>= next) input fits rest := by
  intro s hs hinput
  have hkind := s.current_kind hs.finish_kind
  rw [hinput] at hkind
  rw [← hkind] at hnext
  exact hnext s hs hinput

theorem found {kind : TokenKind} {next : Bool → Parser β} (hkind : nextKind input = kind)
    (hnext : Accepts (next true) input fits rest) :
    Accepts (Parsing.isAt kind >>= next) input fits rest :=
  .isAt (by rwa [hkind, beq_self_eq_true])

theorem notFound {kind : TokenKind} {next : Bool → Parser β} (hkind : nextKind input ≠ kind)
    (hnext : Accepts (next false) input fits rest) :
    Accepts (Parsing.isAt kind >>= next) input fits rest :=
  .isAt (by rwa [beq_false_of_ne hkind])

/-- A look at the current token shows the first terminal. -/
theorem current {terminal : Terminal} {next : Token → Parser β}
    (hnext : ∀ token : Token, token.terminal = terminal →
      Accepts (next token) (terminal :: input) fits rest) :
    Accepts (current >>= next) (terminal :: input) fits rest := by
  intro s hs hinput
  have hcurrent : s.current.kind ≠ .endOfInput := by
    rw [s.current_kind hs.finish_kind, hinput]
    exact hs.ahead_kind terminal (by simp [hinput])
  have hterminal := terminals_eq_cons hs hcurrent
  rw [hinput, List.cons.injEq] at hterminal
  exact hnext s.current hterminal.1.symm s hs hinput

theorem consume {kind : TokenKind} {what : Expectation} (hkind : nextKind input = kind) :
    Accepts (consume kind what) input True input.tail :=
  .found hkind .advance

theorem identifier {name : String} {what : Expectation} :
    Accepts (identifier what) (ident name :: rest) True rest :=
  .current fun _ _ ↦ .step (.consume rfl) fun _ ↦ .pure

theorem nested {parser : Parser α} (hparser : Accepts parser input fits rest) :
    Accepts (nested parser) input fits rest := by
  intro s hs hinput
  unfold Parsing.nested
  obtain ⟨hfits, value, t, hrun, ht, hrest⟩ | ⟨hfits, position, t, hrun⟩ :=
    hparser _ (hs.atDepth (s.depth + 1)) hinput
  · rw [hrun]
    exact .inl ⟨hfits, value, _, rfl, ht.atDepth _, hrest⟩
  · rw [hrun]
    exact .inr ⟨hfits, position, _, rfl⟩

theorem tooDeep (hfits : ¬fits) : Accepts (tooDeep : Parser α) input fits rest := by
  intro s hs hinput
  exact .inr ⟨hfits, _, _, rfl⟩

end Accepts

/-- The parser accepts the input if it has a round for each terminal. -/
def AcceptsWithin (parser : Nat → Parser α) (input : List Terminal) (fits : Prop)
    (rest : List Terminal) : Prop :=
  ∀ rounds, input.length ≤ rounds → Accepts (parser rounds) input fits rest

namespace AcceptsWithin

variable {kind : TokenKind} {round : α → Parser α} {value : α}

theorem stop (hkind : nextKind input ≠ kind) :
    AcceptsWithin (repeatAt kind round · value) input True input := by
  intro rounds hrounds
  cases rounds with
  | zero => exact .pure
  | succ rounds => exact .notFound hkind .pure

theorem goOn (hkind : nextKind input = kind) (hround : Accepts (round value) input fits middle)
    (hshorter : middle.length < input.length)
    (hothers : ∀ value, AcceptsWithin (repeatAt kind round · value) middle fits' rest) :
    AcceptsWithin (repeatAt kind round · value) input (fits ∧ fits') rest := by
  intro rounds hrounds
  cases rounds with
  | zero => omega
  | succ rounds =>
    exact .found hkind (hround.bind fun value ↦ hothers value rounds (by omega))

/-- A round for each token ahead is enough. -/
theorem ahead {parser : Nat → Parser β} (h : AcceptsWithin parser input fits rest) :
    Accepts (fun s ↦ parser s.ahead.length s) input fits rest := by
  intro s hs hinput
  exact h s.ahead.length (by simp [← hinput]) s hs hinput

end AcceptsWithin

/-! ## Completeness -/

/-- The parser of an item, with so many levels still to open. -/
def itemParser (levels : Nat) : (listed : Listed) → Parser listed.Value
  | .param => param (type levels)
  | .argument => expression .basic levels

/-- The parser of a nonterminal, with so many levels still to open, accepts the input.  A list is
read together with the closing parenthesis after it. -/
def Accepted (levels : Nat) (input : List Terminal) (fits : Prop) (rest : List Terminal) :
    Nonterminal → Prop
  | .type => Accepts (type levels) input fits rest
  | .item listed => Accepts (itemParser levels listed) input fits rest
  | .add =>
    Accepts (addition (operand .basic (type levels) (expression .basic levels))) input fits rest
  | .addTail => ∀ left, AcceptsWithin
      (repeatAt .plus (plus (operand .basic (type levels) (expression .basic levels))) · left)
      input fits rest
  | .call => Accepts (operand .basic (type levels) (expression .basic levels)) input fits rest
  | .callTail => ∀ callee, AcceptsWithin
      (repeatAt .leftParen (arguments .basic (expression .basic levels)) · callee) input fits rest
  | .primary => Accepts (primary .basic (type levels) (expression .basic levels)) input fits rest
  | .program => AcceptsWithin (itemsAndResult .basic (expression .basic levels)) input fits rest
  | .series listed => AcceptsWithin (itemsWithin (itemParser levels listed)) input fits rest
  | .list listed =>
    ∀ what, Accepts (itemsToClose (itemParser levels listed) what) input fits rest.tail

/-- The parser of the nonterminal accepts the sentence of the derivation, before whatever may follow
the sentence; it fits if the derivation is not deeper than the levels that may be opened. -/
def Complete {n : Nonterminal} (d : Derivation n) : Prop :=
  ∀ (levels : Nat) (rest : List Terminal), d.Greedy rest → n.endsBefore (nextKind rest) →
    Accepted levels (d.terminals ++ rest) (d.depth ≤ levels) rest n

namespace Complete

variable {listed : Listed}

theorem last {item : Derivation (.item listed)} (hitem : Complete item) :
    Complete (.last item) := by
  intro levels rest hgreedy hends rounds hrounds
  have hparen : nextKind rest = .rightParen := by simpa [Nonterminal.endsBefore] using hends
  have haccepts := hitem levels rest hgreedy (by
    rw [hparen]
    exact Nonterminal.endsBefore_rightParen listed)
  cases rounds with
  | zero => exact .last haccepts fun _ ↦ .pure
  | succ rounds => exact .last haccepts fun _ ↦ .notFound (by simp [hparen]) .pure

theorem more {item : Derivation (.item listed)} {others : Derivation (.series listed)}
    (hitem : Complete item) (hothers : Complete others) : Complete (.more item others) := by
  intro levels rest hgreedy hends rounds hrounds
  simp only [Derivation.terminals, List.append_assoc, List.cons_append, List.length_append,
    List.length_cons] at hrounds ⊢
  cases rounds with
  | zero => omega
  | succ rounds =>
    refine .congr (.bind (hitem levels _ hgreedy.1 (Nonterminal.endsBefore_comma listed))
      fun _ ↦ .found rfl (.step .advance fun _ ↦
        .last (hothers levels rest hgreedy.2 hends rounds ?_) fun _ ↦ .pure)) Nat.max_le.symm
    rw [List.length_append]
    omega

theorem noItems : Complete (.noItems : Derivation (.list listed)) := by
  intro levels rest hgreedy hends what
  have hparen : nextKind rest = .rightParen := by simpa [Nonterminal.endsBefore] using hends
  exact .found hparen (.congr (.step .advance fun _ ↦ .pure) (by simp))

theorem items {series : Derivation (.series listed)} (hseries : Complete series) :
    Complete (.items series) := by
  intro levels rest hgreedy hends what
  have hparen : nextKind rest = .rightParen := by simpa [Nonterminal.endsBefore] using hends
  have haccepts := AcceptsWithin.ahead (hseries levels rest hgreedy hends)
  exact .notFound (Derivation.nextKind_series_ne_rightParen series rest)
    (.last haccepts fun _ ↦ .step (.consume hparen) fun _ ↦ .pure)

theorem typeName {name : String} {rest : List Terminal}
    (hname : name = "number" ∨ name = "boolean") :
    Accepts typeName (ident name :: rest) True rest := by
  refine .current fun token htoken ↦ ?_
  have hkind : token.kind = .ident := congrArg Terminal.kind htoken
  rw [Token.terminal_eq_ident hkind] at htoken
  obtain rfl : token.lexeme = name := congrArg Terminal.text htoken
  rw [if_pos hkind]
  obtain hname | hname := hname
  · rw [if_pos hname]
    exact .step .advance fun _ ↦ .pure
  · rw [if_neg (by simp [hname]), if_pos hname]
    exact .step .advance fun _ ↦ .pure

theorem type_of_form {d : Derivation .type} (hdepth : 0 < d.depth)
    (hform : ∀ levels rest, d.Greedy rest →
      Accepts (typeForm (type levels)) (d.terminals ++ rest) (d.depth ≤ levels + 1) rest) :
    Complete d := by
  intro levels rest hgreedy hends
  cases levels with
  | zero => exact .tooDeep (by omega)
  | succ levels => exact .nested (hform levels rest hgreedy)

theorem numberType : Complete .numberType :=
  type_of_form Nat.zero_lt_one fun _ _ _ ↦ .notFound nofun (.congr (typeName (.inl rfl)) (by simp))

theorem booleanType : Complete .booleanType :=
  type_of_form Nat.zero_lt_one fun _ _ _ ↦ .notFound nofun (.congr (typeName (.inr rfl)) (by simp))

theorem params {params : Derivation (.list .param)} (hparams : Complete params) (levels : Nat)
    {rest : List Terminal} (hgreedy : params.Greedy (mark .rightParen :: rest)) :
    Accepts (Parsing.params (type levels))
      (mark .leftParen :: (params.terminals ++ mark .rightParen :: rest)) (params.depth ≤ levels)
      rest :=
  .step (.consume rfl) fun _ ↦ hparams levels _ hgreedy rfl _

theorem functionType {params : Derivation (.list .param)} {result : Derivation .type}
    (hparams : Complete params) (hresult : Complete result) :
    Complete (.functionType params result) := by
  refine type_of_form (Nat.succ_pos _) fun levels rest hgreedy ↦ ?_
  simp only [Derivation.terminals, List.append_assoc, List.cons_append]
  refine .found rfl (.congr (.bind (hparams.params levels hgreedy.1) fun _ ↦ .step (.consume rfl)
    fun _ ↦ .last (hresult levels rest hgreedy.2 rfl) fun _ ↦ .pure) ?_)
  rw [Derivation.depth, Nat.succ_le_succ_iff, Nat.max_le]

theorem param {name : String} {type : Derivation .type} (htype : Complete type) :
    Complete (.param name type) := by
  intro levels rest hgreedy hends
  exact .step .identifier fun _ ↦ .step (.consume rfl) fun _ ↦
    .last (htype levels rest hgreedy rfl) fun _ ↦ .pure

theorem boolean (value : Bool) : Complete (.boolean value) := by
  intro levels rest hgreedy hends
  refine .current fun token htoken ↦ ?_
  have hkind : token.kind = .boolean value := congrArg Terminal.kind htoken
  rw [hkind]
  exact .congr (.step .advance fun _ ↦ .pure) (by simp)

theorem number (lexeme : String) : Complete (.number lexeme) := by
  intro levels rest hgreedy hends s hs hinput
  have hdecimal := hs.numerals lexeme (by simp [hinput])
  obtain ⟨decimal, hdecimal⟩ := Option.isSome_iff_exists.mp hdecimal
  have hnumeral : Accepts numeral (.number lexeme :: rest) True rest := by
    refine .current fun token htoken ↦ ?_
    have hkind : token.kind = .number := congrArg Terminal.kind htoken
    rw [Token.terminal_eq_number hkind] at htoken
    obtain rfl : token.lexeme = lexeme := congrArg Terminal.text htoken
    rw [hdecimal]
    exact .step .advance fun _ ↦ .pure
  refine Accepts.current (fun token htoken ↦ ?_) s hs hinput
  have hkind : token.kind = .number := congrArg Terminal.kind htoken
  rw [hkind]
  exact .congr hnumeral (by simp)

theorem var (name : String) : Complete (.var name) := by
  intro levels rest hgreedy hends
  refine .current fun token htoken ↦ ?_
  have hkind : token.kind = .ident := congrArg Terminal.kind htoken
  rw [hkind]
  exact .congr (.step .pure fun _ ↦ .step .advance fun _ ↦ .pure) (by simp)

theorem startsFunction_eq (s : State) : startsFunction s.ahead = opensFunction s.terminals := by
  unfold State.terminals
  match s.ahead with
  | [] | [_] | [_, _] => rfl
  | _ :: _ :: _ :: _ => rfl

/-- At an opening parenthesis the next two terminals decide what is read. -/
theorem primary_of_paren {type : Parser Ty} {expression : Parser Term} {input rest : List Terminal}
    {fits : Prop}
    (h : Accepts (if opensFunction (mark .leftParen :: input) then
      Parsing.function .basic type expression else Parsing.group expression)
      (mark .leftParen :: input) fits rest) :
    Accepts (primary .basic type expression) (mark .leftParen :: input) fits rest := by
  refine .current fun token htoken ↦ ?_
  have hkind : token.kind = .leftParen := congrArg Terminal.kind htoken
  rw [hkind]
  intro s hs hinput
  have hrun := h s hs hinput
  dsimp only
  rw [startsFunction_eq, hinput]
  cases hopens : opensFunction (mark .leftParen :: input) <;> rw [hopens] at hrun <;> exact hrun

theorem function {params : Derivation (.list .param)} {body : Derivation .expr}
    (hparams : Complete params) (hbody : Complete body) : Complete (.function params body) := by
  intro levels rest hgreedy hends
  have hopens := Derivation.opensFunction_function params body rest
  simp only [Derivation.terminals, List.append_assoc, List.cons_append] at hopens ⊢
  refine primary_of_paren ?_
  rw [if_pos hopens]
  refine .congr (.step .pure fun _ ↦ .bind (hparams.params levels hgreedy.1) fun _ ↦
    .step (.consume rfl) fun _ ↦ .last (hbody levels rest hgreedy.2.1 ?_) fun _ ↦ .pure)
    Nat.max_le.symm
  simp [Nonterminal.endsBefore, hgreedy.2.2]

theorem group {inner : Derivation .expr} (hinner : Complete inner) : Complete (.group inner) := by
  intro levels rest hgreedy hends
  have hopens := Derivation.opensFunction_group inner rest
  simp only [Derivation.terminals, List.append_assoc, List.cons_append] at hopens ⊢
  refine primary_of_paren ?_
  rw [hopens, if_neg Bool.false_ne_true]
  exact .step .advance fun _ ↦ .last (hinner levels _ hgreedy rfl) fun _ ↦
    .step (.consume rfl) fun _ ↦ .pure

theorem endCall : Complete .endCall := by
  intro levels rest hgreedy hends callee
  have hparen : nextKind rest ≠ .leftParen := by simpa [Nonterminal.endsBefore] using hends
  intro rounds hrounds
  exact (AcceptsWithin.stop hparen rounds hrounds).congr (by simp)

theorem apply {args : Derivation (.list .argument)} {others : Derivation .callTail}
    (hargs : Complete args) (hothers : Complete others) : Complete (.apply args others) := by
  intro levels rest hgreedy hends callee
  simp only [Derivation.terminals, List.append_assoc, List.cons_append, Derivation.depth,
    Nat.max_le]
  refine .goOn rfl (.step .pure fun _ ↦ .step .advance fun _ ↦
    .last (hargs levels _ hgreedy.1 rfl _) fun _ ↦ .pure) ?_ fun value ↦
    hothers levels rest hgreedy.2 hends value
  simp only [List.tail_cons, List.length_cons, List.length_append]
  omega

theorem call {callee : Derivation .primary} {arguments : Derivation .callTail}
    (hcallee : Complete callee) (harguments : Complete arguments) :
    Complete (.call callee arguments) := by
  intro levels rest hgreedy hends
  simp only [Derivation.terminals, List.append_assoc]
  exact .congr (.bind (hcallee levels _ hgreedy.1 rfl) fun value ↦
    (harguments levels rest hgreedy.2 hends value).ahead) Nat.max_le.symm

theorem endAdd : Complete .endAdd := by
  intro levels rest hgreedy hends left rounds hrounds
  have hplus : nextKind rest ≠ .plus := by
    simp only [Nonterminal.endsBefore, Bool.and_eq_true, bne_iff_ne] at hends
    exact hends.2
  exact (AcceptsWithin.stop hplus rounds hrounds).congr (by simp)

theorem plus {operand : Derivation .call} {others : Derivation .addTail}
    (hoperand : Complete operand) (hothers : Complete others) :
    Complete (.plus operand others) := by
  intro levels rest hgreedy hends left
  simp only [Derivation.terminals, List.append_assoc, List.cons_append, Derivation.depth,
    Nat.max_le]
  refine .goOn rfl (.step .advance fun _ ↦
    .last (hoperand levels _ hgreedy.1 (Derivation.endsBefore_addTail others hends)) fun _ ↦ .pure)
    ?_ fun value ↦ hothers levels rest hgreedy.2 hends value
  simp only [List.length_cons, List.length_append]
  omega

theorem add {first : Derivation .call} {others : Derivation .addTail} (hfirst : Complete first)
    (hothers : Complete others) : Complete (.add first others) := by
  intro levels rest hgreedy hends
  simp only [Derivation.terminals, List.append_assoc]
  exact .congr (.bind (hfirst levels _ hgreedy.1 (Derivation.endsBefore_addTail others hends))
    fun value ↦ (hothers levels rest hgreedy.2 hends value).ahead) Nat.max_le.symm

theorem plain {sum : Derivation .add} (hsum : Complete sum) : Complete (.plain sum) := by
  intro levels rest hgreedy hends
  cases levels with
  | zero => exact .tooDeep (by simp)
  | succ levels =>
    have hquestion : nextKind rest ≠ .question := by
      intro hquestion
      rw [hquestion] at hends
      cases hends
    have haccepts := hsum levels rest hgreedy (Nonterminal.endsBefore_add_of_expr hends)
    exact .congr (.nested (.last haccepts fun _ ↦ .notFound hquestion .pure))
      Nat.succ_le_succ_iff.symm

theorem conditional {cond : Derivation .add} {thenBranch elseBranch : Derivation .expr}
    (hcond : Complete cond) (hthen : Complete thenBranch) (helse : Complete elseBranch) :
    Complete (.conditional cond thenBranch elseBranch) := by
  intro levels rest hgreedy hends
  cases levels with
  | zero => exact .tooDeep (by simp)
  | succ levels =>
    simp only [Derivation.terminals, List.append_assoc, List.cons_append]
    refine .congr (.nested (.bind (hcond levels _ hgreedy.1 rfl) fun _ ↦ .found rfl
      (.step .advance fun _ ↦ .bind (hthen levels _ hgreedy.2.1 rfl) fun _ ↦
        .step (.consume rfl) fun _ ↦ .last (helse levels rest hgreedy.2.2 hends) fun _ ↦ .pure))) ?_
    rw [Derivation.depth, Nat.succ_le_succ_iff, Nat.max_le, Nat.max_le]

theorem const {name : String} {init : Derivation .expr} {prog : Derivation .program}
    (hinit : Complete init) (hprog : Complete prog) : Complete (.const name init prog) := by
  intro levels rest hgreedy hends rounds hrounds
  simp only [Derivation.terminals, List.append_assoc, List.cons_append, List.length_append,
    List.length_cons] at hrounds ⊢
  cases rounds with
  | zero => omega
  | succ rounds =>
    have hitem : Accepts (constItem (expression .basic levels))
        (mark .const :: ident name :: mark .equals ::
          (init.terminals ++ mark .semicolon :: (prog.terminals ++ rest)))
        (init.depth ≤ levels) (prog.terminals ++ rest) :=
      .step .advance fun _ ↦ .step .identifier fun _ ↦ .step (.consume rfl) fun _ ↦
        .last (hinit levels _ hgreedy.1 rfl) fun _ ↦ .step (.consume rfl) fun _ ↦ .pure
    refine .found rfl (.step .pure fun _ ↦ .congr (.bind hitem fun _ ↦
      .last (hprog levels rest hgreedy.2 hends rounds ?_) fun _ ↦ .pure) Nat.max_le.symm)
    rw [List.length_append]
    omega

theorem statement {term : Derivation .expr} {prog : Derivation .program} (hterm : Complete term)
    (hprog : Complete prog) : Complete (.statement term prog) := by
  intro levels rest hgreedy hends rounds hrounds
  simp only [Derivation.terminals, List.append_assoc, List.cons_append, List.length_append,
    List.length_cons] at hrounds ⊢
  cases rounds with
  | zero => omega
  | succ rounds =>
    refine .notFound (Derivation.nextKind_expr_ne_const term _) (.congr
      (.bind (hterm levels _ hgreedy.1 rfl) fun _ ↦ .found rfl (.step .advance fun _ ↦
        .notFound (Derivation.nextKind_program_ne_endOfInput prog rest) (.step .pure fun _ ↦
          .last (hprog levels rest hgreedy.2 hends rounds ?_) fun _ ↦ .pure))) Nat.max_le.symm)
    rw [List.length_append]
    omega

theorem final {term : Derivation .expr} {semicolon : Bool} (hterm : Complete term) :
    Complete (.final term semicolon) := by
  intro levels rest hgreedy hends rounds hrounds
  have hend : nextKind rest = .endOfInput := by simpa [Nonterminal.endsBefore] using hends
  have haccepts := hterm levels _ hgreedy (Derivation.endsBefore_final hends)
  rw [← List.append_assoc] at haccepts
  cases semicolon with
  | true =>
    cases rounds with
    | zero => simp at hrounds
    | succ rounds =>
      refine .notFound ?_ (.last haccepts fun _ ↦ .found rfl (.step .advance fun _ ↦
        .found hend .pure))
      rw [Derivation.terminals, List.append_assoc]
      exact Derivation.nextKind_expr_ne_const term _
  | false =>
    cases rounds with
    | zero => exact .last haccepts fun _ ↦ .pure
    | succ rounds =>
      refine .notFound ?_ (.last haccepts fun _ ↦ .notFound ?_ .pure)
      · rw [Derivation.terminals, List.append_assoc]
        exact Derivation.nextKind_expr_ne_const term _
      · rw [if_neg Bool.false_ne_true, List.nil_append, hend]
        intro hkind
        cases hkind

end Complete

/-- The parsers accept the sentences of all derivations. -/
theorem complete {n : Nonterminal} (d : Derivation n) : Complete d := by
  induction d with
  | numberType => exact .numberType
  | booleanType => exact .booleanType
  | functionType _ _ hparams hresult => exact .functionType hparams hresult
  | param _ _ htype => exact .param htype
  | plain _ hsum => exact .plain hsum
  | conditional _ _ _ hcond hthen helse => exact .conditional hcond hthen helse
  | add _ _ hfirst hothers => exact .add hfirst hothers
  | endAdd => exact .endAdd
  | plus _ _ hoperand hothers => exact .plus hoperand hothers
  | call _ _ hcallee harguments => exact .call hcallee harguments
  | endCall => exact .endCall
  | apply _ _ hargs hothers => exact .apply hargs hothers
  | boolean value => exact .boolean value
  | number lexeme => exact .number lexeme
  | var name => exact .var name
  | function _ _ hparams hbody => exact .function hparams hbody
  | group _ hinner => exact .group hinner
  | const _ _ _ hinit hprog => exact .const hinit hprog
  | statement _ _ hterm hprog => exact .statement hterm hprog
  | final _ _ hterm => exact .final hterm
  | last _ hitem => exact .last hitem
  | more _ _ hitem hothers => exact .more hitem hothers
  | noItems => exact .noItems
  | items _ hseries => exact .items hseries

/-- A program with a derivation is accepted if and only if its nesting is within the limit, and
otherwise refused for its nesting. -/
theorem program_of_derives {s : State} {d : Derivation .program} (hs : s.WellFormed)
    (hd : d.Derives s.terminals) :
    (d.depth ≤ nestingLimit - s.depth ∧ ∃ term t, program .basic s = .ok term t) ∨
    (¬d.depth ≤ nestingLimit - s.depth ∧
      ∃ position t, program .basic s = .error ⟨.nestingTooDeep, position⟩ t) := by
  have hitems := complete d (nestingLimit - s.depth) [] hd.greedy rfl s.ahead.length
    (by simp [hd.terminals_eq])
  have haccepts : Accepts (itemsAndResult .basic (expression .basic (nestingLimit - s.depth))
      s.ahead.length >>= fun parts ↦ atEnd >>= fun ended ↦
        if ended then pure (Item.assemble parts.1 parts.2) else unexpected)
      (d.terminals ++ []) (d.depth ≤ nestingLimit - s.depth) [] :=
    .last hitems fun _ ↦ .found rfl .pure
  obtain ⟨hfits, term, t, hrun, -⟩ | result :=
    haccepts s hs (by rw [hd.terminals_eq, List.append_nil])
  · exact .inl ⟨hfits, term, t, hrun⟩
  · exact .inr result

end ArrowLang.Parsing
