import ArrowLang.Proofs.Grammar.Completion
import ArrowLang.Proofs.Grammar.Exactness
import ArrowLang.Proofs.Token.Lines

/-!
# Programs one after the other

A program with a semicolon and another program after it is a program.  Its items are those of the
first one, the result of the first one as a statement, and those of the second one.  The items of a
program and its result can be read off its term, since nothing is lost when the term is put
together.
-/

namespace ArrowLang

namespace Term

/-- The items along a term and the result behind them. -/
def spine : Term → List Item × Term
  | sequence statements rest => (statements.map .statement ++ (spine rest).1, (spine rest).2)
  | const name init rest => (.const name init :: (spine rest).1, (spine rest).2)
  | term => ([], term)

/-- The term is neither a sequence nor a constant. -/
def IsResult : Term → Prop
  | sequence _ _ | const _ _ _ => False
  | _ => True

/-- Along the term, statements that follow each other form one sequence. -/
def Merged : Term → Prop
  | sequence statements rest =>
    statements ≠ [] ∧ (∀ terms term, rest ≠ sequence terms term) ∧ Merged rest
  | const _ _ rest => Merged rest
  | _ => True

theorem IsResult.spine_eq {term : Term} (h : term.IsResult) : term.spine = ([], term) := by
  cases term with
  | sequence | const => cases h
  | _ => rfl

end Term

namespace Item

theorem spine_sequence (statements : List Term) (rest : Term) :
    (sequence statements rest).spine =
      (statements.map .statement ++ rest.spine.1, rest.spine.2) := by
  cases statements with
  | nil => rfl
  | cons term statements => rw [sequence, if_neg (by simp), Term.spine]

/-- The items and the result are found again in the term that they make up. -/
theorem spine_assemble {result : Term} (hresult : result.IsResult) (items : List Item) :
    (assemble items result).spine = (items, result) := by
  induction items with
  | nil => exact hresult.spine_eq
  | cons item items ih =>
    cases item with
    | const name init => rw [assemble_const, Term.spine, ih]
    | statement term =>
      obtain ⟨statements, rest, hitems, hstatement⟩ := assemble_statement items result
      rw [hitems, spine_sequence, Prod.mk.injEq] at ih
      rw [hstatement, spine_sequence, List.map_cons, List.cons_append, ih.1, ih.2]

theorem merged_sequence {rest : Term} (hrest : rest.Merged)
    (hother : ∀ terms term, rest ≠ .sequence terms term) (statements : List Term) :
    (sequence statements rest).Merged := by
  cases statements with
  | nil => exact hrest
  | cons term statements => exact ⟨List.cons_ne_nil _ _, hother, hrest⟩

theorem merged_assemble {result : Term} (hresult : result.IsResult) (items : List Item) :
    (assemble items result).Merged := by
  -- What the statements at the front are put before is a constant or the result.
  have hrest : (items.foldr prepend ([], result)).2.Merged ∧
      ∀ terms term, (items.foldr prepend ([], result)).2 ≠ .sequence terms term := by
    induction items with
    | nil =>
      cases result with
      | sequence | const => cases hresult
      | _ => exact ⟨trivial, nofun⟩
    | cons item items ih =>
      cases item with
      | const name init => exact ⟨merged_sequence ih.1 ih.2 _, nofun⟩
      | statement term => exact ih
  exact merged_sequence hrest.1 hrest.2 _

end Item

namespace Grammar.Derivation

open Terminal (mark)

variable {n : Nonterminal}

/-- Expressions are neither sequences nor constants, and neither is the result of a program. -/
def GivesResult : {n : Nonterminal} → Derivation n → Prop
  | .expr, d | .add, d | .call, d | .primary, d => d.value.IsResult
  | .addTail, d | .callTail, d => ∀ left : Term, left.IsResult → (d.value left).IsResult
  | .program, d => d.value.2.IsResult
  | .type, _ | .param, _ | .series _, _ | .list _, _ => True

theorem givesResult (d : Derivation n) : d.GivesResult := by
  induction d with
  | numberType | booleanType | functionType | param | last | more | noItems | items => trivial
  | boolean | number | var | function | conditional => trivial
  | plain _ hinner | group _ hinner | final _ _ hinner => exact hinner
  | const _ _ _ _ hprog | statement _ _ _ hprog => exact hprog
  | add first others hfirst hothers | call first others hfirst hothers =>
    exact hothers first.value hfirst
  | endAdd | endCall => exact fun _ hleft ↦ hleft
  | plus operand others _ hothers => exact fun left _ ↦ hothers (.add left operand.value) trivial
  | apply args others _ hothers => exact fun callee _ ↦ hothers (.call callee args.value) trivial

theorem spine_term (d : Derivation .program) : d.term.spine = d.value :=
  Item.spine_assemble d.givesResult d.value.1

/-- The first program, its result as a statement, and the second program. -/
def followedBy : Derivation .program → Derivation .program → Derivation .program
  | const name init rest, next => const name init (rest.followedBy next)
  | statement term rest, next => statement term (rest.followedBy next)
  | final term _, next => statement term next

variable {d next : Derivation .program}

theorem value_followedBy :
    (d.followedBy next).value =
      (d.value.1 ++ .statement d.value.2 :: next.value.1, next.value.2) := by
  fun_induction followedBy d next <;> simp_all

theorem depth_followedBy : (d.followedBy next).depth = max d.depth next.depth := by
  fun_induction followedBy d next with
  | case1 name init rest next ih | case2 init rest next ih =>
    rw [depth, ih, depth, Nat.max_assoc]
  | case3 => rfl

/-- A semicolon separates the programs, if the first one does not end with its own. -/
theorem terminals_followedBy (hlast : d.terminals.getLast? ≠ some (mark .semicolon)) :
    (d.followedBy next).terminals = d.terminals ++ mark .semicolon :: next.terminals := by
  fun_induction followedBy d next with
  | case1 name init rest next ih =>
    have hrest : rest.terminals.getLast? ≠ some (mark .semicolon) := fun h ↦
      hlast (by simp [List.getLast?_cons, List.getLast?_append, h])
    simp [ih hrest]
  | case2 term rest next ih =>
    have hrest : rest.terminals.getLast? ≠ some (mark .semicolon) := fun h ↦
      hlast (by simp [List.getLast?_cons, List.getLast?_append, h])
    simp [ih hrest]
  | case3 term semicolon next =>
    cases semicolon with
    | false => simp
    | true => simp at hlast

/-- A semicolon ends an expression as the end of the text does. -/
theorem greedy_followedBy (hd : d.Greedy []) (hnext : next.Greedy []) :
    (d.followedBy next).Greedy [] := by
  fun_induction followedBy d next with
  | case1 name init rest next ih => exact ⟨hd.1.before rfl, ih hd.2 hnext⟩
  | case2 term rest next ih => exact ⟨hd.1.before rfl, ih hd.2 hnext⟩
  | case3 term semicolon next =>
    have hterm : term.Greedy _ := hd
    exact ⟨hterm.before rfl, hnext⟩

theorem Derives.followedBy {left right : List Terminal} (hd : d.Derives left)
    (hnext : next.Derives right) (hlast : left.getLast? ≠ some (mark .semicolon)) :
    (d.followedBy next).Derives (left ++ mark .semicolon :: right) where
  terminals_eq := by
    rw [← hd.terminals_eq] at hlast
    rw [terminals_followedBy hlast, hd.terminals_eq, hnext.terminals_eq]
  greedy := greedy_followedBy hd.greedy hnext.greedy

end Grammar.Derivation

open Grammar
open Token (Cursor sentence)

theorem Token.sentence_line (chars next : List Char) :
    sentence (chars ++ '\n' :: next) = sentence chars ++ sentence next := by
  rw [sentence, Cursor.tokens_line, List.map_append, map_terminal_tokens next _ .start]
  rfl

theorem sentence_concatenation (source source' : String) :
    sentence (source ++ "\n;\n" ++ source').toList =
      sentence source.toList ++ .mark .semicolon :: sentence source'.toList := by
  have htext : (source ++ "\n;\n" ++ source').toList =
      source.toList ++ '\n' :: ';' :: '\n' :: source'.toList := by simp
  rw [htext, Token.sentence_line, Token.sentence_semicolon, Token.sentence_blank rfl]

theorem getLast?_sentence_ne {source : String} {kind : TokenKind}
    (h : (Cursor.ofString source).tokens.getLast?.map Token.kind ≠ some kind) :
    (sentence source.toList).getLast? ≠ some (.mark kind) := by
  intro hlast
  rw [sentence, List.getLast?_map] at hlast
  obtain ⟨token, htoken, hterminal⟩ := Option.map_eq_some_iff.mp hlast
  refine h (Option.map_eq_some_iff.mpr ⟨token, htoken, ?_⟩)
  exact congrArg Terminal.kind hterminal

/-- Two programs with a semicolon between them, on a line of its own, are a program, unless the
first one ends with a semicolon.  Its term consists of the items of the first one, the result of the
first one as a statement, and the items and the result of the second one, with statements that meet
in one sequence. -/
theorem parse_concatenation {source source' : String} {term term' : Term}
    (hparse : parse source = .ok term) (hparse' : parse source' = .ok term')
    (hlast : (Cursor.ofString source).tokens.getLast?.map Token.kind ≠ some .semicolon) :
    let items := term.spine.1 ++ .statement term.spine.2 :: term'.spine.1
    let result := term'.spine.2
    parse (source ++ "\n;\n" ++ source') = .ok (Item.assemble items result) ∧
      (Item.assemble items result).spine = (items, result) ∧
      (Item.assemble items result).Merged := by
  obtain ⟨d, hd, hdepth, rfl⟩ := parse_eq_ok_iff.mp hparse
  obtain ⟨next, hnext, hdepth', rfl⟩ := parse_eq_ok_iff.mp hparse'
  rw [d.spine_term, next.spine_term]
  have hresult := next.givesResult
  refine ⟨parse_eq_ok_iff.mpr ⟨d.followedBy next, ?_, ?_, ?_⟩, Item.spine_assemble hresult _,
    Item.merged_assemble hresult _⟩
  · rw [sentence_concatenation]
    exact hd.followedBy hnext (getLast?_sentence_ne hlast)
  · rw [Derivation.depth_followedBy]
    exact Nat.max_le.mpr ⟨hdepth, hdepth'⟩
  · rw [Derivation.term, Derivation.value_followedBy]

theorem parse_concatenation_sample :
    let one : Term := .number (numeralValue "1")
    let joined : Term := .const "x" one (.sequence [.var "x", .var "x"] (.boolean true))
    parse "const x = 1; x // one" = .ok (.const "x" one (.var "x")) ∧
      parse "x; true;" = .ok (.sequence [.var "x"] (.boolean true)) ∧
      (Cursor.ofString "const x = 1; x // one").tokens.getLast?.map Token.kind ≠ some .semicolon ∧
      parse ("const x = 1; x // one" ++ "\n;\n" ++ "x; true;") = .ok joined ∧
      joined.spine = ([.const "x" one, .statement (.var "x"), .statement (.var "x")],
        .boolean true) ∧
      joined.Merged := by
  intro one joined
  have hparse : parse "const x = 1; x // one" = .ok (.const "x" one (.var "x")) := by
    refine parse_eq_ok_iff.mpr ⟨.const "x" (.ofPrimary (.number "1"))
      (.final (.ofPrimary (.var "x")) false), ⟨by decide +kernel, ?_⟩, by decide, rfl⟩
    simp
  have hparse' : parse "x; true;" = .ok (.sequence [.var "x"] (.boolean true)) := by
    refine parse_eq_ok_iff.mpr ⟨.statement (.ofPrimary (.var "x"))
      (.final (.ofPrimary (.boolean true)) true), ⟨by decide +kernel, ?_⟩, by decide, rfl⟩
    simp
  have hlast : (Cursor.ofString "const x = 1; x // one").tokens.getLast?.map Token.kind ≠
      some .semicolon := by
    decide +kernel
  exact ⟨hparse, hparse', hlast, parse_concatenation hparse hparse' hlast⟩

end ArrowLang
