import ArrowLang.Proofs.Grammar.Exactness
import ArrowLang.Proofs.Printing.Spelling

/-!
# Printing and parsing again

The text of a parsed program is a program with the same term, if all numbers in it are finite.  The
one thing that may go wrong is the nesting, since printing adds parentheses.
-/

namespace ArrowLang

open Grammar
open Token (sentence)

namespace Term

mutual

/-- The numbers in a term, from left to right. -/
@[simp]
def numbers : Term → List Binary64
  | boolean _ | var _ => []
  | number value => [value]
  | conditional cond thenBranch elseBranch =>
    numbers cond ++ numbers thenBranch ++ numbers elseBranch
  | add left right => numbers left ++ numbers right
  | function _ body => numbers body
  | call callee args => numbers callee ++ numbersAll args
  | sequence statements rest => numbersAll statements ++ numbers rest
  | const _ init rest => numbers init ++ numbers rest

@[simp]
def numbersAll : List Term → List Binary64
  | [] => []
  | term :: terms => numbers term ++ numbersAll terms

end

/-- All numbers in the term are finite. -/
def Finite (term : Term) : Prop := ∀ x ∈ term.numbers, x.isFinite

theorem forall_mem_numbersAll {p : Binary64 → Prop} {terms : List Term} :
    (∀ x ∈ numbersAll terms, p x) ↔ ∀ term ∈ terms, ∀ x ∈ term.numbers, p x := by
  induction terms with
  | nil => simp
  | cons term terms ih => rw [numbersAll, List.forall_mem_append, ih, List.forall_mem_cons]

theorem finite_number {x : Binary64} : (number x).Finite ↔ x.isFinite := by
  simp [Finite]

theorem finite_conditional {cond thenBranch elseBranch : Term} :
    (conditional cond thenBranch elseBranch).Finite ↔
      cond.Finite ∧ thenBranch.Finite ∧ elseBranch.Finite := by
  rw [Finite, numbers, List.forall_mem_append, List.forall_mem_append, and_assoc]
  rfl

theorem finite_add {left right : Term} : (add left right).Finite ↔ left.Finite ∧ right.Finite := by
  rw [Finite, numbers, List.forall_mem_append]
  rfl

theorem finite_call {callee : Term} {args : List Term} :
    (call callee args).Finite ↔ callee.Finite ∧ ∀ arg ∈ args, arg.Finite := by
  rw [Finite, numbers, List.forall_mem_append, forall_mem_numbersAll]
  rfl

theorem finite_const {name : String} {init rest : Term} :
    (const name init rest).Finite ↔ init.Finite ∧ rest.Finite := by
  rw [Finite, numbers, List.forall_mem_append]
  rfl

theorem finite_sequence {statements : List Term} {rest : Term} :
    (sequence statements rest).Finite ↔ (∀ term ∈ statements, term.Finite) ∧ rest.Finite := by
  rw [Finite, numbers, List.forall_mem_append, forall_mem_numbersAll]
  rfl

end Term

namespace Item

/-- The term in an item. -/
def term : Item → Term
  | const _ init => init
  | statement term => term

def text : Item → String
  | const name init => "const " ++ name ++ " = " ++ init.text ++ "; "
  | statement term => term.text ++ "; "

variable {items : List Item} {result : Term}

theorem text_sequence (statements : List Term) (rest : Term) :
    (sequence statements rest).text =
      String.join (statements.map fun term ↦ term.text ++ "; ") ++ rest.text := by
  cases statements with
  | nil => simp [sequence]
  | cons term statements =>
    change (Term.sequence (term :: statements) rest).text = _
    rw [Term.text, Term.texts_eq_map, List.map_map]
    rfl

/-- A program is printed item by item. -/
theorem text_assemble :
    (assemble items result).text = String.join (items.map text) ++ result.text := by
  induction items with
  | nil => simp [assemble, sequence]
  | cons item items ih =>
    rw [List.map_cons, String.join_cons, String.append_assoc, ← ih]
    cases item with
    | const name init => rw [assemble_const, Term.text, text]
    | statement term =>
      obtain ⟨statements, rest, hitems, hstatement⟩ := assemble_statement items result
      rw [hstatement, hitems, text_sequence, text_sequence, List.map_cons, String.join_cons, text,
        String.append_assoc]

/-- A property that constants and statements pass on holds of a program if it holds of its parts. -/
theorem assemble_iff {q : Term → Prop}
    (hconst : ∀ {name : String} {init rest : Term},
      q (.const name init rest) ↔ q init ∧ q rest)
    (hsequence : ∀ {statements : List Term} {rest : Term},
      q (.sequence statements rest) ↔ (∀ term ∈ statements, q term) ∧ q rest) :
    q (assemble items result) ↔ (∀ item ∈ items, q item.term) ∧ q result := by
  have hstatements (statements : List Term) (rest : Term) :
      q (sequence statements rest) ↔ (∀ term ∈ statements, q term) ∧ q rest := by
    cases statements with
    | nil => simp [sequence]
    | cons term statements => exact hsequence
  induction items with
  | nil => simp [assemble, sequence]
  | cons item items ih =>
    rw [List.forall_mem_cons, and_assoc]
    refine Iff.trans ?_ (and_congr_right fun _ ↦ ih)
    cases item with
    | const name init => exact hconst
    | statement term =>
      obtain ⟨statements, rest, hitems, hstatement⟩ := assemble_statement items result
      rw [hstatement, hitems, hstatements, hstatements, List.forall_mem_cons, and_assoc]
      rfl

theorem finite_assemble :
    (assemble items result).Finite ↔ (∀ item ∈ items, item.term.Finite) ∧ result.Finite :=
  assemble_iff Term.finite_const Term.finite_sequence

end Item

/-! ## Reprinting -/

namespace Grammar.Derivation

variable {n : Nonterminal} {p : String → Prop}

/-- The identifiers in the sentence of a derivation have the property. -/
def Named (p : String → Prop) {n : Nonterminal} : Derivation n → Prop
  | numberType => p "number"
  | booleanType => p "boolean"
  | functionType params result => params.Named p ∧ result.Named p
  | param name type => p name ∧ type.Named p
  | plain sum => sum.Named p
  | conditional cond thenBranch elseBranch =>
    cond.Named p ∧ thenBranch.Named p ∧ elseBranch.Named p
  | add first others => first.Named p ∧ others.Named p
  | plus operand others => operand.Named p ∧ others.Named p
  | call callee arguments => callee.Named p ∧ arguments.Named p
  | apply args others => args.Named p ∧ others.Named p
  | var name => p name
  | function params body => params.Named p ∧ body.Named p
  | group inner => inner.Named p
  | const name init rest => p name ∧ init.Named p ∧ rest.Named p
  | statement term rest => term.Named p ∧ rest.Named p
  | final term _ => term.Named p
  | last item => item.Named p
  | more item others => item.Named p ∧ others.Named p
  | items series => series.Named p
  | boolean _ | number _ | endAdd | endCall | noItems => True

theorem named_iff (d : Derivation n) :
    d.Named p ↔ ∀ terminal ∈ d.terminals, terminal.kind = .ident → p terminal.text := by
  induction d with
  | numberType | booleanType | var => simp [Named, Terminal.ident]
  | param name type ih | const name init rest ih ih' =>
    simp [Named, *, Terminal.ident, or_imp, forall_and]
  | final term semicolon ih => cases semicolon <;> simp [Named, ih, or_imp, forall_and]
  | _ => simp [Named, *, or_imp, forall_and]

/-- The identifiers of a text are names. -/
theorem named_of_derives {d : Derivation .program} {chars : List Char}
    (hd : d.Derives (sentence chars)) : d.Named fun name ↦ Token.IsName name.toList := by
  rw [named_iff, hd.terminals_eq]
  intro terminal hmem hkind
  obtain hmark | hlexeme := isLexeme_sentence hmem
  · rw [hkind] at hmark
    cases hmark
  · rw [hkind] at hlexeme
    exact hlexeme

end Grammar.Derivation

/-- The item can be printed and read again. -/
def Grammar.Listed.Reprints : (listed : Listed) → listed.Value → Prop
  | .param, binding => Prints .param (paramText binding) binding
  | .argument, term => term.Finite → Prints .call term.text term

/-- The value of a nonterminal can be printed and read again; a tail keeps this of the term to its
left. -/
def Grammar.Nonterminal.Reprints : (n : Nonterminal) → n.Value → Prop
  | .type, ty => Prints .type ty.text ty
  | .item listed, value => listed.Reprints value
  | .add, term | .call, term | .primary, term => term.Finite → Prints .call term.text term
  | .addTail, extend | .callTail, extend => ∀ left, (extend left).Finite →
      left.Finite ∧ (Prints .call left.text left → Prints .call (extend left).text (extend left))
  | .program, (items, result) => (∀ item ∈ items, item.term.Finite) → result.Finite →
      Prints .program (String.join (items.map Item.text) ++ result.text) (items, result)
  | .series listed, values | .list listed, values => ∀ value ∈ values, listed.Reprints value

namespace Prints

theorem final {result : Term} (hresult : Prints .call result.text result) :
    Prints .program (String.join (List.map Item.text []) ++ result.text) ([], result) := by
  obtain ⟨d, rfl, hgreedy, hspells⟩ := hresult.expr
  refine ⟨.final d false, rfl, ?_, ?_⟩
  · simpa using hgreedy
  · simpa using hspells

theorem statement {term result : Term} {items : List Item} (hterm : Prints .call term.text term)
    (hrest : Prints .program (String.join (items.map Item.text) ++ result.text) (items, result)) :
    Prints .program (String.join ((Item.statement term :: items).map Item.text) ++ result.text)
      (.statement term :: items, result) := by
  obtain ⟨d, rfl, hgreedy, hspells⟩ := hterm.expr
  obtain ⟨d', hvalue, hgreedy', hspells'⟩ := hrest
  refine ⟨.statement d d', by rw [Derivation.value, hvalue],
    fun rest ↦ ⟨hgreedy _, hgreedy' rest⟩, fun rest hrest ↦ ?_⟩
  rw [List.map_cons, String.join_cons, String.append_assoc]
  generalize String.join (items.map Item.text) ++ result.text = text at hspells'
  simp [Item.text, hspells.sentence_append, hspells'.sentence_append hrest]

theorem const {name : String} {init result : Term} {items : List Item}
    (hname : Token.IsName name.toList) (hinit : Prints .call init.text init)
    (hrest : Prints .program (String.join (items.map Item.text) ++ result.text) (items, result)) :
    Prints .program (String.join ((Item.const name init :: items).map Item.text) ++ result.text)
      (.const name init :: items, result) := by
  obtain ⟨d, rfl, hgreedy, hspells⟩ := hinit.expr
  obtain ⟨d', hvalue, hgreedy', hspells'⟩ := hrest
  refine ⟨.const name d d', by rw [Derivation.value, hvalue],
    fun rest ↦ ⟨hgreedy _, hgreedy' rest⟩, fun rest hrest ↦ ?_⟩
  rw [List.map_cons, String.join_cons, String.append_assoc]
  generalize String.join (items.map Item.text) ++ result.text = text at hspells'
  have hident : Spells name [.ident name] := fun rest hrest ↦
    Token.sentence_name hname hrest.word
  simp [Item.text, hident.sentence_append, hspells.sentence_append,
    hspells'.sentence_append hrest]

end Prints

/-- Whatever has a derivation with well-formed names can be printed and read again. -/
theorem reprints {n : Nonterminal} (d : Derivation n)
    (hnames : d.Named fun name ↦ Token.IsName name.toList) : n.Reprints d.value := by
  induction d with
  | numberType => exact .number
  | booleanType => exact .boolean
  | functionType params result ihparams ihresult =>
    obtain ⟨hparams, hresult⟩ := hnames
    exact .functionType (ihparams hparams) (ihresult hresult)
  | param name type ihtype =>
    obtain ⟨hname, htype⟩ := hnames
    exact .param hname (ihtype htype)
  | plain sum ihsum => exact ihsum hnames
  | conditional cond thenBranch elseBranch ihcond ihthen ihelse =>
    obtain ⟨hcond, hthen, helse⟩ := hnames
    intro hfinite
    obtain ⟨hfcond, hfthen, hfelse⟩ := Term.finite_conditional.mp hfinite
    exact .conditional (ihcond hcond hfcond) (ihthen hthen hfthen) (ihelse helse hfelse)
  | add first others ihfirst ihothers | call first others ihfirst ihothers =>
    obtain ⟨hfirst, hothers⟩ := hnames
    intro hfinite
    obtain ⟨hffirst, hprints⟩ := ihothers hothers first.value hfinite
    exact hprints (ihfirst hfirst hffirst)
  | endAdd | endCall => exact fun left hfinite ↦ ⟨hfinite, id⟩
  | plus operand others ihoperand ihothers =>
    obtain ⟨hoperand, hothers⟩ := hnames
    intro left hfinite
    obtain ⟨hfsum, hprints⟩ := ihothers hothers (.add left operand.value) hfinite
    obtain ⟨hfleft, hfoperand⟩ := Term.finite_add.mp hfsum
    exact ⟨hfleft, fun hleft ↦ hprints (.addTerm hleft (ihoperand hoperand hfoperand))⟩
  | apply args others ihargs ihothers =>
    obtain ⟨hargs, hothers⟩ := hnames
    intro callee hfinite
    obtain ⟨hfcall, hprints⟩ := ihothers hothers (.call callee args.value) hfinite
    obtain ⟨hfcallee, hfargs⟩ := Term.finite_call.mp hfcall
    exact ⟨hfcallee, fun hcallee ↦ hprints (.call hcallee fun arg hmem ↦
      (ihargs hargs arg hmem (hfargs arg hmem)).expr)⟩
  | boolean value => exact fun _ ↦ .booleanTerm value
  | number lexeme =>
    exact fun hfinite ↦
      .numberTerm (Binary64.isNegative_toBinary64 _) (Term.finite_number.mp hfinite)
  | var name => exact fun _ ↦ .var hnames
  | function params body ihparams ihbody =>
    obtain ⟨hparams, hbody⟩ := hnames
    exact fun hfinite ↦ .function (ihparams hparams) (ihbody hbody hfinite)
  | group inner ihinner => exact ihinner hnames
  | const name init prog ihinit ihprog =>
    obtain ⟨hname, hinit, hprog⟩ := hnames
    intro hitems hresult
    obtain ⟨hfinit, hfitems⟩ := List.forall_mem_cons.mp hitems
    exact .const hname (ihinit hinit hfinit) (ihprog hprog hfitems hresult)
  | statement term prog ihterm ihprog =>
    obtain ⟨hterm, hprog⟩ := hnames
    intro hitems hresult
    obtain ⟨hfterm, hfitems⟩ := List.forall_mem_cons.mp hitems
    exact .statement (ihterm hterm hfterm) (ihprog hprog hfitems hresult)
  | final term semicolon ihterm => exact fun _ hresult ↦ .final (ihterm hnames hresult)
  | last item ihitem =>
    intro value hmem
    obtain rfl := List.mem_singleton.mp hmem
    exact ihitem hnames
  | more item others ihitem ihothers =>
    obtain ⟨hitem, hothers⟩ := hnames
    exact List.forall_mem_cons.mpr ⟨ihitem hitem, ihothers hothers⟩
  | noItems => exact nofun
  | items series ihseries => exact ihseries hnames

/-- The text of a parsed program has a derivation with the term of the program. -/
theorem exists_derives_text {source : String} {term : Term} (hparse : parse source = .ok term)
    (hfinite : term.Finite) :
    ∃ d : Derivation .program, d.Derives (sentence term.text.toList) ∧ d.term = term := by
  obtain ⟨d, hd, -, rfl⟩ := parse_eq_ok_iff.mp hparse
  obtain ⟨hitems, hresult⟩ := Item.finite_assemble.mp hfinite
  have hnames := Derivation.named_of_derives hd
  obtain ⟨d', hvalue, hgreedy, hspells⟩ := reprints d hnames hitems hresult
  have hterm : d'.term = d.term := by rw [Derivation.term, hvalue, Derivation.term]
  refine ⟨d', ⟨?_, hgreedy []⟩, hterm⟩
  have hsentence := hspells.sentence_append separated_nil
  rw [List.append_nil, Token.sentence_nil, List.append_nil] at hsentence
  rw [Derivation.term, Item.text_assemble, hsentence]

/-- Parsing the text of a parsed program gives the same term or refuses the nesting, and it gives
the term exactly if the nesting of the text is within the limit. -/
theorem parse_text_of_parse {source : String} {term : Term} (hparse : parse source = .ok term)
    (hfinite : term.Finite) :
    (parse term.text = .ok term ∨
      ∃ position, parse term.text = .error ⟨.nestingTooDeep, position⟩) ∧
    ∃ d : Derivation .program, d.Derives (sentence term.text.toList) ∧ d.term = term ∧
      (parse term.text = .ok term ↔ d.depth ≤ nestingLimit) := by
  obtain ⟨d, hd, hterm⟩ := exists_derives_text hparse hfinite
  by_cases hdepth : d.depth ≤ nestingLimit
  · have hok : parse term.text = .ok term := parse_eq_ok_iff.mpr ⟨d, hd, hdepth, hterm⟩
    exact ⟨.inl hok, d, hd, hterm, fun _ ↦ hdepth, fun _ ↦ hok⟩
  · obtain ⟨position, herror⟩ := parse_of_too_deep hd (Nat.lt_of_not_le hdepth)
    refine ⟨.inr ⟨position, herror⟩, d, hd, hterm, fun hok ↦ ?_, fun h ↦ absurd h hdepth⟩
    rw [herror] at hok
    cases hok

/-- The derivation of `const f = (x: number) => (x) ? f : 0.50; f(2); f;`. -/
def sampleProgram : Derivation .program :=
  let primary (d : Derivation .primary) : Derivation .add := .add (.call d .endCall) .endAdd
  .const "f"
    (.plain (primary (.function (.items (.last (.param "x" .numberType)))
      (.conditional (primary (.group (.plain (primary (.var "x"))))) (.plain (primary (.var "f")))
        (.plain (primary (.number "0.50")))))))
    (.statement
      (.plain (.add (.call (.var "f") (.apply (.items (.last (.plain (primary (.number "2")))))
        .endCall)) .endAdd))
      (.final (.plain (primary (.var "f"))) true))

theorem parse_text_of_parse_sample :
    parse "const f = (x: number) => (x) ? f : 0.50; // half\nf(2); f;" = .ok sampleProgram.term ∧
    sampleProgram.term.Finite ∧
    (parse sampleProgram.term.text = .ok sampleProgram.term ∨
      ∃ position, parse sampleProgram.term.text = .error ⟨.nestingTooDeep, position⟩) ∧
    ∃ d : Derivation .program, d.Derives (sentence sampleProgram.term.text.toList) ∧
      d.term = sampleProgram.term ∧
      (parse sampleProgram.term.text = .ok sampleProgram.term ↔ d.depth ≤ nestingLimit) := by
  have hparse : parse "const f = (x: number) => (x) ? f : 0.50; // half\nf(2); f;" =
      .ok sampleProgram.term := by
    refine parse_eq_ok_iff.mpr ⟨sampleProgram, ⟨by decide +kernel, ?_⟩, by decide, rfl⟩
    simp [sampleProgram, TokenKind.continues]
  have hfinite : sampleProgram.term.Finite := by
    have hnumbers : [numeralValue "0.50", numeralValue "2"].all Binary64.isFinite := by
      decide +kernel
    exact List.all_eq_true.mp hnumbers
  exact ⟨hparse, hfinite, parse_text_of_parse hparse hfinite⟩

end ArrowLang
