import ArrowLang.Proofs.Binary64.ReadBack
import ArrowLang.Proofs.Token.Lexing

/-!
# What printed texts spell

Every form of type and term is printed as the sentence of a derivation with the printed value.  A
term is printed as a call, since whatever binds weaker stands in parentheses, and a function is
followed by a closing parenthesis, so that the greedy reading never reaches beyond the text.
-/

namespace ArrowLang

open Grammar
open Terminal (mark ident)
open Token (sentence isIdentPart)

attribute [local simp] Ty.text Ty.paramTexts Term.text Term.texts

/-- The text continues no word and no number before it. -/
def Separated (rest : List Char) : Prop :=
  Stops (fun c ↦ isIdentPart c || c.isDigit || c == '.') rest

@[simp]
theorem separated_nil : Separated [] := .nil

@[simp]
theorem separated_cons {c : Char} {rest : List Char} (hc : c ∈ [' ', '(', ')', ',', ';', ':']) :
    Separated (c :: rest) := by
  have hsigns : [' ', '(', ')', ',', ';', ':'].any
      (fun c ↦ isIdentPart c || c.isDigit || c == '.') = false := by decide
  exact .cons (Bool.eq_false_iff.mpr (List.any_eq_false.mp hsigns c hc))

theorem Separated.word {rest : List Char} (h : Separated rest) : Stops isIdentPart rest := by
  intro c hmem
  have hstop := h c hmem
  simp only [Bool.or_eq_false_iff] at hstop
  exact hstop.1.1

theorem Separated.numeral {rest : List Char} (h : Separated rest) :
    Stops (fun c ↦ c.isDigit || c == '.') rest := by
  intro c hmem
  have hstop := h c hmem
  simp only [Bool.or_eq_false_iff] at hstop ⊢
  exact ⟨hstop.1.2, hstop.2⟩

/-- Before any text that is separated from it, the text has the terminals. -/
def Spells (text : String) (terminals : List Terminal) : Prop :=
  ∀ rest, Separated rest → sentence (text.toList ++ rest) = terminals ++ sentence rest

theorem Spells.sentence_append {text : String} {terminals : List Terminal} {rest : List Char}
    (h : Spells text terminals) (hrest : Separated rest) :
    sentence (text.toList ++ rest) = terminals ++ sentence rest :=
  h rest hrest

/-- The text is the sentence of a derivation with the value, whatever follows. -/
def Prints (n : Nonterminal) (text : String) (value : n.Value) : Prop :=
  ∃ d : Derivation n, d.value = value ∧ (∀ rest, d.Greedy rest) ∧ Spells text d.terminals

/-- The text of a parameter. -/
def paramText (param : Param) : String := param.name ++ ": " ++ param.ty.text

theorem Ty.paramTexts_eq_map (params : List Param) :
    Ty.paramTexts params = params.map paramText := by
  induction params with
  | nil => rfl
  | cons param params ih => rw [Ty.paramTexts, ih]; rfl

theorem Term.texts_eq_map (terms : List Term) : Term.texts terms = terms.map Term.text := by
  induction terms with
  | nil => rfl
  | cons term terms ih => rw [Term.texts, ih]; rfl

namespace Prints

section Lists

variable {listed : Listed} {print : listed.Value → String}

theorem series {values : List listed.Value} (hne : values ≠ [])
    (h : ∀ value ∈ values, Prints (.item listed) (print value) value) :
    Prints (.series listed) (", ".intercalate (values.map print)) values := by
  induction values with
  | nil => exact absurd rfl hne
  | cons value values ih =>
    obtain ⟨d, rfl, hgreedy, hspells⟩ := h value List.mem_cons_self
    cases values with
    | nil => exact ⟨.last d, rfl, hgreedy, by simpa using hspells⟩
    | cons next values =>
      obtain ⟨d', hvalue, hgreedy', hspells'⟩ :=
        ih (List.cons_ne_nil _ _) fun value hmem ↦ h value (List.mem_cons_of_mem _ hmem)
      refine ⟨.more d d', by rw [Derivation.value, hvalue],
        fun rest ↦ ⟨hgreedy _, hgreedy' rest⟩, ?_⟩
      intro rest hrest
      simp only [List.map_cons] at hspells' ⊢
      rw [String.intercalate_cons_cons]
      generalize ", ".intercalate (print next :: values.map print) = tail at hspells' ⊢
      simp [hspells.sentence_append, hspells'.sentence_append hrest]

theorem list (listed : Listed) {print : listed.Value → String} {values : List listed.Value}
    (h : ∀ value ∈ values, Prints (.item listed) (print value) value) :
    Prints (.list listed) (", ".intercalate (values.map print)) values := by
  by_cases hne : values = []
  · subst hne
    exact ⟨.noItems, rfl, fun _ ↦ trivial, fun rest _ ↦ rfl⟩
  · obtain ⟨d, hvalue, hgreedy, hspells⟩ := series hne h
    exact ⟨.items d, hvalue, hgreedy, hspells⟩

end Lists

theorem number : Prints .type Ty.number.text .number := by
  have hpart : ['u', 'm', 'b', 'e', 'r'].all isIdentPart := by decide
  refine ⟨.numberType, rfl, fun _ ↦ trivial, fun rest hrest ↦ ?_⟩
  exact Token.sentence_name (.intro (by decide) (List.all_eq_true.mp hpart) (by decide)) hrest.word

theorem boolean : Prints .type Ty.boolean.text .boolean := by
  have hpart : ['o', 'o', 'l', 'e', 'a', 'n'].all isIdentPart := by decide
  refine ⟨.booleanType, rfl, fun _ ↦ trivial, fun rest hrest ↦ ?_⟩
  exact Token.sentence_name (.intro (by decide) (List.all_eq_true.mp hpart) (by decide)) hrest.word

theorem param {name : String} {ty : Ty} (hname : Token.IsName name.toList)
    (hty : Prints .type ty.text ty) : Prints .param (paramText ⟨name, ty⟩) ⟨name, ty⟩ := by
  obtain ⟨d, rfl, hgreedy, hspells⟩ := hty
  refine ⟨.param name d, rfl, hgreedy, fun rest hrest ↦ ?_⟩
  have hident : Spells name [ident name] := fun rest hrest ↦ Token.sentence_name hname hrest.word
  simp [paramText, hident.sentence_append, hspells.sentence_append hrest]

theorem functionType {params : List Param} {result : Ty}
    (hparams : ∀ param ∈ params, Prints .param (paramText param) param)
    (hresult : Prints .type result.text result) :
    Prints .type (Ty.function params result).text (.function params result) := by
  obtain ⟨d, hvalue, hgreedy, hspells⟩ := list .param hparams
  obtain ⟨d', rfl, hgreedy', hspells'⟩ := hresult
  refine ⟨.functionType d d', by rw [Derivation.value, hvalue],
    fun rest ↦ ⟨hgreedy _, hgreedy' rest⟩, fun rest hrest ↦ ?_⟩
  rw [Ty.text, Ty.paramTexts_eq_map]
  generalize ", ".intercalate (params.map paramText) = text at hspells
  simp [hspells.sentence_append, hspells'.sentence_append hrest]

end Prints

namespace Grammar.Derivation

/-- One more argument list after those of a call. -/
def snoc : Derivation .callTail → Derivation (.list .argument) → Derivation .callTail
  | endCall, args => apply args endCall
  | apply first others, args => apply first (others.snoc args)

theorem terminals_snoc (args : Derivation (.list .argument)) : (tail : Derivation .callTail) →
    (tail.snoc args).terminals =
      tail.terminals ++ mark .leftParen :: (args.terminals ++ [mark .rightParen])
  | endCall => by simp [snoc]
  | apply first others => by simp [snoc, terminals_snoc args others]

theorem value_snoc (args : Derivation (.list .argument)) : (tail : Derivation .callTail) →
    ∀ callee, (tail.snoc args).value callee = .call (tail.value callee) args.value
  | endCall => fun callee ↦ by simp [snoc]
  | apply first others => fun callee ↦ by simp [snoc, value_snoc args others]

theorem greedy_snoc {args : Derivation (.list .argument)} (hargs : ∀ rest, args.Greedy rest)
    (rest : List Terminal) : (tail : Derivation .callTail) →
    tail.Greedy (mark .leftParen :: (args.terminals ++ mark .rightParen :: rest)) →
      (tail.snoc args).Greedy rest
  | endCall => fun _ ↦ by simp [snoc, hargs]
  | apply first others => by
    rintro ⟨hfirst, hothers⟩
    rw [snoc]
    refine ⟨?_, greedy_snoc hargs rest others hothers⟩
    simpa [terminals_snoc] using hfirst

end Grammar.Derivation

namespace Prints

theorem add {text : String} {term : Term} (h : Prints .call text term) : Prints .add text term := by
  obtain ⟨d, hvalue, hgreedy, hspells⟩ := h
  exact ⟨.add d .endAdd, hvalue, fun rest ↦ ⟨hgreedy _, trivial⟩, by simpa using hspells⟩

theorem expr {text : String} {term : Term} (h : Prints .call text term) :
    Prints .expr text term := by
  obtain ⟨d, hvalue, hgreedy, hspells⟩ := h.add
  exact ⟨.plain d, hvalue, hgreedy, hspells⟩

theorem booleanTerm (value : Bool) : Prints .call (Term.boolean value).text (.boolean value) := by
  refine ⟨.call (.boolean value) .endCall, rfl, by simp, fun rest hrest ↦ ?_⟩
  have htext : (Term.boolean value).text = if value then "true" else "false" := by
    cases value <;> rfl
  rw [htext, Token.sentence_boolean value hrest.word]
  rfl

theorem numberTerm {x : Binary64} (hsign : x.isNegative = false) (hfinite : x.isFinite) :
    Prints .call (Term.number x).text (.number x) := by
  obtain ⟨decimal, hdecimal, hx⟩ := Option.map_eq_some_iff.mp (Binary64.ofText?_text hsign hfinite)
  refine ⟨.call (.number x.text) .endCall, ?_, by simp, fun rest hrest ↦ ?_⟩
  · simp [numeralValue, hdecimal, hx]
  · rw [Term.text, Token.sentence_numeral (Binary64.isNumeral_text hsign hfinite) hrest.numeral]
    rfl

theorem var {name : String} (hname : Token.IsName name.toList) :
    Prints .call (Term.var name).text (.var name) := by
  refine ⟨.call (.var name) .endCall, rfl, by simp, fun rest hrest ↦ ?_⟩
  rw [Term.text, Token.sentence_name hname hrest.word]
  rfl

theorem addTerm {left right : Term} (hleft : Prints .call left.text left)
    (hright : Prints .call right.text right) :
    Prints .call (Term.add left right).text (.add left right) := by
  obtain ⟨d, rfl, hgreedy, hspells⟩ := hleft
  obtain ⟨d', rfl, hgreedy', hspells'⟩ := hright
  refine ⟨.call (.group (.plain (.add d (.plus d' .endAdd)))) .endCall, rfl, ?_,
    fun rest hrest ↦ ?_⟩
  · simp [hgreedy, hgreedy']
  · simp [hspells.sentence_append, hspells'.sentence_append]

theorem conditional {cond thenBranch elseBranch : Term} (hcond : Prints .call cond.text cond)
    (hthen : Prints .call thenBranch.text thenBranch)
    (helse : Prints .call elseBranch.text elseBranch) :
    Prints .call (Term.conditional cond thenBranch elseBranch).text
      (.conditional cond thenBranch elseBranch) := by
  obtain ⟨d, rfl, hgreedy, hspells⟩ := hcond.add
  obtain ⟨d₁, rfl, hgreedy₁, hspells₁⟩ := hthen.expr
  obtain ⟨d₂, rfl, hgreedy₂, hspells₂⟩ := helse.expr
  refine ⟨.call (.group (.conditional d d₁ d₂)) .endCall, rfl, ?_, fun rest hrest ↦ ?_⟩
  · simp [hgreedy, hgreedy₁, hgreedy₂]
  · simp [hspells.sentence_append, hspells₁.sentence_append, hspells₂.sentence_append]

/-- A function is printed in parentheses, and the closing one ends its body. -/
theorem function {params : List Param} {body : Term}
    (hparams : ∀ param ∈ params, Prints .param (paramText param) param)
    (hbody : Prints .call body.text body) :
    Prints .call (Term.function params body).text (.function params body) := by
  obtain ⟨d, hvalue, hgreedy, hspells⟩ := list .param hparams
  obtain ⟨d', rfl, hgreedy', hspells'⟩ := hbody.expr
  refine ⟨.call (.group (.plain (.add (.call (.function d d') .endCall) .endAdd))) .endCall, ?_, ?_,
    fun rest hrest ↦ ?_⟩
  · simp [hvalue]
  · simp [hgreedy, hgreedy', TokenKind.continues]
  · rw [Term.text, Ty.paramTexts_eq_map]
    generalize ", ".intercalate (params.map paramText) = text at hspells
    simp [hspells.sentence_append, hspells'.sentence_append]

theorem call {callee : Term} {args : List Term} (hcallee : Prints .call callee.text callee)
    (hargs : ∀ arg ∈ args, Prints .expr arg.text arg) :
    Prints .call (Term.call callee args).text (.call callee args) := by
  obtain ⟨d, hvalue, hgreedy, hspells⟩ := hcallee
  obtain ⟨d', hvalue', hgreedy', hspells'⟩ := list .argument hargs
  cases d with
  | call primary tail =>
    refine ⟨.call primary (tail.snoc d'), ?_, fun rest ↦ ?_, fun rest hrest ↦ ?_⟩
    · rw [Derivation.value] at hvalue
      rw [Derivation.value, Derivation.value_snoc, hvalue, hvalue']
    · obtain ⟨hprimary, htail⟩ :=
        hgreedy (mark .leftParen :: (d'.terminals ++ mark .rightParen :: rest))
      refine ⟨?_, Derivation.greedy_snoc hgreedy' rest tail htail⟩
      simpa [Derivation.terminals_snoc] using hprimary
    · rw [Term.text, Term.texts_eq_map]
      generalize ", ".intercalate (args.map Term.text) = text at hspells'
      simp [Derivation.terminals_snoc, hspells.sentence_append, hspells'.sentence_append]

end Prints

end ArrowLang
