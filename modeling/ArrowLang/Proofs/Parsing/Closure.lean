import ArrowLang.Parsing.Program

/-!
# What holds of all parsers

Every parser is put together from a few basic steps.  A property of parsers that the basic steps
have, and that putting parsers together keeps, is therefore a property of all of them.  A parser may
look at the kind and the text of the current token, at how many tokens are ahead and whether they
start a function, and at the depth, but at nothing else.
-/

namespace ArrowLang.Parsing

/-- The basic steps have the property, and putting parsers together keeps it. -/
structure Compositional (P : {α : Type} → Parser α → Prop) : Prop where
  pure {α : Type} (value : α) : P (pure value)
  bind {α β : Type} {first : Parser α} {next : α → Parser β} :
    P first → (∀ value, P (next value)) → P (first >>= next)
  /-- A look at the current token, but not at its position. -/
  look {α : Type} {next : Token → Parser α} :
    (∀ token position, next { token with position } = next token) → (∀ token, P (next token)) →
      P (current >>= next)
  advance : P advance
  isAt (kind : TokenKind) : P (isAt kind)
  fail {α : Type} {fault : ParseFault} : fault ≠ .nestingTooDeep → P (fail fault : Parser α)
  nested {α : Type} {parser : Parser α} : P parser → P (nested parser)
  tooDeep {α : Type} : P (tooDeep : Parser α)
  /-- A choice by the tokens ahead. -/
  choose {α : Type} {parser parser' : Parser α} : P parser → P parser' →
    P fun s ↦ if startsFunction s.ahead then parser s else parser' s
  /-- A look at the number of tokens ahead and the depth. -/
  measure {α : Type} {p : Nat → Nat → Parser α} : (∀ rounds depth, P (p rounds depth)) →
    P fun s ↦ p s.ahead.length s.depth s

namespace Compositional

variable {P : {α : Type} → Parser α → Prop} {α : Type}

theorem ite {condition : Prop} [Decidable condition] {parser parser' : Parser α} (h : P parser)
    (h' : P parser') : P (if condition then parser else parser') := by
  split
  · exact h
  · exact h'

theorem unexpected (hP : Compositional P) : P (unexpected : Parser α) := by
  refine hP.look (fun _ _ ↦ rfl) fun token ↦ ?_
  cases token.kind <;> exact hP.fail nofun

theorem consume (hP : Compositional P) (kind : TokenKind) (what : Expectation) :
    P (consume kind what) :=
  hP.bind (hP.isAt kind) fun _ ↦ ite hP.advance (hP.fail nofun)

theorem identifier (hP : Compositional P) (what : Expectation) : P (identifier what) :=
  hP.look (fun _ _ ↦ rfl) fun _ ↦ hP.bind (hP.consume .ident what) fun _ ↦ hP.pure _

theorem requireExtended (hP : Compositional P) (dialect : Dialect) (construct : Construct) :
    P (requireExtended dialect construct) := by
  cases dialect with
  | basic => exact hP.pure ()
  | arith => exact hP.fail nofun

theorem repeatAt (hP : Compositional P) {kind : TokenKind} {step : α → Parser α}
    (hstep : ∀ value, P (step value)) (rounds : Nat) (value : α) :
    P (repeatAt kind step rounds value) := by
  induction rounds generalizing value with
  | zero => exact hP.pure value
  | succ rounds ih =>
    refine hP.bind (hP.isAt kind) fun _ ↦ ite ?_ (hP.pure value)
    exact hP.bind (hstep value) ih

theorem whileAt (hP : Compositional P) {kind : TokenKind} {step : α → Parser α}
    (hstep : ∀ value, P (step value)) (value : α) : P (whileAt kind step value) :=
  hP.measure (p := fun rounds _ ↦ Parsing.repeatAt kind step rounds value) fun rounds _ ↦
    hP.repeatAt hstep rounds value

theorem itemsWithin (hP : Compositional P) {item : Parser α} (hitem : P item) (rounds : Nat) :
    P (itemsWithin item rounds) := by
  induction rounds with
  | zero => exact hP.bind hitem fun _ ↦ hP.pure _
  | succ rounds ih =>
    refine hP.bind hitem fun _ ↦ hP.bind (hP.isAt .comma) fun _ ↦ ite ?_ (hP.pure _)
    exact hP.bind hP.advance fun _ ↦ hP.bind ih fun _ ↦ hP.pure _

theorem itemsToClose (hP : Compositional P) {item : Parser α} (hitem : P item)
    (what : Expectation) : P (itemsToClose item what) := by
  have hitems : P fun s ↦ Parsing.itemsWithin item s.ahead.length s :=
    hP.measure (p := fun rounds _ ↦ Parsing.itemsWithin item rounds) fun rounds _ ↦
      hP.itemsWithin hitem rounds
  refine hP.bind (hP.isAt .rightParen) fun _ ↦ ite ?_ ?_
  · exact hP.bind hP.advance fun _ ↦ hP.pure _
  · exact hP.bind hitems fun _ ↦ hP.bind (hP.consume _ _) fun _ ↦ hP.pure _

section Types

variable {ty : Parser Ty}

theorem param (hP : Compositional P) (hty : P ty) : P (param ty) :=
  hP.bind (hP.identifier _) fun _ ↦ hP.bind (hP.consume _ _) fun _ ↦ hP.bind hty fun _ ↦ hP.pure _

theorem params (hP : Compositional P) (hty : P ty) : P (params ty) :=
  hP.bind (hP.consume _ _) fun _ ↦ hP.itemsToClose (hP.param hty) _

theorem typeName (hP : Compositional P) : P typeName := by
  refine hP.look (fun _ _ ↦ rfl) fun token ↦ ite (ite ?_ (ite ?_ ?_)) (hP.fail nofun)
  · exact hP.bind hP.advance fun _ ↦ hP.pure _
  · exact hP.bind hP.advance fun _ ↦ hP.pure _
  · exact hP.fail nofun

theorem typeForm (hP : Compositional P) (hty : P ty) : P (typeForm ty) := by
  refine hP.bind (hP.isAt .leftParen) fun _ ↦ ite ?_ hP.typeName
  exact hP.bind (hP.params hty) fun _ ↦ hP.bind (hP.consume _ _) fun _ ↦
    hP.bind hty fun _ ↦ hP.pure _

theorem type (hP : Compositional P) (levels : Nat) : P (Parsing.type levels) := by
  induction levels with
  | zero => exact hP.tooDeep
  | succ levels ih => exact hP.nested (hP.typeForm ih)

end Types

section Expressions

variable {dialect : Dialect} {ty : Parser Ty} {expr summand sum : Parser Term}

theorem numeral (hP : Compositional P) : P numeral := by
  refine hP.look (fun _ _ ↦ rfl) fun token ↦ ?_
  cases Decimal.ofText? token.lexeme with
  | none => exact hP.fail nofun
  | some decimal => exact hP.bind hP.advance fun _ ↦ hP.pure _

theorem function (hP : Compositional P) (hty : P ty) (hexpr : P expr) :
    P (function dialect ty expr) := by
  refine hP.bind (hP.requireExtended _ _) fun _ ↦ hP.bind (hP.params hty) fun _ ↦ ?_
  exact hP.bind (hP.consume _ _) fun _ ↦ hP.bind hexpr fun _ ↦ hP.pure _

theorem group (hP : Compositional P) (hexpr : P expr) : P (group expr) :=
  hP.bind hP.advance fun _ ↦ hP.bind hexpr fun _ ↦ hP.bind (hP.consume _ _) fun _ ↦ hP.pure _

theorem primary (hP : Compositional P) (hty : P ty) (hexpr : P expr) :
    P (primary dialect ty expr) := by
  refine hP.look (fun _ _ ↦ rfl) fun token ↦ ?_
  cases token.kind with
  | number => exact hP.numeral
  | boolean value => exact hP.bind hP.advance fun _ ↦ hP.pure _
  | ident =>
    exact hP.bind (hP.requireExtended _ _) fun _ ↦ hP.bind hP.advance fun _ ↦ hP.pure _
  | leftParen => exact hP.choose (hP.function hty hexpr) (hP.group hexpr)
  | _ => exact hP.unexpected

theorem arguments (hP : Compositional P) (hexpr : P expr) (callee : Term) :
    P (arguments dialect expr callee) := by
  refine hP.bind (hP.requireExtended _ _) fun _ ↦ hP.bind hP.advance fun _ ↦ ?_
  exact hP.bind (hP.itemsToClose hexpr _) fun _ ↦ hP.pure _

theorem operand (hP : Compositional P) (hty : P ty) (hexpr : P expr) :
    P (operand dialect ty expr) :=
  hP.bind (hP.primary hty hexpr) fun _ ↦ hP.whileAt (hP.arguments hexpr) _

theorem plus (hP : Compositional P) (hsummand : P summand) (left : Term) :
    P (plus summand left) :=
  hP.bind hP.advance fun _ ↦ hP.bind hsummand fun _ ↦ hP.pure _

theorem addition (hP : Compositional P) (hsummand : P summand) : P (addition summand) :=
  hP.bind hsummand fun _ ↦ hP.whileAt (hP.plus hsummand) _

theorem conditional (hP : Compositional P) (hsum : P sum) (hexpr : P expr) :
    P (conditional sum expr) := by
  refine hP.bind hsum fun _ ↦ hP.bind (hP.isAt .question) fun _ ↦ ite ?_ (hP.pure _)
  exact hP.bind hP.advance fun _ ↦ hP.bind hexpr fun _ ↦ hP.bind (hP.consume _ _) fun _ ↦
    hP.bind hexpr fun _ ↦ hP.pure _

theorem expression (hP : Compositional P) (dialect : Dialect) (levels : Nat) :
    P (Parsing.expression dialect levels) := by
  induction levels with
  | zero => exact hP.tooDeep
  | succ levels ih =>
    exact hP.nested (hP.conditional (hP.addition (hP.operand (hP.type levels) ih)) ih)

end Expressions

section Programs

variable {dialect : Dialect} {expr : Parser Term}

theorem constItem (hP : Compositional P) (hexpr : P expr) : P (constItem expr) := by
  refine hP.bind hP.advance fun _ ↦ hP.bind (hP.identifier _) fun _ ↦ ?_
  exact hP.bind (hP.consume _ _) fun _ ↦ hP.bind hexpr fun _ ↦ hP.bind (hP.consume _ _) fun _ ↦
    hP.pure _

theorem itemsAndResult (hP : Compositional P) (hexpr : P expr) (rounds : Nat) :
    P (itemsAndResult dialect expr rounds) := by
  induction rounds with
  | zero => exact hP.bind hexpr fun _ ↦ hP.pure _
  | succ rounds ih =>
    refine hP.bind (hP.isAt .const) fun _ ↦ ite ?_ ?_
    · exact hP.bind (hP.requireExtended _ _) fun _ ↦ hP.bind (hP.constItem hexpr) fun _ ↦
        hP.bind ih fun _ ↦ hP.pure _
    · refine hP.bind hexpr fun _ ↦ hP.bind (hP.isAt .semicolon) fun _ ↦ ite ?_ (hP.pure _)
      refine hP.bind hP.advance fun _ ↦ hP.bind (hP.isAt .endOfInput) fun _ ↦ ite (hP.pure _) ?_
      exact hP.bind (hP.requireExtended _ _) fun _ ↦ hP.bind ih fun _ ↦ hP.pure _

theorem program (hP : Compositional P) (dialect : Dialect) : P (Parsing.program dialect) := by
  refine hP.measure (p := fun rounds depth ↦ do
    let parts ←
      Parsing.itemsAndResult dialect (Parsing.expression dialect (nestingLimit - depth)) rounds
    if ← atEnd then return Item.assemble parts.1 parts.2 else Parsing.unexpected)
    fun rounds depth ↦ ?_
  refine hP.bind (hP.itemsAndResult (hP.expression dialect _) rounds) fun _ ↦ ?_
  exact hP.bind (hP.isAt .endOfInput) fun _ ↦ ite (hP.pure _) hP.unexpected

end Programs

end Compositional

end ArrowLang.Parsing
