import ArrowLang.Parsing.Grammar

/-!
# Programs

A program is a series of items, constants and statements, before the result.  Items are read one
after the other and put together afterwards, so that the length of a program does not count as
nesting.
-/

namespace ArrowLang

/-- What may stand before the result of a program. -/
inductive Item
  | const (name : String) (init : Term)
  | statement (term : Term)

namespace Item

/-- Statements before a term; none leave the term as it is. -/
def sequence (statements : List Term) (rest : Term) : Term :=
  if statements.isEmpty then rest else .sequence statements rest

/-- Puts an item before a term that still has statements to go before it. -/
def prepend : Item → List Term × Term → List Term × Term
  | const name init, (statements, rest) => ([], .const name init (sequence statements rest))
  | statement term, (statements, rest) => (term :: statements, rest)

/-- The term of a program: statements that follow each other form one sequence, and a constant
covers everything after it. -/
def assemble (items : List Item) (result : Term) : Term :=
  let (statements, rest) := items.foldr prepend ([], result)
  sequence statements rest

theorem assemble_nil (result : Term) : assemble [] result = result := rfl

theorem assemble_const {name : String} {init : Term} {items : List Item} {result : Term} :
    assemble (const name init :: items) result = .const name init (assemble items result) := rfl

/-- A statement joins the statements at the front of the program after it. -/
theorem assemble_statement (items : List Item) (result : Term) :
    ∃ statements rest, assemble items result = sequence statements rest ∧
      ∀ term, assemble (statement term :: items) result = sequence (term :: statements) rest :=
  ⟨_, _, rfl, fun _ ↦ rfl⟩

end Item

namespace Parsing

def constItem (expression : Parser Term) : Parser Item := do
  advance
  let name ← identifier .constName
  consume .equals .constEquals
  let init ← expression
  consume .semicolon .constEnd
  return .const name init

/-- Whether the current token is the end token. -/
def atEnd : Parser Bool := isAt .endOfInput

/-- The items of a program and its result, with at most so many items.  A semicolon after the result
is allowed. -/
def itemsAndResult (dialect : Dialect) (expression : Parser Term) : Nat → Parser (List Item × Term)
  | 0 => do
    let result ← expression
    return ([], result)
  | rounds + 1 => do
    if ← isAt .const then
      requireExtended dialect .constBinding
      let item ← constItem expression
      let (items, result) ← itemsAndResult dialect expression rounds
      return (item :: items, result)
    else
      let term ← expression
      if ← isAt .semicolon then
        advance
        if ← atEnd then return ([], term)
        else
          requireExtended dialect .statementSequence
          let (items, result) ← itemsAndResult dialect expression rounds
          return (.statement term :: items, result)
      else return ([], term)

/-- A whole program, up to the end token. -/
def program (dialect : Dialect) : Parser Term := fun s ↦
  let expression := expression dialect (nestingLimit - s.depth)
  let parser : Parser Term := do
    let (items, result) ← itemsAndResult dialect expression s.ahead.length
    if ← atEnd then return Item.assemble items result else unexpected
  parser s

/-- A whole program of the arithmetic dialect. -/
def arithProgram : Parser Arith.Term := do
  let term ← program .arith
  match Arith.restrict term with
  | .ok term => return term
  | .error construct => fun s ↦ .error ⟨.notArithmetic construct, s.first.position⟩ s

end Parsing

/-- A parser at work on one text, in a dialect of its own. -/
structure Session where
  dialect : Dialect
  state : Parsing.State

namespace Session

variable {α : Type}

def ofString (dialect : Dialect) (source : String) : Session := ⟨dialect, .ofString source⟩

/-- Runs a parser from where the session stands. -/
def run (session : Session) (parser : Parsing.Parser α) : Except ParseError α × Session :=
  match parser session.state with
  | .ok value state => (.ok value, { session with state })
  | .error error state => (.error error, { session with state })

/-- Reads a program of the session's dialect. -/
def parse (session : Session) : Except ParseError Term × Session :=
  session.run (Parsing.program session.dialect)

/-- Reads an arithmetic program, whatever the session's dialect. -/
def parseArith (session : Session) : Except ParseError Arith.Term × Session :=
  session.run Parsing.arithProgram

end Session

/-- The program of a text in the extended dialect. -/
def parse (source : String) : Except ParseError Term := (Session.ofString .basic source).parse.1

/-- The program of a text in the arithmetic dialect. -/
def parseArith (source : String) : Except ParseError Arith.Term :=
  (Session.ofString .arith source).parseArith.1

end ArrowLang
