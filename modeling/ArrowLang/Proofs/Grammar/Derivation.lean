import ArrowLang.Parsing.Program

/-!
# Derivations

The grammar of types, expressions and programs, as derivation trees.

    type    := 'number' | 'boolean' | '(' params? ')' '=>' type
    params  := IDENT ':' type ( ',' IDENT ':' type )*
    expr    := add ( '?' expr ':' expr )?
    add     := call ( '+' call )*
    call    := primary ( '(' args? ')' )*
    args    := expr ( ',' expr )*
    primary := 'true' | 'false' | NUMBER | IDENT | '(' params? ')' '=>' expr | '(' expr ')'
    program := ( 'const' IDENT '=' expr ';' | expr ';' )* expr ';'?

A derivation determines the terminals it spells, the term or type it denotes, and its depth, the
largest number of expressions and types inside each other.  The grammar is ambiguous about where the
body of a function ends; only the greedy reading counts, in which a body reaches as far as it can.
-/

namespace ArrowLang

/-- What the grammar sees of a token: the kind, and the text where the kind leaves it open. -/
structure Terminal where
  kind : TokenKind
  text : String
deriving DecidableEq

namespace TokenKind

/-- The kind is a keyword or a punctuation mark, of which there is only one text. -/
def isMark : TokenKind → Bool
  | number | ident | unknown | endOfInput => false
  | _ => true

/-- An expression goes on when a token of the kind follows. -/
def continues : TokenKind → Bool
  | leftParen | plus | question => true
  | _ => false

/-- An expression may start with a token of the kind. -/
def startsExpr : TokenKind → Bool
  | number | boolean _ | ident | leftParen => true
  | _ => false

end TokenKind

def Token.terminal (token : Token) : Terminal :=
  ⟨token.kind, if token.kind.isMark then "" else token.lexeme⟩

namespace Terminal

/-- A keyword or a punctuation mark. -/
def mark (kind : TokenKind) : Terminal := ⟨kind, ""⟩

def ident (name : String) : Terminal := ⟨.ident, name⟩

def number (lexeme : String) : Terminal := ⟨.number, lexeme⟩

@[simp]
theorem mark_kind (kind : TokenKind) : (mark kind).kind = kind := rfl

@[simp]
theorem ident_kind (name : String) : (ident name).kind = .ident := rfl

@[simp]
theorem number_kind (lexeme : String) : (number lexeme).kind = .number := rfl

end Terminal

namespace Grammar

/-- The kind of the first terminal; after the last one comes the end of the input. -/
def nextKind : List Terminal → TokenKind
  | [] => .endOfInput
  | terminal :: _ => terminal.kind

@[simp]
theorem nextKind_nil : nextKind [] = .endOfInput := rfl

@[simp]
theorem nextKind_cons (terminal : Terminal) (rest : List Terminal) :
    nextKind (terminal :: rest) = terminal.kind := rfl

/-- What may stand in a list with commas. -/
inductive Listed
  | param
  | argument

inductive Nonterminal
  | type
  /-- A parameter or an expression. -/
  | item (listed : Listed)
  | add
  /-- The operands of an addition after the first. -/
  | addTail
  | call
  /-- The argument lists of a call. -/
  | callTail
  | primary
  | program
  /-- At least one item, with commas between them. -/
  | series (listed : Listed)
  /-- A series or nothing. -/
  | list (listed : Listed)

namespace Nonterminal

@[match_pattern]
abbrev param : Nonterminal := item .param

@[match_pattern]
abbrev expr : Nonterminal := item .argument

end Nonterminal

inductive Derivation : Nonterminal → Type
  | numberType : Derivation .type
  | booleanType : Derivation .type
  | functionType (params : Derivation (.list .param)) (result : Derivation .type) : Derivation .type
  | param (name : String) (type : Derivation .type) : Derivation .param
  | plain (sum : Derivation .add) : Derivation .expr
  | conditional (cond : Derivation .add) (thenBranch elseBranch : Derivation .expr) :
      Derivation .expr
  | add (first : Derivation .call) (others : Derivation .addTail) : Derivation .add
  | endAdd : Derivation .addTail
  | plus (operand : Derivation .call) (others : Derivation .addTail) : Derivation .addTail
  | call (callee : Derivation .primary) (arguments : Derivation .callTail) : Derivation .call
  | endCall : Derivation .callTail
  | apply (args : Derivation (.list .argument)) (others : Derivation .callTail) :
      Derivation .callTail
  | boolean (value : Bool) : Derivation .primary
  | number (lexeme : String) : Derivation .primary
  | var (name : String) : Derivation .primary
  | function (params : Derivation (.list .param)) (body : Derivation .expr) : Derivation .primary
  | group (inner : Derivation .expr) : Derivation .primary
  | const (name : String) (init : Derivation .expr) (rest : Derivation .program) :
      Derivation .program
  | statement (term : Derivation .expr) (rest : Derivation .program) : Derivation .program
  /-- The last expression of a program, with a semicolon after it or not. -/
  | final (term : Derivation .expr) (semicolon : Bool) : Derivation .program
  | last {listed : Listed} (item : Derivation (.item listed)) : Derivation (.series listed)
  | more {listed : Listed} (item : Derivation (.item listed))
      (others : Derivation (.series listed)) : Derivation (.series listed)
  | noItems {listed : Listed} : Derivation (.list listed)
  | items {listed : Listed} (series : Derivation (.series listed)) : Derivation (.list listed)

/-- The value of a numeral; every numeral of a text denotes a decimal. -/
def numeralValue (lexeme : String) : Binary64 :=
  ((Decimal.ofText? lexeme).getD ⟨0, 0⟩).toBinary64

@[reducible]
def Listed.Value : Listed → Type
  | param => Param
  | argument => Term

/-- What derivations of a nonterminal denote.  The tails of additions and calls denote what becomes
of the term to their left. -/
@[reducible]
def Nonterminal.Value : Nonterminal → Type
  | type => Ty
  | item listed => listed.Value
  | add | call | primary => Term
  | addTail | callTail => Term → Term
  | program => List ArrowLang.Item × Term
  | series listed | list listed => List listed.Value

namespace Derivation

open Terminal (mark ident)

variable {n : Nonterminal}

/-- The sentence of a derivation. -/
@[simp]
def terminals {n : Nonterminal} : Derivation n → List Terminal
  | numberType => [ident "number"]
  | booleanType => [ident "boolean"]
  | functionType params result =>
    mark .leftParen :: (params.terminals ++ mark .rightParen :: mark .arrow :: result.terminals)
  | param name type => ident name :: mark .colon :: type.terminals
  | plain sum => sum.terminals
  | conditional cond thenBranch elseBranch =>
    cond.terminals ++
      mark .question :: (thenBranch.terminals ++ mark .colon :: elseBranch.terminals)
  | add first others => first.terminals ++ others.terminals
  | endAdd => []
  | plus operand others => mark .plus :: (operand.terminals ++ others.terminals)
  | call callee arguments => callee.terminals ++ arguments.terminals
  | endCall => []
  | apply args others =>
    mark .leftParen :: (args.terminals ++ mark .rightParen :: others.terminals)
  | boolean value => [mark (.boolean value)]
  | number lexeme => [.number lexeme]
  | var name => [ident name]
  | function params body =>
    mark .leftParen :: (params.terminals ++ mark .rightParen :: mark .arrow :: body.terminals)
  | group inner => mark .leftParen :: (inner.terminals ++ [mark .rightParen])
  | const name init rest =>
    mark .const :: ident name :: mark .equals ::
      (init.terminals ++ mark .semicolon :: rest.terminals)
  | statement term rest => term.terminals ++ mark .semicolon :: rest.terminals
  | final term semicolon => term.terminals ++ if semicolon then [mark .semicolon] else []
  | last item => item.terminals
  | more item others => item.terminals ++ mark .comma :: others.terminals
  | noItems => []
  | items series => series.terminals

/-- The largest number of expressions and types on a path from the root. -/
@[simp]
def depth {n : Nonterminal} : Derivation n → Nat
  | numberType | booleanType => 1
  | functionType params result => max params.depth result.depth + 1
  | param _ type => type.depth
  | plain sum => sum.depth + 1
  | conditional cond thenBranch elseBranch =>
    max cond.depth (max thenBranch.depth elseBranch.depth) + 1
  | add first others => max first.depth others.depth
  | plus operand others => max operand.depth others.depth
  | call callee arguments => max callee.depth arguments.depth
  | apply args others => max args.depth others.depth
  | function params body => max params.depth body.depth
  | group inner => inner.depth
  | const _ init rest => max init.depth rest.depth
  | statement term rest => max term.depth rest.depth
  | final term _ => term.depth
  | last item => item.depth
  | more item others => max item.depth others.depth
  | items series => series.depth
  | boolean _ | number _ | var _ | endAdd | endCall | noItems => 0

/-- What a derivation denotes: additions and calls nest to the left, parentheses leave no trace. -/
@[simp]
def value {n : Nonterminal} : Derivation n → n.Value
  | numberType => Ty.number
  | booleanType => Ty.boolean
  | functionType params result => Ty.function params.value result.value
  | param name type => (⟨name, type.value⟩ : Param)
  | plain sum => sum.value
  | conditional cond thenBranch elseBranch =>
    Term.conditional cond.value thenBranch.value elseBranch.value
  | add first others => others.value first.value
  | endAdd => fun left ↦ left
  | plus operand others => fun left ↦ others.value (Term.add left operand.value)
  | call callee arguments => arguments.value callee.value
  | endCall => fun callee ↦ callee
  | apply args others => fun callee ↦ others.value (Term.call callee args.value)
  | boolean value => Term.boolean value
  | number lexeme => Term.number (numeralValue lexeme)
  | var name => Term.var name
  | function params body => Term.function params.value body.value
  | group inner => inner.value
  | const name init rest => (.const name init.value :: rest.value.1, rest.value.2)
  | statement term rest => (.statement term.value :: rest.value.1, rest.value.2)
  | final term _ => ([], term.value)
  | last item => [item.value]
  | more item others => item.value :: others.value
  | noItems => []
  | items series => series.value

/-- No function in the derivation is directly followed by an opening parenthesis, a plus or a
question mark, when `rest` follows the derivation.  So the body of a function ends only where it
cannot go on. -/
@[simp]
def Greedy {n : Nonterminal} : Derivation n → List Terminal → Prop
  | numberType, _ | booleanType, _ | endAdd, _ | endCall, _ | noItems, _ => True
  | boolean _, _ | number _, _ | var _, _ => True
  | functionType params result, rest =>
    params.Greedy (mark .rightParen :: mark .arrow :: (result.terminals ++ rest)) ∧
      result.Greedy rest
  | param _ type, rest => type.Greedy rest
  | plain sum, rest => sum.Greedy rest
  | conditional cond thenBranch elseBranch, rest =>
    cond.Greedy (mark .question ::
      (thenBranch.terminals ++ mark .colon :: (elseBranch.terminals ++ rest))) ∧
    thenBranch.Greedy (mark .colon :: (elseBranch.terminals ++ rest)) ∧ elseBranch.Greedy rest
  | add first others, rest => first.Greedy (others.terminals ++ rest) ∧ others.Greedy rest
  | plus operand others, rest => operand.Greedy (others.terminals ++ rest) ∧ others.Greedy rest
  | call callee arguments, rest =>
    callee.Greedy (arguments.terminals ++ rest) ∧ arguments.Greedy rest
  | apply args others, rest =>
    args.Greedy (mark .rightParen :: (others.terminals ++ rest)) ∧ others.Greedy rest
  | function params body, rest =>
    params.Greedy (mark .rightParen :: mark .arrow :: (body.terminals ++ rest)) ∧
      body.Greedy rest ∧ (nextKind rest).continues = false
  | group inner, rest => inner.Greedy (mark .rightParen :: rest)
  | const _ init prog, rest =>
    init.Greedy (mark .semicolon :: (prog.terminals ++ rest)) ∧ prog.Greedy rest
  | statement term prog, rest =>
    term.Greedy (mark .semicolon :: (prog.terminals ++ rest)) ∧ prog.Greedy rest
  | final term semicolon, rest =>
    term.Greedy ((if semicolon then [mark .semicolon] else []) ++ rest)
  | last item, rest => item.Greedy rest
  | more item others, rest =>
    item.Greedy (mark .comma :: (others.terminals ++ rest)) ∧ others.Greedy rest
  | items series, rest => series.Greedy rest

/-- A primary as a whole expression. -/
@[simp]
def ofPrimary (primary : Derivation .primary) : Derivation .expr :=
  plain (add (call primary endCall) endAdd)

/-- The term of a whole program. -/
def term (program : Derivation .program) : Term :=
  ArrowLang.Item.assemble program.value.1 program.value.2

/-- The derivation, read greedily, has the sentence. -/
structure Derives (program : Derivation .program) (sentence : List Terminal) : Prop where
  terminals_eq : program.terminals = sentence
  greedy : program.Greedy []

end Derivation

end Grammar

end ArrowLang
