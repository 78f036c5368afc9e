import ArrowLang.Dialect

/-!
# Command line arguments

Arguments are read from left to right.  Options may stand before or after other words, short options
may be combined, a value may be attached to its option or follow it, and two dashes make everything
after them a word.  Reading stops at the first fault and at a request for the version or for help.
-/

namespace ArrowLang.CommandLine

inductive Action
  | check
  | parse
deriving DecidableEq

/-- Where a program text comes from. -/
inductive Input
  | text (source : String)
  | file (path : String)
  | standardInput
deriving DecidableEq

inductive Shell
  | bash
  | elvish
  | fish
  | powershell
  | zsh
deriving DecidableEq

inductive Invocation
  | source (action : Action) (dialect : Dialect) (input : Input)
  | completions (shell : Shell)
deriving DecidableEq

/-- Why reading stopped before the end. -/
inductive Halt
  /-- The arguments make no sense. -/
  | usage
  /-- The version was asked for, of the program or of one of its commands. -/
  | version (program : String)
  | help
deriving DecidableEq

def Shell.ofName? : String → Option Shell
  | "bash" => some .bash
  | "elvish" => some .elvish
  | "fish" => some .fish
  | "powershell" => some .powershell
  | "zsh" => some .zsh
  | _ => none

inductive Command
  | source (action : Action)
  | completions
deriving DecidableEq

namespace Command

def name : Command → String
  | source .check => "check"
  | source .parse => "parse"
  | completions => "completions"

def ofName? : String → Option Command
  | "check" => some (source .check)
  | "parse" => some (source .parse)
  | "completions" => some completions
  | _ => none

/-- The program's name, with the command after a dash. -/
def program (command : Command) : String := "tinyts-" ++ command.name

end Command

/-- The outer form of an argument. -/
inductive Argument
  | endOfOptions
  | long (name : String) (value : Option String)
  | short (letters : List Char)
  | word (text : String)
deriving DecidableEq

/-- A single dash and everything without a leading dash is a word. -/
def Argument.ofString (argument : String) : Argument :=
  match argument.toList with
  | ['-', '-'] => .endOfOptions
  | '-' :: '-' :: rest =>
    let name := String.ofList (rest.takeWhile (· != '='))
    match rest.dropWhile (· != '=') with
    | [] => .long name none
    | _ :: value => .long name (some (String.ofList value))
  | '-' :: letter :: letters => .short (letter :: letters)
  | _ => .word argument

/-- The options without a value. -/
inductive Flag
  | verbose
  | version
  | help
deriving DecidableEq

namespace Flag

def ofLetter? : Char → Option Flag
  | 'v' => some verbose
  | 'V' => some version
  | 'h' => some help
  | _ => none

def ofName? : String → Option Flag
  | "verbose" => some verbose
  | "version" => some version
  | "help" => some help
  | _ => none

/-- Takes a flag into account; verbosity only concerns the log. -/
def act (program : String) : Flag → Except Halt Unit
  | verbose => .ok ()
  | version => .error (.version program)
  | help => .error .help

end Flag

/-- The options with a value. -/
inductive ValueOption
  | expr
  | dialect
deriving DecidableEq

namespace ValueOption

def ofLetter? : Char → Option ValueOption
  | 'e' => some expr
  | 'd' => some dialect
  | _ => none

def ofName? : String → Option ValueOption
  | "expr" => some expr
  | "dialect" => some dialect
  | _ => none

end ValueOption

/-! ## The arguments of a command -/

/-- What the arguments of a command have given so far. -/
structure Given where
  expr : Option String := none
  dialect : Option Dialect := none
  word : Option String := none
  /-- The option whose value has to come next. -/
  waiting : Option ValueOption := none
  /-- Two dashes have ended the options. -/
  wordsOnly : Bool := false

namespace Given

/-- Gives an option its value; an option has one value at most. -/
def setOption (given : Given) (option : ValueOption) (value : String) : Except Halt Given :=
  match option with
  | .expr =>
    if given.expr.isSome then .error .usage else .ok { given with expr := some value, waiting := none }
  | .dialect =>
    match given.dialect, Dialect.ofName? value with
    | none, some dialect => .ok { given with dialect := some dialect, waiting := none }
    | _, _ => .error .usage

/-- Adds a word; a command has one word at most, and completions are for a known shell. -/
def addWord (given : Given) (command : Command) (text : String) : Except Halt Given :=
  if given.word.isSome || (command == .completions && (Shell.ofName? text).isNone) then
    .error .usage
  else .ok { given with word := some text }

end Given

/-- Only the commands that read a program have options with values. -/
def Command.hasValueOptions : Command → Bool
  | .source _ => true
  | .completions => false

/-- Reads combined short options: flags one by one, and the rest of the letters as the value of the
first option that takes one. -/
def readShort (command : Command) (given : Given) : List Char → Except Halt Given
  | [] => .ok given
  | letter :: letters =>
    match Flag.ofLetter? letter with
    | some flag => do
      flag.act command.program
      readShort command given letters
    | none =>
      match ValueOption.ofLetter? letter with
      | some option =>
        if command.hasValueOptions then
          match letters with
          | [] => .ok { given with waiting := some option }
          | '=' :: value => given.setOption option (String.ofList value)
          | value => given.setOption option (String.ofList value)
        else .error .usage
      | none => .error .usage

/-- Reads a long option; a flag has no value. -/
def readLong (command : Command) (given : Given) (name : String) (value : Option String) :
    Except Halt Given :=
  match Flag.ofName? name, value with
  | some flag, none => do
    flag.act command.program
    return given
  | some _, some _ => .error .usage
  | none, _ =>
    match ValueOption.ofName? name with
    | some option =>
      if command.hasValueOptions then
        match value with
        | some value => given.setOption option value
        | none => .ok { given with waiting := some option }
      else .error .usage
    | none => .error .usage

/-- Reads the next argument of a command.  A value that follows its option has to be a word. -/
def readArgument (command : Command) (given : Given) (argument : String) : Except Halt Given :=
  if given.wordsOnly then given.addWord command argument
  else
    match given.waiting, Argument.ofString argument with
    | some option, .word value => given.setOption option value
    | some _, _ => .error .usage
    | none, .endOfOptions => .ok { given with wordsOnly := true }
    | none, .long name value => readLong command given name value
    | none, .short letters => readShort command given letters
    | none, .word text => given.addWord command text

/-- What a command is asked to do, once all its arguments are read. -/
def Given.invocation (given : Given) (command : Command) : Except Halt Invocation :=
  match given.waiting, command with
  | some _, _ => .error .usage
  | none, .completions =>
    match given.word.bind Shell.ofName? with
    | some shell => .ok (.completions shell)
    | none => .error .usage
  | none, .source action =>
    let dialect := given.dialect.getD .basic
    match given.expr, given.word with
    | some _, some _ => .error .usage
    | some source, none => .ok (.source action dialect (.text source))
    | none, some "-" => .ok (.source action dialect .standardInput)
    | none, some path => .ok (.source action dialect (.file path))
    | none, none => .ok (.source action dialect .standardInput)

/-- Reads the arguments after the name of a command. -/
def readCommand (command : Command) (arguments : List String) : Except Halt Invocation := do
  let given ← arguments.foldlM (readArgument command) {}
  given.invocation command

/-- Reads combined short options before the name of a command. -/
def readFlags : List Char → Except Halt Unit
  | [] => .ok ()
  | letter :: letters =>
    match Flag.ofLetter? letter with
    | some flag => do
      flag.act "tinyts"
      readFlags letters
    | none => .error .usage

/-- What follows the word `help`: nothing, or the one command that help is asked on. -/
def readHelp : List String → Halt
  | [] => .help
  | ["help"] => .help
  | [name] => if (Command.ofName? name).isSome then .help else .usage
  | _ => .usage

/-- Reads all arguments of the program: flags, the name of a command, and its arguments. -/
def readArguments : List String → Except Halt Invocation
  | [] => .error .usage
  | argument :: arguments =>
    match Argument.ofString argument with
    | .endOfOptions => .error .usage
    | .long name none =>
      match Flag.ofName? name with
      | some flag => do
        flag.act "tinyts"
        readArguments arguments
      | none => .error .usage
    | .long _ (some _) => .error .usage
    | .short letters => do
      readFlags letters
      readArguments arguments
    | .word name =>
      match Command.ofName? name with
      | some command => readCommand command arguments
      | none => .error (if name = "help" then readHelp arguments else .usage)

end ArrowLang.CommandLine
