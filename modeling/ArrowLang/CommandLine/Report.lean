import ArrowLang.CommandLine.Arguments
import ArrowLang.Text.Quoted
import ArrowLang.Verdict

/-!
# Reports

What a run of the program leaves behind: an exit code, its output and a diagnostic.  Reading files
and the standard input is left to the caller, which hands over the bytes or the reason why there are
none.
-/

namespace ArrowLang.CommandLine

structure Report where
  exitCode : UInt8
  output : String := ""
  diagnostic : Option String := none
deriving DecidableEq

/-- Why bytes could not be read. -/
inductive ReadFailure
  | notFound
  | isDirectory
  | other (reason : String)

def ReadFailure.reason : ReadFailure → String
  | notFound => "No such file or directory (os error 2)"
  | isDirectory => "Is a directory (os error 21)"
  | other reason => reason

def invalidText : String := "stream did not contain valid UTF-8"

def Report.success (output : String) : Report := ⟨0, output ++ "\n", none⟩

def Report.failure (diagnostic : String) : Report := ⟨1, "", some diagnostic⟩

/-- A file that could not be read, or whose bytes are no text. -/
def Report.unreadableFile (path reason : String) : Report :=
  .failure ("Error: " ++ Text.quoted ("Failed to read " ++ path ++ ": " ++ reason))

/-- A standard input that could not be read. -/
def Report.unreadableInput (failure : ReadFailure) : Report :=
  .failure ("Error: " ++ failure.reason)

/-- A standard input whose bytes are no text. -/
def Report.garbledInput : Report :=
  .failure ("Error: Error \x7b kind: InvalidData, message: " ++ Text.quoted invalidText ++ " \x7d")

/-- The program text of an input, or the report on why there is none. -/
def Input.load (read : Input → Except ReadFailure ByteArray) (input : Input) :
    Except Report String :=
  match input with
  | .text source => .ok source
  | .file path =>
    match read input with
    | .error failure => .error (.unreadableFile path failure.reason)
    | .ok bytes =>
      match String.fromUTF8? bytes with
      | some source => .ok source
      | none => .error (.unreadableFile path invalidText)
  | .standardInput =>
    match read input with
    | .error failure => .error (.unreadableInput failure)
    | .ok bytes =>
      match String.fromUTF8? bytes with
      | some source => .ok source
      | none => .error .garbledInput

/-- The text that an action prints for a program, or the message of its error. -/
def Action.perform (action : Action) (dialect : Dialect) (source : String) :
    Except String String :=
  match action, dialect with
  | .check, _ => ((verdict dialect source).map ProgramType.text).mapError CheckError.message
  | .parse, .basic => ((ArrowLang.parse source).map Term.text).mapError ParseError.message
  | .parse, .arith => ((parseArith source).map Arith.Term.text).mapError ParseError.message

def usageText : String :=
  "Usage: tinyts [-v] check|parse [INPUT] [-e SOURCE] [-d arith|basic]\n" ++
    "       tinyts completions bash|elvish|fish|powershell|zsh"

/-- Completions are not provided: only the name of the shell is checked. -/
def Invocation.report (invocation : Invocation) (read : Input → Except ReadFailure ByteArray) :
    Report :=
  match invocation with
  | .completions _ => ⟨0, "", none⟩
  | .source action dialect input =>
    match input.load read with
    | .error report => report
    | .ok program =>
      match action.perform dialect program with
      | .ok text => .success text
      | .error message => .failure ("error: " ++ message)

def Halt.report : Halt → Report
  | .usage => ⟨2, "", some usageText⟩
  | .version program => .success (program ++ " 0.1.0")
  | .help => .success usageText

/-- The report on a run with the given arguments. -/
def run (arguments : List String) (read : Input → Except ReadFailure ByteArray) : Report :=
  match readArguments arguments with
  | .ok invocation => invocation.report read
  | .error halt => halt.report

end ArrowLang.CommandLine
