import ArrowLang.CommandLine.Report

/-!
# The program

Reads the input that the arguments name, and prints the report.
-/

open ArrowLang.CommandLine

namespace ArrowLang.Main

/-- The bytes of a file. -/
def readFile (path : String) : IO (Except ReadFailure ByteArray) := do
  try
    return .ok (← IO.FS.readBinFile path)
  catch error =>
    match error with
    | .noFileOrDirectory .. => return .error .notFound
    | .inappropriateType .. => return .error .isDirectory
    | error => return .error (.other (toString error))

/-- The bytes of the standard input, up to its end. -/
def readStandardInput : IO (Except ReadFailure ByteArray) := do
  try
    return .ok (← (← IO.getStdin).readBinToEnd)
  catch error => return .error (.other (toString error))

/-- The bytes that an input stands for. -/
def readInput : Input → IO (Except ReadFailure ByteArray)
  | .text source => return .ok source.toUTF8
  | .file path => readFile path
  | .standardInput => readStandardInput

/-- The report on a run, after reading the input it needs. -/
def report (arguments : List String) : IO Report := do
  match readArguments arguments with
  | .ok (.source action dialect input) =>
    let bytes ← readInput input
    return (Invocation.source action dialect input).report fun _ ↦ bytes
  | .ok invocation => return invocation.report fun _ ↦ .error .notFound
  | .error halt => return halt.report

end ArrowLang.Main

def main (arguments : List String) : IO UInt32 := do
  let report ← ArrowLang.Main.report arguments
  IO.print report.output
  match report.diagnostic with
  | some line => IO.eprintln line
  | none => pure ()
  return report.exitCode.toUInt32
