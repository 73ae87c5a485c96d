import ClassFormat.Report.Run

/-!
# The program `classview`

The program takes the path of a class file and prints a report on it.  A variable of the environment
says which log records are shown.

`main` only does what cannot be a function: `findSource` looks for the file and reads it, and
`environmentFilter` asks for the variable.  All that is made of the two is `Report.run`.  A file
that is missing is an outcome of the run, and any other trouble with the file system is left to
whoever has started the program.
-/

set_option autoImplicit false

namespace ClassFormat

/-- The file with a path, as the program finds it. -/
def findSource (path : String) : IO Report.Source := do
  try
    let bytes ← IO.FS.readBinFile path
    return .file path bytes.toList
  catch e =>
    match e with
    | .noFileOrDirectory .. => return .missing
    | e => throw e

/-- The filter that the environment asks for. -/
def environmentFilter : IO LogFilter := do
  match ← IO.getEnv "RUST_LOG" with
  | some text => return .ofText text
  | none => return .silent

end ClassFormat

/-- Looks for the file, and prints what the run on it gives. -/
def main (arguments : List String) : IO UInt32 := do
  let filter ← ClassFormat.environmentFilter
  let source ←
    match arguments with
    | path :: _ => ClassFormat.findSource path
    | [] => pure .unnamed
  let outcome := ClassFormat.Report.run filter source
  IO.eprint outcome.errorOutput
  IO.print outcome.output
  return outcome.exitCode
