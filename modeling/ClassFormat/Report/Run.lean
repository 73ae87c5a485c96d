import ClassFormat.ClassFile.Decode
import ClassFormat.ClassFile.Document
import ClassFormat.Report.Lines
import ClassFormat.Report.LogFilter

/-!
# A run of the program

The program is given a file, decodes it and prints the report.  What it prints and how it ends are a
function of the file and of the filter for log records: `run` gives the `Outcome`.  The log and the
error go to the error output, the report to the standard output, and the exit code is zero exactly
if nothing failed.

## What is here

* `Source` — what there is to run on: no file was named, or there is no such file, or there is one
  and these are its bytes.
* `openingLines` and `decodingLines` — the log as far as the filter lets it pass: one record before
  the file is decoded, and then those that decoding has made.
* `refusalLines` — what was wrong with the filter.  This comes first, since the filter is read
  before anything is done.
* `failed` — a run that stops before it has a file to decode.  An empty file is one of these: it
  cannot be mapped, and nothing is said about its being no class file.
* `runOn` — a run on the bytes of a file.  When the report fails, the lines in front of the failure
  are printed, and then the run fails as it does on a file that cannot be decoded.
-/

set_option autoImplicit false

namespace ClassFormat
namespace Report

/-- What the program finds when it looks for its file. -/
inductive Source
  /-- No file was named. -/
  | unnamed
  /-- There is no such file. -/
  | missing
  /-- A file and its bytes. -/
  | file (path : String) (bytes : List UInt8)

/-- What a run prints, and how it ends. -/
structure Outcome where
  exitCode : UInt32
  output : String
  errorOutput : String
deriving DecidableEq, Repr

/-- The place that the program's own records come from. -/
def programPlace : String := "classview"

/-- The place that the decoder's records come from. -/
def decoderPlace : String := "classview_class_file::parser"

/-- Lines, each with its end. -/
def withLineEnds (lines : List String) : String :=
  lines.foldl (fun out line => out ++ line ++ "\n") ""

/-- The line of a record. -/
def recordLine (level : LogLevel) (place message : String) : String :=
  " " ++ level.name ++ " " ++ place ++ " > " ++ message

/-- The record made before a file is decoded. -/
def openingLines (filter : LogFilter) (path : String) (bytes : List UInt8) : List String :=
  let message := "decoding " ++ path ++ " (" ++ toString bytes.length ++ " bytes)"
  if filter.admits programPlace .debug && filter.matchesWording message then
    [recordLine .debug programPlace message]
  else
    []

/-- The records made while a file is decoded.  Only those that the level lets pass are put into
words. -/
def decodingLines (filter : LogFilter) (log : Array LogRecord) : List String :=
  (log.toList.filter fun r => filter.admits decoderPlace r.level).filterMap fun r =>
    let message := r.message
    if filter.matchesWording message then some (recordLine r.level decoderPlace message) else none

/-- What was passed over in the filter, which is told before anything else. -/
def refusalLines (filter : LogFilter) : List String := filter.refusals.map Refusal.message

/-- The line that tells why a run has failed. -/
def errorLine (reason : String) : String := "Error: " ++ reason

/-- The debug text of a failed attempt to map an empty file. -/
def emptyFileReason : String :=
  "Custom \x7b kind: InvalidInput, error: \"memory map must have a non-zero length\" \x7d"

/-- The debug text of a failed attempt to open a file. -/
def missingFileReason : String :=
  "Os \x7b code: 2, kind: NotFound, message: \"No such file or directory\" \x7d"

/-- A run that failed before it had anything to report. -/
def failed (filter : LogFilter) (reason : String) : Outcome :=
  ⟨1, "", withLineEnds (refusalLines filter ++ [errorLine reason])⟩

/-- A run on the bytes of a file. -/
def runOn (filter : LogFilter) (path : String) (bytes : List UInt8) : Outcome :=
  let (result, progress) := ClassFile.run bytes
  let log := refusalLines filter ++ openingLines filter path bytes
    ++ decodingLines filter progress.log
  match result with
  | .error e => ⟨1, "", withLineEnds (log ++ [errorLine e.document.compact])⟩
  | .ok c =>
    match printed (steps c) with
    | (lines, none) => ⟨0, withLineEnds lines, withLineEnds log⟩
    | (lines, some e) =>
      ⟨1, withLineEnds lines, withLineEnds (log ++ [errorLine e.document.compact])⟩

/-- A run of the program. -/
def run (filter : LogFilter) : Source → Outcome
  | .unnamed => failed filter (Quoted.quoted "usage: classview <path to .class file>")
  | .missing => failed filter missingFileReason
  | .file _ [] => failed filter emptyFileReason
  | .file path bytes => runOn filter path bytes

end Report
end ClassFormat
