import MessageConformance.Data.Json.Writer
import MessageConformance.Report.Format
import MessageConformance.Report.Results

/-!
# Printing results

Results for people, one line a file and a summary, and for programs, as JSON.
-/

namespace MessageConformance

open Data (Value)

/-! ## For people -/

/-- The mark of a finding that aborts the pipeline. -/
def Action.mark : Action → String
  | abort => " [abort]"
  | proceed => ""

/-- The first word of a file's line. -/
def Status.label : Status → String
  | valid => "✓ VALID"
  | invalid _ => "✗ INVALID"
  | nonConformant _ _ => "✗ NONCONFORMANT"
  | error _ => "⚠ ERROR"
  | skipped _ => "- SKIPPED"

/-- What a file's line says after its duration. -/
def Status.remark (s : Status) (action : Action) : String :=
  match s with
  | valid => ""
  | invalid errorCount =>
    " - " ++ toString errorCount ++ (if errorCount = 1 then " error" else " errors") ++ action.mark
  | nonConformant ebms message => " - " ++ ebms ++ " " ++ message ++ action.mark
  | error message => " - " ++ message
  | skipped reason => " - " ++ reason

/-- The line of a file, and the lines of its details if they are asked for. -/
def FileResult.line (verbosity : Verbosity) (f : FileResult) : String :=
  let line := f.status.label ++ "  " ++ f.path ++ " (" ++ f.duration.text ++ ")" ++
    f.status.remark f.action
  if verbosity = .verbose && f.status.isInvalid then
    line ++ String.join (f.details.map fun detail => "\n    " ++ detail)
  else line

def FileResult.isListed (verbosity : Verbosity) (f : FileResult) : Bool :=
  match verbosity with
  | .verbose => !f.status.isValid
  | .quiet | .normal => f.status.isFailure

namespace Results

/-- A line of the summary that is left out when there is nothing to count. -/
def countLine (label : String) (count : Nat) : String :=
  if count = 0 then "" else "  " ++ label ++ ": " ++ toString count ++ "\n"

/-- The success rate with one decimal. -/
def rateText (r : Results) : String :=
  let (num, den) := Text.exactFraction r.successRate
  Text.fixedDecimals 1 num den ++ "%"

def summary (r : Results) : String :=
  "Validation Summary:\n" ++
  "  Total files: " ++ toString r.totalFiles ++ "\n" ++
  "  Valid: " ++ toString (r.count Status.isValid) ++ "\n" ++
  countLine "Invalid" (r.count Status.isInvalid) ++
  countLine "Non-conformant" (r.count Status.isNonConformant) ++
  countLine "Errors" (r.count Status.isError) ++
  countLine "Skipped" (r.count Status.isSkipped) ++
  countLine "Aborted" r.abortedFiles ++
  "  Success rate: " ++ r.rateText ++ "\n" ++
  "  Duration: " ++ r.totalDuration.text ++ "\n"

/-- Results for people. -/
def humanText (verbosity : Verbosity) (r : Results) : String :=
  String.join ((r.files.filter (·.isListed verbosity)).map fun f => f.line verbosity ++ "\n") ++
    (if verbosity = .quiet then "" else r.summary)

end Results

/-! ## For programs -/

def Duration.toValue (d : Duration) : Value :=
  .record [("secs", .integer d.seconds), ("nanos", .integer d.subsecond)]

def Status.toValue : Status → Value
  | valid => .record [("kind", .text "valid")]
  | invalid errorCount =>
    .record [("kind", .text "invalid"), ("error_count", .integer errorCount)]
  | nonConformant ebms message =>
    .record [("kind", .text "non_conformant"), ("ebms_code", .text ebms),
      ("message", .text message)]
  | error message => .record [("kind", .text "error"), ("message", .text message)]
  | skipped reason => .record [("kind", .text "skipped"), ("reason", .text reason)]

def FileResult.toValue (f : FileResult) : Value :=
  .record [("path", .text f.path), ("status", f.status.toValue),
    ("action", .text f.action.name), ("duration", f.duration.toValue),
    ("error_details", .list (f.details.map .text))]

namespace Results

def toValue (r : Results) : Value :=
  .record [("total_files", .integer r.totalFiles),
    ("valid_files", .integer (r.count Status.isValid)),
    ("invalid_files", .integer (r.count Status.isInvalid)),
    ("non_conformant_files", .integer (r.count Status.isNonConformant)),
    ("error_files", .integer (r.count Status.isError)),
    ("skipped_files", .integer (r.count Status.isSkipped)),
    ("aborted_files", .integer r.abortedFiles),
    ("total_duration", r.totalDuration.toValue),
    ("average_duration", r.averageDuration.toValue),
    ("file_results", .list (r.files.map FileResult.toValue))]

def text (format : OutputFormat) (verbosity : Verbosity) (r : Results) : String :=
  match format with
  | .human => r.humanText verbosity
  | .json => Data.Json.pretty r.toValue ++ "\n"

end Results
end MessageConformance
