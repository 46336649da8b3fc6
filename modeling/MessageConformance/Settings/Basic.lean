import MessageConformance.Cache
import MessageConformance.Data.Value
import MessageConformance.Policy
import MessageConformance.Report.Format

/-!
# Settings

What can be set, how settings from two sources are put together, and what sound settings
are.
-/

namespace MessageConformance

/-- The settings of a run. -/
structure Settings where
  mode : Option String := none
  context : Context := .signalMessage
  isReceipt : Bool := false
  threads : Option Nat := none
  timeout : Nat := 30
  schemaDirectory : String := "schemas"
  format : OutputFormat := .human
  verbose : Bool := false
  quiet : Bool := false
  extensions : List String := ["xml"]
  deriving DecidableEq, Repr

namespace Settings

/-- The settings when nothing is set. -/
def default : Settings := {}

/-- The settings of a file over those before it. A mode, a number of threads or a list of
    extensions that the file leaves out is kept. -/
def merge (base upper : Settings) : Settings :=
  { upper with
    mode := upper.mode.or base.mode
    threads := upper.threads.or base.threads
    extensions := if upper.extensions.isEmpty then base.extensions else upper.extensions }

def outcomeMode (s : Settings) : Mode := .ofSetting s.mode

def verbosity (s : Settings) : Verbosity := .ofFlags s.verbose s.quiet

/-- Whether an extension could be part of a path or hold another one. -/
def isBadExtension (extension : String) : Bool :=
  extension.toList.any fun c => c == '/' || c == '\\' || c == '.'

/-- The first thing wrong with the settings. -/
def fault? (s : Settings) : Option String :=
  if s.threads = some 0 then some "Number of threads must be greater than 0"
  else if s.threads.any (· > 1000) then some "Number of threads cannot exceed 1000"
  else if s.timeout = 0 then some "Timeout must be greater than 0"
  else if s.verbose && s.quiet then some "Cannot enable both verbose and quiet modes"
  else if s.extensions.isEmpty then some "At least one file extension must be specified"
  else (s.extensions.find? isBadExtension).map ("Invalid file extension: " ++ ·)

/-- The settings, if they are sound. -/
def check (s : Settings) : Except SettingsFailure Settings :=
  match s.fault? with
  | none => .ok s
  | some reason => .error (.invalid reason)

/-- An optional value of a setting. -/
def optional {α : Type} (toValue : α → Data.Value) : Option α → Data.Value
  | none => .null
  | some a => toValue a

/-- The settings as a record of sections. -/
def toValue (s : Settings) : Data.Value :=
  .record [
    ("validation", .record [("mode", optional .text s.mode), ("context", .text s.context.name),
      ("receipt", .boolean s.isReceipt),
      ("threads", optional (fun n : Nat => .integer n) s.threads),
      ("timeout_seconds", .integer s.timeout)]),
    ("schemas", .record [("directory", .text s.schemaDirectory)]),
    ("output", .record [("format", .text s.format.name), ("verbose", .boolean s.verbose),
      ("quiet", .boolean s.quiet)]),
    ("files", .record [("extensions", .list (s.extensions.map .text))])]

end Settings
end MessageConformance
