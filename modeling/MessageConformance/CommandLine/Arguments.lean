import MessageConformance.Cache
import MessageConformance.Files.Volume
import MessageConformance.Report.Format
import MessageConformance.Text.Blank
import MessageConformance.Text.Number

/-!
# Arguments

What a command line says, and the ways in which it can be at fault.
-/

namespace MessageConformance

/-- The arguments of a command line. -/
structure Arguments where
  path : String
  schemaDirectory : Option String := none
  context : Option Context := none
  isReceipt : Bool := false
  mode : Option String := none
  extensions : Option String := none
  threads : Option Nat := none
  timeout : Option Nat := none
  format : Option OutputFormat := none
  verbose : Bool := false
  quiet : Bool := false
  settingsFile : Option String := none
  deriving DecidableEq, Repr

namespace Arguments

/-- The extensions that are given, in a list with commas, without the dots before them. -/
def extensionList (a : Arguments) : Option (List String) :=
  a.extensions.map fun extensions =>
    ((Text.split ',' extensions).map fun piece =>
      String.ofList ((Text.trim piece).toList.dropWhile (· == '.'))).filter (· ≠ "")

/-- The first thing wrong with the arguments. -/
def fault? (v : Files.Volume) (a : Arguments) : Option String :=
  if !v.contains a.path then some ("Path does not exist: " ++ a.path)
  else if a.threads = some 0 then some "Number of threads must be greater than 0"
  else if a.isReceipt && a.context.isSome then
    some "--receipt always validates against the nrr-receipt schemas; drop --context"
  else none

end Arguments

/-- Why a command line gives no arguments. -/
inductive UsageFault where
  | argumentConflict
  | invalidValue
  | valueValidation
  | unknownArgument
  | tooManyValues
  | missingRequired
  | displayHelp
  | displayVersion
  deriving DecidableEq, Repr

def UsageFault.name : UsageFault → String
  | argumentConflict => "ArgumentConflict"
  | invalidValue => "InvalidValue"
  | valueValidation => "ValueValidation"
  | unknownArgument => "UnknownArgument"
  | tooManyValues => "TooManyValues"
  | missingRequired => "MissingRequiredArgument"
  | displayHelp => "DisplayHelp"
  | displayVersion => "DisplayVersion"

/-- An argument that takes a value. -/
inductive Slot where
  | path
  | schemaDirectory
  | context
  | mode
  | extensions
  | threads
  | timeout
  | format
  | settingsFile
  deriving DecidableEq, Repr

/-- An argument that takes none. -/
inductive Flag where
  | receipt
  | verbose
  | quiet
  | help
  | version
  deriving DecidableEq, Repr

/-- What a name on a command line stands for. -/
inductive Switch where
  | slot (s : Slot)
  | flag (f : Flag)
  deriving DecidableEq, Repr

/-- What a long name stands for. -/
def Switch.ofLong? (name : String) : Option Switch :=
  [("schema-dir", slot .schemaDirectory), ("context", slot .context),
    ("receipt", flag .receipt), ("mode", slot .mode), ("extensions", slot .extensions),
    ("threads", slot .threads), ("timeout", slot .timeout), ("format", slot .format),
    ("verbose", flag .verbose), ("quiet", flag .quiet), ("config", slot .settingsFile),
    ("help", flag .help), ("version", flag .version)].lookup name

/-- What a letter stands for. -/
def Switch.ofShort? (letter : Char) : Option Switch :=
  [('e', slot .extensions), ('t', slot .threads), ('v', flag .verbose), ('q', flag .quiet),
    ('h', flag .help), ('V', flag .version)].lookup letter

/-- What has been given so far. -/
structure Given where
  path : Option String := none
  schemaDirectory : Option String := none
  context : Option Context := none
  receipt : Bool := false
  mode : Option String := none
  extensions : Option String := none
  threads : Option Nat := none
  timeout : Option Nat := none
  format : Option OutputFormat := none
  verbose : Bool := false
  quiet : Bool := false
  settingsFile : Option String := none

namespace Given

/-- Puts a value where there is none. A second value is a conflict, whatever it is. -/
def fill {α : Type} (old : Option α) (value : Except UsageFault α) (put : α → Given) :
    Except UsageFault Given :=
  if old.isSome then .error .argumentConflict else value.map put

/-- A path, which may not be empty. -/
def nonempty (value : String) : Except UsageFault String :=
  if value = "" then .error .invalidValue else .ok value

/-- One of some names. -/
def known {α : Type} (found : Option α) : Except UsageFault α :=
  match found with
  | some a => .ok a
  | none => .error .invalidValue

/-- A number of 64 bits. -/
def number (value : String) : Except UsageFault Nat :=
  match Text.unsigned? value with
  | some n => .ok n
  | none => .error .valueValidation

/-- Gives a value to an argument that takes one. -/
def set (g : Given) (slot : Slot) (value : String) : Except UsageFault Given :=
  match slot with
  | .path => fill g.path (nonempty value) fun v => { g with path := some v }
  | .schemaDirectory =>
    fill g.schemaDirectory (nonempty value) fun v => { g with schemaDirectory := some v }
  | .context =>
    fill g.context (known (Context.ofName? value)) fun v => { g with context := some v }
  | .mode => fill g.mode (.ok value) fun v => { g with mode := some v }
  | .extensions => fill g.extensions (.ok value) fun v => { g with extensions := some v }
  | .threads => fill g.threads (number value) fun v => { g with threads := some v }
  | .timeout => fill g.timeout (number value) fun v => { g with timeout := some v }
  | .format =>
    fill g.format (known (OutputFormat.ofName? value)) fun v => { g with format := some v }
  | .settingsFile =>
    fill g.settingsFile (nonempty value) fun v => { g with settingsFile := some v }

/-- Raises a flag, which may be raised once. -/
def raise (g : Given) (flag : Flag) : Except UsageFault Given :=
  match flag with
  | .receipt => if g.receipt then .error .argumentConflict else .ok { g with receipt := true }
  | .verbose => if g.verbose then .error .argumentConflict else .ok { g with verbose := true }
  | .quiet => if g.quiet then .error .argumentConflict else .ok { g with quiet := true }
  | .help => .error .displayHelp
  | .version => .error .displayVersion

/-- The arguments, when all has been given: little and much may not be printed at once,
    and there must be a path. -/
def finish (g : Given) : Except UsageFault Arguments :=
  if g.quiet && g.verbose then .error .argumentConflict
  else match g.path with
    | none => .error .missingRequired
    | some path => .ok {
        path, schemaDirectory := g.schemaDirectory, context := g.context,
        isReceipt := g.receipt, mode := g.mode, extensions := g.extensions,
        threads := g.threads, timeout := g.timeout, format := g.format,
        verbose := g.verbose, quiet := g.quiet, settingsFile := g.settingsFile }

end Given
end MessageConformance
