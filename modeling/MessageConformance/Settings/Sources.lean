import MessageConformance.CommandLine.Arguments
import MessageConformance.Data.Json.Reader
import MessageConformance.Data.Toml.Reader
import MessageConformance.Files.Name
import MessageConformance.Settings.Decoding

/-!
# Where settings come from

A settings file, the environment and the command line, of which each counts for more than
those before it. The file is the one that the command line names, or the first that is
found at the usual places.
-/

namespace MessageConformance.Settings

open Files (Volume)

/-! ## Files -/

def ofToml (text : String) : Except SettingsFailure Settings :=
  match Data.Toml.parse? text >>= decode? .toml with
  | some s => .ok s
  | none => .error (.toml "the text does not hold settings")

def ofJson (text : String) : Except SettingsFailure Settings :=
  match Data.Json.parse? text >>= decode? .json with
  | some s => .ok s
  | none => .error (.json "the text does not hold settings")

/-- The settings of a text in a file. The extension of the file tells its kind; without
    one both are tried. -/
def ofText (extension : Option String) (text : String) : Except SettingsFailure Settings :=
  match extension with
  | none =>
    match ofToml text with
    | .ok s => .ok s
    | .error _ => ofJson text
  | some extension =>
    if extension = "toml" then ofToml text
    else if extension = "json" then ofJson text
    else .error (.unsupportedFormat extension)

/-- The settings of a file. -/
def load (v : Volume) (path : String) : Except SettingsFailure Settings :=
  match v.read path with
  | .error fault => .error (.io fault.text)
  | .ok content =>
    match content.text? with
    | none => .error (.io "stream did not contain valid UTF-8")
    | some text => ofText (Files.extension? path) text

/-- The names of settings files, in the order they are looked for. -/
def fileNames : List String :=
  ["as4-validate.toml", "as4-validate.json", ".as4-validate.toml", ".as4-validate.json"]

/-- The paths of settings files, in the order they are looked for: in the working directory,
    then in the user's directory for settings. -/
def filePaths (userDirectory : Option String) : List String :=
  fileNames ++
    userDirectory.toList.flatMap fun directory =>
      fileNames.map (Files.join (Files.join directory "as4-validate"))

/-- The settings of the first of some files that is there. -/
def loadFirst (v : Volume) : List String → Except SettingsFailure (Option Settings)
  | [] => .ok none
  | path :: paths =>
    match v.contains? path with
    | .error fault => .error (.io fault.text)
    | .ok true => (load v path).map some
    | .ok false => loadFirst v paths

/-- The settings of the file that is named, or of the first that is found. -/
def fromFile (v : Volume) (userDirectory named : Option String) :
    Except SettingsFailure Settings :=
  match named with
  | some path => (load v path).map (default.merge ·)
  | none => do
    match ← loadFirst v (filePaths userDirectory) with
    | some s => .ok (default.merge s)
    | none => .ok default

/-! ## The environment -/

/-- The values of variables. -/
abbrev Environment := String → Option String

def variableName (name : String) : String := "AS4_VALIDATE_" ++ name

/-- A truth value in words. -/
def truth? (s : String) : Option Bool :=
  if s = "true" then some true else if s = "false" then some false else none

/-- Applies the variable of a setting, if it has a value. -/
def applyVariable (env : Environment) (name : String) (set : String → Settings → Option Settings)
    (s : Settings) : Except SettingsFailure Settings :=
  match env (variableName name) with
  | none => .ok s
  | some value =>
    match set value s with
    | some s => .ok s
    | none => .error (.environment ("Invalid " ++ variableName name ++ " value: " ++ value))

/-- The extensions in a list with commas. -/
def extensionsOf (value : String) : List String :=
  ((Text.split ',' value).map Text.trim).filter (· ≠ "")

/-- The settings that have a variable, in the order they are applied. -/
def settable : List (String × (String → Settings → Option Settings)) := [
  ("MODE", fun value s => some { s with mode := some value }),
  ("CONTEXT", fun value s =>
    (Context.ofName? (Text.lowerAscii value)).map fun context => { s with context }),
  ("RECEIPT", fun value s => (truth? value).map fun isReceipt => { s with isReceipt }),
  ("THREADS", fun value s =>
    (Text.unsigned? value).map fun threads => { s with threads := some threads }),
  ("TIMEOUT", fun value s => (Text.unsigned? value).map fun timeout => { s with timeout }),
  ("SCHEMA_DIR", fun value s => some { s with schemaDirectory := value }),
  ("VERBOSE", fun value s => (truth? value).map fun verbose => { s with verbose }),
  ("QUIET", fun value s => (truth? value).map fun quiet => { s with quiet }),
  ("FORMAT", fun value s =>
    (OutputFormat.ofName? (Text.lowerAscii value)).map fun format => { s with format }),
  ("EXTENSIONS", fun value s => some { s with extensions := extensionsOf value })]

/-- The settings with those of the environment over them. -/
def applyEnvironment (env : Environment) (s : Settings) : Except SettingsFailure Settings :=
  settable.foldlM (fun s (name, set) => applyVariable env name set s) s

/-! ## The command line -/

/-- The settings with those of a command line over them. A flag for how much is printed
    takes back the other one. -/
def applyArguments (a : Arguments) (s : Settings) : Settings where
  mode := a.mode.or s.mode
  context := a.context.getD s.context
  isReceipt := a.isReceipt || s.isReceipt
  threads := a.threads.or s.threads
  timeout := a.timeout.getD s.timeout
  schemaDirectory := a.schemaDirectory.getD s.schemaDirectory
  format := a.format.getD s.format
  verbose := !a.quiet && (a.verbose || s.verbose)
  quiet := a.quiet || (!a.verbose && s.quiet)
  extensions := a.extensionList.getD s.extensions

/-! ## All of them -/

/-- The settings of a run. -/
def gather (v : Volume) (userDirectory : Option String) (env : Environment) (a : Arguments) :
    Except SettingsFailure Settings := do
  let s ← fromFile v userDirectory a.settingsFile
  let s ← applyEnvironment env s
  (applyArguments a s).check

end MessageConformance.Settings
