import MessageConformance.Settings.Sources

/-!
# Layers of settings

A source of settings gives some of them and leaves the others as they are: what it gives is a
`Layer`. Layers are put over each other (`Layer.above`) and over settings (`Layer.on`), and it makes
no difference which is done first (`Layer.on_above`). A command line is a layer over the settings
(`applyArguments_eq`); so is an environment, unless the value of a variable cannot be read
(`applyEnvironment_eq`), which is noticed whatever lies above.
-/

namespace MessageConformance.Settings

/-- What a source of settings gives: of each setting a value, if there is one. -/
structure Layer where
  mode : Option String := none
  context : Option Context := none
  isReceipt : Option Bool := none
  threads : Option Nat := none
  timeout : Option Nat := none
  schemaDirectory : Option String := none
  format : Option OutputFormat := none
  verbose : Option Bool := none
  quiet : Option Bool := none
  extensions : Option (List String) := none
  deriving DecidableEq, Repr

namespace Layer

/-- What two layers give together. Where both give a setting the upper one counts. -/
def above (upper lower : Layer) : Layer where
  mode := upper.mode.or lower.mode
  context := upper.context.or lower.context
  isReceipt := upper.isReceipt.or lower.isReceipt
  threads := upper.threads.or lower.threads
  timeout := upper.timeout.or lower.timeout
  schemaDirectory := upper.schemaDirectory.or lower.schemaDirectory
  format := upper.format.or lower.format
  verbose := upper.verbose.or lower.verbose
  quiet := upper.quiet.or lower.quiet
  extensions := upper.extensions.or lower.extensions

/-- Settings with a layer over them. -/
def on (l : Layer) (s : Settings) : Settings where
  mode := l.mode.or s.mode
  context := l.context.getD s.context
  isReceipt := l.isReceipt.getD s.isReceipt
  threads := l.threads.or s.threads
  timeout := l.timeout.getD s.timeout
  schemaDirectory := l.schemaDirectory.getD s.schemaDirectory
  format := l.format.getD s.format
  verbose := l.verbose.getD s.verbose
  quiet := l.quiet.getD s.quiet
  extensions := l.extensions.getD s.extensions

@[simp] theorem nothing_on (s : Settings) : ({} : Layer).on s = s := rfl

/-- Layers are put over settings one after the other or together. -/
theorem on_above (upper lower : Layer) (s : Settings) :
    (upper.above lower).on s = upper.on (lower.on s) := by
  simp only [above, on, Option.or_assoc, Option.getD_or]

end Layer

/-! ## The command line -/

/-- The extensions in a list with commas, without the dots before them. -/
def undotted (value : String) : List String :=
  ((Text.split ',' value).map fun piece =>
    String.ofList ((Text.trim piece).toList.dropWhile (· == '.'))).filter (· ≠ "")

/-- What a command line gives. Of the two flags for how much is printed each gives both settings. -/
def Layer.ofArguments (a : Arguments) : Layer where
  mode := a.mode
  context := a.context
  isReceipt := if a.isReceipt then some true else none
  threads := a.threads
  timeout := a.timeout
  schemaDirectory := a.schemaDirectory
  format := a.format
  verbose := if a.quiet then some false else if a.verbose then some true else none
  quiet := if a.quiet then some true else if a.verbose then some false else none
  extensions := a.extensions.map undotted

theorem applyArguments_eq (a : Arguments) (s : Settings) :
    applyArguments a s = (Layer.ofArguments a).on s := by
  have receipt : (a.isReceipt || s.isReceipt) =
      (if a.isReceipt then some true else none).getD s.isReceipt := by
    cases a.isReceipt <;> rfl
  have verbose : (!a.quiet && (a.verbose || s.verbose)) =
      (if a.quiet then some false else if a.verbose then some true else none).getD s.verbose := by
    cases a.quiet <;> cases a.verbose <;> rfl
  have quiet : (a.quiet || (!a.verbose && s.quiet)) =
      (if a.quiet then some true else if a.verbose then some false else none).getD s.quiet := by
    cases a.quiet <;> cases a.verbose <;> rfl
  have extensions : a.extensionList = a.extensions.map undotted := rfl
  rw [applyArguments, receipt, verbose, quiet, extensions]
  rfl

/-! ## The environment -/

/-- What an environment gives: the values of its variables, as far as they can be read. -/
def Layer.ofEnvironment (env : Environment) : Layer where
  mode := env (variableName "MODE")
  context := (env (variableName "CONTEXT")).bind (Context.ofName? ∘ Text.lowerAscii)
  isReceipt := (env (variableName "RECEIPT")).bind truth?
  threads := (env (variableName "THREADS")).bind Text.unsigned?
  timeout := (env (variableName "TIMEOUT")).bind Text.unsigned?
  schemaDirectory := env (variableName "SCHEMA_DIR")
  format := (env (variableName "FORMAT")).bind (OutputFormat.ofName? ∘ Text.lowerAscii)
  verbose := (env (variableName "VERBOSE")).bind truth?
  quiet := (env (variableName "QUIET")).bind truth?
  extensions := (env (variableName "EXTENSIONS")).map extensionsOf

/-- The variables that do not take every value, in the order they are read, and whether a value can
    be read. -/
def typedVariables : List (String × (String → Bool)) := [
  ("CONTEXT", fun value => (Context.ofName? (Text.lowerAscii value)).isSome),
  ("RECEIPT", fun value => (truth? value).isSome),
  ("THREADS", fun value => (Text.unsigned? value).isSome),
  ("TIMEOUT", fun value => (Text.unsigned? value).isSome),
  ("VERBOSE", fun value => (truth? value).isSome),
  ("QUIET", fun value => (truth? value).isSome),
  ("FORMAT", fun value => (OutputFormat.ofName? (Text.lowerAscii value)).isSome)]

/-- The first variable with a value that cannot be read, and the value. -/
def badVariable? (env : Environment) : Option (String × String) :=
  typedVariables.findSome? fun (name, reads) =>
    (env (variableName name)).bind fun value => if reads value then none else some (name, value)

/-- The text of the failure at a variable. -/
def variableReason (name value : String) : String :=
  "Invalid " ++ variableName name ++ " value: " ++ value

/-- A variable, and what a value of it gives if it can be read. -/
abbrev Reading := String × (String → Option Layer)

namespace Reading

/-- A variable whose value is read, and put into the layer that it gives. -/
def of {α : Type} (name : String) (read : String → Option α) (put : Option α → Layer) : Reading :=
  (name, fun value => (read value).map (put ∘ some))

/-- What a variable gives. -/
def layer (env : Environment) (r : Reading) : Layer :=
  ((env (variableName r.1)).bind r.2).getD {}

/-- What some variables give; a later one counts for more. -/
def layers (env : Environment) : List Reading → Layer
  | [] => {}
  | r :: rest => (layers env rest).above (r.layer env)

/-- A variable and its value, if the value cannot be read. -/
def refused? (env : Environment) (r : Reading) : Option (String × String) :=
  (env (variableName r.1)).bind fun value =>
    if (r.2 value).isSome then none else some (r.1, value)

/-- A variable puts over the settings what it gives. -/
def setter (r : Reading) : String × (String → Settings → Option Settings) :=
  (r.1, fun value s => (r.2 value).map fun l => l.on s)

variable {α : Type} {name : String} {read : String → Option α} {put : Option α → Layer}

theorem layer_of (env : Environment) (nothing : put none = {}) :
    (of name read put).layer env = put ((env (variableName name)).bind read) := by
  simp only [layer, of]
  cases env (variableName name) with
  | none => exact nothing.symm
  | some value =>
    cases given : read value with
    | none => simp [given, nothing]
    | some a => simp [given]

theorem refused?_of (env : Environment) :
    (of name read put).refused? env =
      (env (variableName name)).bind fun value =>
        if (read value).isSome then none else some (name, value) := by
  simp only [refused?, of, Option.isSome_map]

theorem applyVariable_setter (env : Environment) (r : Reading) (s : Settings) :
    applyVariable env r.setter.1 r.setter.2 s =
      match r.refused? env with
      | some (name, value) => .error (.environment (variableReason name value))
      | none => .ok ((r.layer env).on s) := by
  obtain ⟨name, read⟩ := r
  simp only [applyVariable, setter, refused?, layer]
  cases env (variableName name) with
  | none => rfl
  | some value => cases given : read value <;> simp [given, variableReason]

/-- Variables are read one after the other, up to the first whose value cannot be read. -/
theorem foldlM_setter (env : Environment) (rs : List Reading) (s : Settings) :
    (rs.map setter).foldlM (fun s (name, set) => applyVariable env name set s) s =
      match rs.findSome? (refused? env) with
      | some (name, value) => .error (.environment (variableReason name value))
      | none => .ok ((layers env rs).on s) := by
  induction rs generalizing s with
  | nil => rfl
  | cons r rs ih =>
    rw [List.map_cons, List.foldlM_cons, List.findSome?_cons]
    show (applyVariable env r.setter.1 r.setter.2 s >>= _) = _
    rw [applyVariable_setter]
    cases r.refused? env with
    | some refused => rfl
    | none =>
      show (rs.map setter).foldlM _ ((r.layer env).on s) = _
      rw [ih, layers, Layer.on_above]

end Reading

/-- The variables in the order they are read. -/
def readings : List Reading := [
  .of "MODE" some fun mode => { mode },
  .of "CONTEXT" (Context.ofName? ∘ Text.lowerAscii) fun context => { context },
  .of "RECEIPT" truth? fun isReceipt => { isReceipt },
  .of "THREADS" Text.unsigned? fun threads => { threads },
  .of "TIMEOUT" Text.unsigned? fun timeout => { timeout },
  .of "SCHEMA_DIR" some fun schemaDirectory => { schemaDirectory },
  .of "VERBOSE" truth? fun verbose => { verbose },
  .of "QUIET" truth? fun quiet => { quiet },
  .of "FORMAT" (OutputFormat.ofName? ∘ Text.lowerAscii) fun format => { format },
  .of "EXTENSIONS" (some ∘ extensionsOf) fun extensions => { extensions }]

theorem settable_eq : settable = readings.map Reading.setter := by
  simp only [settable, readings, List.map_cons, List.map_nil, Reading.setter, Reading.of,
    Option.map_map, Option.map_some, Function.comp_apply]
  rfl

theorem layers_readings (env : Environment) :
    Reading.layers env readings = Layer.ofEnvironment env := by
  simp only [readings, Reading.layers, Reading.layer_of]
  simp [Layer.above, Layer.ofEnvironment, Option.map_eq_bind]

theorem findSome?_refused? (env : Environment) :
    readings.findSome? (Reading.refused? env) = badVariable? env := by
  simp only [readings, List.findSome?_cons]
  simp [Reading.refused?_of, badVariable?, typedVariables, List.findSome?_cons]

/-- An environment is a layer over the settings, unless there is a variable with a value that cannot
    be read. -/
theorem applyEnvironment_eq (env : Environment) (s : Settings) :
    applyEnvironment env s =
      match badVariable? env with
      | some (name, value) => .error (.environment (variableReason name value))
      | none => .ok ((Layer.ofEnvironment env).on s) := by
  rw [applyEnvironment, settable_eq, Reading.foldlM_setter, findSome?_refused?, layers_readings]

end MessageConformance.Settings
