import MessageConformance.CommandLine.Parser
import MessageConformance.Proofs.Settings.Precedence
import MessageConformance.Proofs.Text.AsciiBytes
import MessageConformance.Proofs.Text.Pieces

/-!
# Variables and options in place of each other

A `Setting` can be given by its variable (`Setting.environment`) or by its option (`Setting.words`).
Every value that the option takes can be read from the variable too, and the layer of the option is
that of the variable but for three settings (`ofArguments_option`): each of the two flags for how
much is printed takes back the other one, and extensions lose the dots before them. So there are
settings that the option mends and the variable does not (`Mends`). `interchanges_iff` says that
variable and option come to the same unless there is something to mend and mending it is enough.
-/

namespace MessageConformance

/-! ## Command lines with an option -/

namespace CommandLine

/-- The word that gives an argument its value. -/
def optionWord (name value : String) : String := "--" ++ name ++ "=" ++ value

/-- The word that raises a flag. -/
def flagWord (name : String) : String := "--" ++ name

/-- The words of a command line that gives a path, and no other setting than the file to take them
    from. -/
def plainWords (named : Option String) (path : String) : List String :=
  named.toList.map (optionWord "config") ++ ["--", path]

/-- What comes of a command line when the settings file and the path are all that is still to be
    given. -/
def finishWith (named : Option String) (path : String) (g : Given) :
    Except UsageFault Arguments := do
  let g ← match named with
    | none => .ok g
    | some file => g.set .settingsFile file
  let g ← g.set .path path
  g.finish

/-- The arguments of what has been given, with a settings file and a path. -/
def argumentsOf (named : Option String) (path : String) (g : Given) : Arguments where
  path := path
  schemaDirectory := g.schemaDirectory
  context := g.context
  isReceipt := g.receipt
  mode := g.mode
  extensions := g.extensions
  threads := g.threads
  timeout := g.timeout
  format := g.format
  verbose := g.verbose
  quiet := g.quiet
  settingsFile := named

section

variable {name value path : String} {named : Option String} {slot : Slot} {flag : Flag} {g : Given}
  {r : Reader} {a : Arguments}

theorem step_optionWord (known : Switch.ofLong? name = some (.slot slot)) (free : '=' ∉ name.toList)
    (names : r.onlyPath = false) : r.step (optionWord name value) = r.attach slot value := by
  have word : (optionWord name value).toList =
      '-' :: '-' :: (name.toList ++ '=' :: value.toList) := by simp [optionWord]
  have cut : Text.cutOnce (· == '=') (name.toList ++ '=' :: value.toList) =
      some (name.toList, value.toList) := by
    refine Text.cutOnce_eq_some_iff.2 ⟨'=', rfl, rfl, fun c member => ?_⟩
    simpa using fun same : c = '=' => free (same ▸ member)
  rw [Reader.step, word, names]
  cases parts : name.toList ++ '=' :: value.toList with
  | nil => simp at parts
  | cons c rest =>
    rw [parts] at cut
    simp [cut, Reader.long, known]

theorem step_flagWord (known : Switch.ofLong? name = some (.flag flag)) (free : '=' ∉ name.toList)
    (names : r.onlyPath = false) : r.step (flagWord name) = r.raise flag := by
  have word : (flagWord name).toList = '-' :: '-' :: name.toList := by simp [flagWord]
  have cut : Text.cutOnce (· == '=') name.toList = none := by
    rw [Option.eq_none_iff_forall_not_mem]
    rintro ⟨before, after⟩ found
    obtain ⟨c, parts, here, -⟩ := Text.cutOnce_eq_some_iff.1 found
    obtain rfl : c = '=' := by simpa using here
    exact free (parts ▸ by simp)
  rw [Reader.step, word, names]
  cases parts : name.toList with
  | nil =>
    obtain rfl : name = "" := by simpa using parts
    cases known
  | cons c rest =>
    rw [parts] at cut
    have same : String.ofList (c :: rest) = name := by rw [← parts, String.ofList_toList]
    simp [cut, Reader.long, same, known]

theorem parse_cons {word : String} {words : List String} {first : Except UsageFault Given}
    (step : ({} : Reader).step word = first.map fun given => { given }) :
    parse (word :: words) = first.bind fun given =>
      (words.foldlM Reader.step { given } >>= Reader.settle) >>= fun r => r.given.finish := by
  rw [parse, List.foldlM_cons, step]
  cases first with
  | error fault => rfl
  | ok given =>
    show (words.foldlM Reader.step { given } >>= fun r => r.settle >>= _) = _
    rw [← bind_assoc]
    rfl

theorem foldlM_plainWords (named : Option String) (path : String) (g : Given) :
    (((plainWords named path).foldlM Reader.step { given := g } >>= Reader.settle) >>=
      fun r => r.given.finish) = finishWith named path g := by
  have ended (g : Given) : ((["--", path].foldlM Reader.step { given := g } >>= Reader.settle) >>=
      fun r => r.given.finish) = g.set .path path >>= Given.finish := by
    show ((g.set .path path).bind _ >>= _) = _
    cases g.set .path path <;> rfl
  cases named with
  | none => exact ended g
  | some file =>
    have step : Reader.step { given := g } (optionWord "config" file) =
        (g.set .settingsFile file).map fun given => { given } :=
      step_optionWord rfl (by decide) rfl
    rw [plainWords, Option.toList_some, List.map_singleton, List.singleton_append, List.foldlM_cons,
      step, finishWith]
    cases g.set .settingsFile file with
    | error fault => rfl
    | ok given => exact ended given

theorem fill_none_eq_ok {α : Type} {read : Except UsageFault α} {put : α → Given} {g : Given}
    (filled : Given.fill none read put = .ok g) : ∃ v, read = .ok v ∧ g = put v := by
  obtain ⟨v, found, rfl⟩ := map_eq_ok_iff.1 (show read.map put = .ok g from filled)
  exact ⟨v, found, rfl⟩

theorem known_eq_ok {α : Type} {found : Option α} {v : α} (known : Given.known found = .ok v) :
    found = some v := by
  cases found <;> cases known
  rfl

theorem nonempty_eq_ok {v : String} (read : Given.nonempty value = .ok v) : v = value := by
  unfold Given.nonempty at read
  split at read <;> cases read
  rfl

theorem number_eq_ok {n : Nat} (read : Given.number value = .ok n) :
    Text.unsigned? value = some n := by
  unfold Given.number at read
  split at read <;> cases read
  assumption

theorem finishWith_eq_ok (noPath : g.path = none) (noFile : g.settingsFile = none)
    (finished : finishWith named path g = .ok a) : a = argumentsOf named path g := by
  have ended {g : Given} (noPath : g.path = none)
      (finished : (g.set .path path >>= Given.finish) = .ok a) :
      a = argumentsOf g.settingsFile path g := by
    obtain ⟨given, put, rest⟩ := bind_eq_ok_iff.1 finished
    rw [Given.set, noPath] at put
    obtain ⟨v, read, rfl⟩ := fill_none_eq_ok put
    obtain rfl := nonempty_eq_ok read
    simp only [Given.finish] at rest
    split at rest <;> cases rest
    rfl
  cases named with
  | none => exact noFile ▸ ended noPath finished
  | some file =>
    obtain ⟨given, put, rest⟩ := bind_eq_ok_iff.1 finished
    rw [Given.set, noFile] at put
    obtain ⟨v, read, rfl⟩ := fill_none_eq_ok put
    obtain rfl := nonempty_eq_ok read
    exact ended (g := { g with settingsFile := some v }) noPath rest

end

end CommandLine

/-! ## Settings with a variable and an option -/

namespace Settings

open CommandLine (optionWord flagWord plainWords finishWith argumentsOf parse)
open Files (Volume)

/-- What can be set by a variable as well as by an option. -/
inductive Setting where
  | mode
  | context
  | receipt
  | threads
  | timeout
  | schemaDirectory
  | format
  | verbose
  | quiet
  | extensions
  deriving DecidableEq, Repr

namespace Setting

/-- The name of the variable. -/
def key : Setting → String
  | mode => "MODE"
  | context => "CONTEXT"
  | receipt => "RECEIPT"
  | threads => "THREADS"
  | timeout => "TIMEOUT"
  | schemaDirectory => "SCHEMA_DIR"
  | format => "FORMAT"
  | verbose => "VERBOSE"
  | quiet => "QUIET"
  | extensions => "EXTENSIONS"

/-- The name of the option. -/
def option : Setting → String
  | mode => "mode"
  | context => "context"
  | receipt => "receipt"
  | threads => "threads"
  | timeout => "timeout"
  | schemaDirectory => "schema-dir"
  | format => "format"
  | verbose => "verbose"
  | quiet => "quiet"
  | extensions => "extensions"

/-- What the option stands for. -/
def switch : Setting → Switch
  | mode => .slot .mode
  | context => .slot .context
  | receipt => .flag .receipt
  | threads => .slot .threads
  | timeout => .slot .timeout
  | schemaDirectory => .slot .schemaDirectory
  | format => .slot .format
  | verbose => .flag .verbose
  | quiet => .flag .quiet
  | extensions => .slot .extensions

/-- The environment in which there is the variable and no other one. -/
def environment (setting : Setting) (value : String) : Environment := fun name =>
  if name = variableName setting.key then some value else none

/-- The word that gives the option. -/
def word (setting : Setting) (value : String) : String :=
  match setting.switch with
  | .slot _ => optionWord setting.option value
  | .flag _ => flagWord setting.option

/-- The words of a command line with the option and no other one. -/
def words (setting : Setting) (value : String) (named : Option String) (path : String) :
    List String :=
  setting.word value :: plainWords named path

/-- What has been given with the option. -/
def given (setting : Setting) (value : String) : Except UsageFault Given :=
  match setting.switch with
  | .slot slot => ({} : Given).set slot value
  | .flag flag => ({} : Given).raise flag

/-- An option without a value says that something is on. -/
def Takes (setting : Setting) (value : String) : Prop :=
  ∀ flag, setting.switch = .flag flag → value = "true"

/-- What the variable gives. -/
def ofVariable : Setting → String → Layer
  | mode, value => { mode := some value }
  | context, value => { context := Context.ofName? (Text.lowerAscii value) }
  | receipt, value => { isReceipt := truth? value }
  | threads, value => { threads := Text.unsigned? value }
  | timeout, value => { timeout := Text.unsigned? value }
  | schemaDirectory, value => { schemaDirectory := some value }
  | format, value => { format := OutputFormat.ofName? (Text.lowerAscii value) }
  | verbose, value => { verbose := truth? value }
  | quiet, value => { quiet := truth? value }
  | extensions, value => { extensions := some (extensionsOf value) }

/-- What the option gives. -/
def ofOption : Setting → String → Layer
  | verbose, _ => { verbose := some true, quiet := some false }
  | quiet, _ => { verbose := some false, quiet := some true }
  | extensions, value => { extensions := some (undotted value) }
  | setting, value => setting.ofVariable value

variable {setting : Setting} {value path : String} {named : Option String} {a : Arguments}

@[simp] theorem environment_variableName (setting : Setting) (value name : String) :
    setting.environment value (variableName name) =
      if name = setting.key then some value else none := by
  simp [environment, variableName]

theorem ofEnvironment_environment (setting : Setting) (value : String) :
    Layer.ofEnvironment (setting.environment value) = setting.ofVariable value := by
  cases setting <;> simp [Layer.ofEnvironment, key, ofVariable]

theorem parse_words (option : parse (setting.words value named path) = .ok a) :
    ∃ g, setting.given value = .ok g ∧ finishWith named path g = .ok a := by
  have known : Switch.ofLong? setting.option = some setting.switch := by cases setting <;> rfl
  have free : '=' ∉ setting.option.toList := by cases setting <;> decide
  have step : ({} : CommandLine.Reader).step (setting.word value) =
      (setting.given value).map fun given => { given } := by
    rw [word, given]
    cases switch : setting.switch with
    | slot slot => exact CommandLine.step_optionWord (known.trans (by rw [switch])) free rfl
    | flag flag => exact CommandLine.step_flagWord (known.trans (by rw [switch])) free rfl
  rw [words, CommandLine.parse_cons step] at option
  obtain ⟨g, given, finished⟩ := bind_eq_ok_iff.1 option
  exact ⟨g, given, (CommandLine.foldlM_plainWords named path g).symm.trans finished⟩

theorem badVariable?_environment (readable : ∀ entry ∈ typedVariables, entry.1 = setting.key →
    entry.2 value = true) : badVariable? (setting.environment value) = none := by
  rw [badVariable?, List.findSome?_eq_none_iff]
  rintro ⟨name, reads⟩ member
  show (setting.environment value (variableName name)).bind _ = none
  rw [environment_variableName]
  by_cases here : name = setting.key
  · simpa [here] using readable (name, reads) member here
  · simp [here]

theorem lowerAscii_of_context {c : Context} (known : Context.ofName? value = some c) :
    Text.lowerAscii value = value := by
  obtain rfl : c.name = value := by simpa using List.find?_some known
  cases c <;> decide

theorem lowerAscii_of_format {f : OutputFormat} (known : OutputFormat.ofName? value = some f) :
    Text.lowerAscii value = value := by
  obtain rfl : f.name = value := by simpa using List.find?_some known
  cases f <;> decide

/-- A value that the option takes can be read from the variable, and what the option gives is known
    from it. -/
theorem ofArguments_given {g : Given} (takes : setting.Takes value)
    (given : setting.given value = .ok g) :
    (g.path = none ∧ g.settingsFile = none) ∧
      badVariable? (setting.environment value) = none ∧
      ∀ named path, Layer.ofArguments (argumentsOf named path g) = setting.ofOption value := by
  cases setting <;> simp only [Setting.given, switch, Given.set, Given.raise] at given
  case mode =>
    obtain ⟨_, ⟨⟩, rfl⟩ := CommandLine.fill_none_eq_ok given
    exact ⟨⟨rfl, rfl⟩, badVariable?_environment (by simp [typedVariables, key]), fun _ _ => rfl⟩
  case schemaDirectory =>
    obtain ⟨v, read, rfl⟩ := CommandLine.fill_none_eq_ok given
    obtain rfl := CommandLine.nonempty_eq_ok read
    exact ⟨⟨rfl, rfl⟩, badVariable?_environment (by simp [typedVariables, key]), fun _ _ => rfl⟩
  case extensions =>
    obtain ⟨_, ⟨⟩, rfl⟩ := CommandLine.fill_none_eq_ok given
    exact ⟨⟨rfl, rfl⟩, badVariable?_environment (by simp [typedVariables, key]), fun _ _ => rfl⟩
  case context =>
    obtain ⟨c, known, rfl⟩ := CommandLine.fill_none_eq_ok given
    have known := CommandLine.known_eq_ok known
    have lower := lowerAscii_of_context known
    refine ⟨⟨rfl, rfl⟩, badVariable?_environment ?_, fun _ _ => ?_⟩
    · simp [typedVariables, key, lower, known]
    · simp [Layer.ofArguments, argumentsOf, ofOption, ofVariable, lower, known]
  case format =>
    obtain ⟨f, known, rfl⟩ := CommandLine.fill_none_eq_ok given
    have known := CommandLine.known_eq_ok known
    have lower := lowerAscii_of_format known
    refine ⟨⟨rfl, rfl⟩, badVariable?_environment ?_, fun _ _ => ?_⟩
    · simp [typedVariables, key, lower, known]
    · simp [Layer.ofArguments, argumentsOf, ofOption, ofVariable, lower, known]
  case threads | timeout =>
    obtain ⟨n, read, rfl⟩ := CommandLine.fill_none_eq_ok given
    have read := CommandLine.number_eq_ok read
    refine ⟨⟨rfl, rfl⟩, badVariable?_environment ?_, fun _ _ => ?_⟩
    · simp [typedVariables, key, read]
    · simp [Layer.ofArguments, argumentsOf, ofOption, ofVariable, read]
  case receipt | verbose | quiet =>
    obtain rfl := takes _ rfl
    obtain rfl := Except.ok.inj given
    exact ⟨⟨rfl, rfl⟩, by decide, fun _ _ => rfl⟩

theorem ofArguments_option (takes : setting.Takes value)
    (option : parse (setting.words value named path) = .ok a) :
    a.settingsFile = named ∧ badVariable? (setting.environment value) = none ∧
      Layer.ofArguments a = setting.ofOption value := by
  obtain ⟨g, given, finished⟩ := parse_words option
  obtain ⟨⟨noPath, noFile⟩, readable, layer⟩ := ofArguments_given takes given
  obtain rfl := CommandLine.finishWith_eq_ok noPath noFile finished
  exact ⟨rfl, readable, layer named path⟩

theorem ofArguments_plain (without : parse (plainWords named path) = .ok a) :
    a.settingsFile = named ∧ Layer.ofArguments a = {} := by
  have finished := (CommandLine.foldlM_plainWords named path {}).symm.trans
    ((bind_assoc _ _ _).trans without)
  obtain rfl := CommandLine.finishWith_eq_ok rfl rfl finished
  exact ⟨rfl, rfl⟩

/-! ## What the option mends -/

/-- Over some settings the option brings about more than the variable: a flag takes back the other
    one, and dots are taken off extensions. -/
def Mends : Setting → String → Settings → Prop
  | verbose, _, base => base.quiet = true
  | quiet, _, base => base.verbose = true
  | extensions, value, _ => ∃ extension ∈ extensionsOf value, extension.toList.head? = some '.'
  | _, _, _ => False

end Setting

theorem undotted_eq_extensionsOf {value : String}
    (free : ∀ extension ∈ extensionsOf value, extension.toList.head? ≠ some '.') :
    undotted value = extensionsOf value := by
  have same : ∀ piece ∈ Text.split ',' value,
      String.ofList ((Text.trim piece).toList.dropWhile (· == '.')) = Text.trim piece := by
    intro piece member
    cases shape : (Text.trim piece).toList with
    | nil => exact String.toList_inj.1 (by simp [shape])
    | cons c rest =>
      have listed : Text.trim piece ∈ extensionsOf value := by
        refine List.mem_filter.2 ⟨List.mem_map_of_mem member, ?_⟩
        simpa using fun empty : Text.trim piece = "" => by simp [empty] at shape
      have other : c ≠ '.' := by simpa [shape] using free _ listed
      rw [List.dropWhile_cons_of_neg (by simpa using other), ← shape, String.ofList_toList]
  rw [undotted, extensionsOf, List.map_congr_left same]

namespace Setting

variable {setting : Setting} {value path : String} {named : Option String} {plain a : Arguments}
  {base : Settings}

theorem on_ofVariable_eq (takes : setting.Takes value) (keeps : ¬ setting.Mends value base) :
    (setting.ofVariable value).on base = (setting.ofOption value).on base := by
  cases setting
  case verbose | quiet =>
    obtain rfl := takes _ rfl
    simp only [Mends, Bool.not_eq_true] at keeps
    simp [ofVariable, ofOption, Layer.on, truth?, keeps]
  case extensions =>
    simp only [Mends, not_exists, not_and] at keeps
    rw [ofVariable, ofOption, undotted_eq_extensionsOf keeps]
  all_goals rfl

/-- What the option mends is not sound with the variable. -/
theorem not_isSound_of_mends (takes : setting.Takes value) (mends : setting.Mends value base) :
    ¬ ((setting.ofVariable value).on base).IsSound := by
  intro sound
  cases setting
  case verbose =>
    obtain rfl := takes _ rfl
    exact sound.verbosity ⟨rfl, mends⟩
  case quiet =>
    obtain rfl := takes _ rfl
    exact sound.verbosity ⟨mends, rfl⟩
  case extensions =>
    obtain ⟨extension, listed, dotted⟩ := mends
    exact (sound.extensions extension listed '.' (List.mem_of_mem_head? dotted)).2.2 rfl
  all_goals exact mends

/-- With a value that the variable alone does not spoil, only a flag has anything to mend. -/
theorem mends_iff (takes : setting.Takes value)
    (alone : ((setting.ofVariable value).on default).IsSound) :
    setting.Mends value base ↔
      setting = .verbose ∧ base.quiet = true ∨ setting = .quiet ∧ base.verbose = true := by
  cases setting
  case extensions =>
    have none : ¬ extensions.Mends value default := fun mends =>
      not_isSound_of_mends takes mends alone
    simpa [Mends] using none
  all_goals simp [Mends]

theorem gather_variable (v : Volume) (userDirectory : Option String) (takes : setting.Takes value)
    (without : parse (plainWords named path) = .ok plain)
    (option : parse (setting.words value named path) = .ok a)
    (loaded : fromFile v userDirectory named = .ok base) :
    gather v userDirectory (setting.environment value) plain =
      ((setting.ofVariable value).on base).check := by
  obtain ⟨rfl, layer⟩ := ofArguments_plain without
  rw [gather_of_fromFile loaded, (ofArguments_option takes option).2.1, layer,
    ofEnvironment_environment, Layer.nothing_on]

theorem gather_option (v : Volume) (userDirectory : Option String) (takes : setting.Takes value)
    (option : parse (setting.words value named path) = .ok a)
    (loaded : fromFile v userDirectory named = .ok base) :
    gather v userDirectory (fun _ => none) a = ((setting.ofOption value).on base).check := by
  obtain ⟨rfl, -, layer⟩ := ofArguments_option takes option
  rw [gather_of_fromFile loaded, layer]
  rfl

end Setting

/-! ## A file that a flag mends -/

/-- A settings file in which little is to be printed. -/
def quietText : String := "[output]\nquiet = true\n"

def quietVolume : Volume := ⟨[("quiet.toml", .file (some (Bytes.ofText quietText)))], []⟩

/-- Command lines with that file: without an option, with a number of threads and with a flag. -/
def quietArguments : Arguments := { path := ".", settingsFile := some "quiet.toml" }

def threadedArguments : Arguments := { quietArguments with threads := some 8 }

def loudArguments : Arguments := { quietArguments with verbose := true }

theorem fromFile_quietVolume (userDirectory : Option String) :
    fromFile quietVolume userDirectory (some "quiet.toml") = .ok { quiet := true } := by
  have read : quietVolume.read "quiet.toml" = .ok (Bytes.ofText quietText) := by
    have split : Text.split '/' "quiet.toml" = ["quiet.toml"] := Text.split_of_free (by decide)
    simp [Volume.read, Volume.locate, Volume.around, Files.walk, quietVolume, split, Files.start,
      Files.isAbsolute, bind, Except.bind]
  have extension : Files.extension? "quiet.toml" = some "toml" := by decide +kernel
  have made : ofText (some "toml") quietText = .ok { quiet := true } := by decide +kernel
  have loaded : load quietVolume "quiet.toml" = .ok { quiet := true } :=
    load_eq_ok_iff.2 ⟨_, quietText, read, Bytes.text?_ofText quietText, extension ▸ made⟩
  rw [fromFile, loaded]
  rfl

theorem fromFile_nothing : fromFile ⟨[], []⟩ none none = .ok default := by
  refine fromFile_eq_ok_iff.2 ⟨{}, .nothing rfl fun path listed => ?_, rfl⟩
  have split : Text.split '/' path = [path] := by
    refine Text.split_of_free ?_
    revert path
    decide
  have named : path ≠ "" ∧ path ≠ "." ∧ path ≠ ".." := by
    revert path
    decide
  simp [Volume.contains?, Volume.locate, Volume.around, Files.walk, split, Files.start, named]

/-! ## Either of them -/

section

variable {setting : Setting} {value path : String} {named : Option String} {plain a : Arguments}

theorem apart_of_mends (v : Volume) (userDirectory : Option String) {base : Settings}
    (takes : setting.Takes value) (without : parse (plainWords named path) = .ok plain)
    (option : parse (setting.words value named path) = .ok a)
    (loaded : fromFile v userDirectory named = .ok base) (mends : setting.Mends value base)
    (sound : ((setting.ofOption value).on base).IsSound) :
    (∃ reason, gather v userDirectory (setting.environment value) plain =
      .error (.invalid reason)) ∧
    gather v userDirectory (fun _ => none) a = .ok ((setting.ofOption value).on base) := by
  rw [Setting.gather_variable v userDirectory takes without option loaded,
    Setting.gather_option v userDirectory takes option loaded]
  refine ⟨?_, check_eq_ok_iff.2 ⟨rfl, sound⟩⟩
  cases made : ((setting.ofVariable value).on base).check with
  | ok s =>
    exact absurd (check_eq_ok_iff.1 made).2 (Setting.not_isSound_of_mends takes mends)
  | error e =>
    obtain ⟨reason, -, rfl⟩ := check_eq_error_iff.1 made
    exact ⟨reason, rfl⟩

/-- The variable and the option of a setting, each alone and over the same file, give the same
    settings or both fail, unless the option mends the settings of the file: then the variable
    fails and the option serves. If the variable alone serves without a file, the setting is then a
    flag for how much is printed and the file gives the other one. -/
theorem interchanges_iff (v : Volume) (userDirectory : Option String)
    (takes : setting.Takes value) (without : parse (plainWords named path) = .ok plain)
    (option : parse (setting.words value named path) = .ok a) :
    ((∀ s, gather v userDirectory (setting.environment value) plain = .ok s ↔
        gather v userDirectory (fun _ => none) a = .ok s) ↔
      ¬ ∃ base, fromFile v userDirectory named = .ok base ∧ setting.Mends value base ∧
        ((setting.ofOption value).on base).IsSound) ∧
    (∀ base, fromFile v userDirectory named = .ok base → setting.Mends value base →
      ((setting.ofOption value).on base).IsSound →
      (∃ reason, gather v userDirectory (setting.environment value) plain =
        .error (.invalid reason)) ∧
      gather v userDirectory (fun _ => none) a = .ok ((setting.ofOption value).on base)) ∧
    (((setting.ofVariable value).on default).IsSound → ∀ base, setting.Mends value base ↔
      setting = .verbose ∧ base.quiet = true ∨ setting = .quiet ∧ base.verbose = true) := by
  refine ⟨⟨?_, fun keeps s => ?_⟩,
    fun _ => apart_of_mends v userDirectory takes without option,
    fun alone _ => Setting.mends_iff takes alone⟩
  · rintro same ⟨base, loaded, mends, sound⟩
    obtain ⟨⟨reason, failed⟩, served⟩ :=
      apart_of_mends v userDirectory takes without option loaded mends sound
    exact absurd (failed.symm.trans ((same _).2 served)) nofun
  · cases loaded : fromFile v userDirectory named with
    | error e =>
      obtain ⟨rfl, -⟩ := Setting.ofArguments_plain without
      obtain ⟨same, -⟩ := Setting.ofArguments_option takes option
      rw [gather_of_fromFile_error loaded, gather_of_fromFile_error (same ▸ loaded)]
    | ok base =>
      rw [Setting.gather_variable v userDirectory takes without option loaded,
        Setting.gather_option v userDirectory takes option loaded]
      by_cases mends : setting.Mends value base
      -- There is something to mend, and mending it is not enough: both fail.
      · have broken : ¬ ((setting.ofOption value).on base).IsSound := fun sound =>
          keeps ⟨base, loaded, mends, sound⟩
        have spoilt := Setting.not_isSound_of_mends takes mends
        simp only [check_eq_ok_iff]
        constructor
        · rintro ⟨-, sound⟩
          exact absurd sound spoilt
        · rintro ⟨-, sound⟩
          exact absurd sound broken
      · rw [Setting.on_ofVariable_eq takes mends]

theorem interchanges_threads :
    (Setting.Takes .threads "+8" ∧
      parse (plainWords (some "quiet.toml") ".") = .ok quietArguments ∧
      parse (Setting.words .threads "+8" (some "quiet.toml") ".") =
        .ok threadedArguments) ∧
    ∀ s, gather quietVolume none (Setting.environment .threads "+8") quietArguments = .ok s ↔
      gather quietVolume none (fun _ => none) threadedArguments = .ok s := by
  have takes : Setting.Takes .threads "+8" := nofun
  have without : parse (plainWords (some "quiet.toml") ".") = .ok quietArguments := rfl
  have option : parse (Setting.words .threads "+8" (some "quiet.toml") ".") =
      .ok threadedArguments := rfl
  refine ⟨⟨takes, without, option⟩, ?_⟩
  refine (interchanges_iff quietVolume none takes without option).1.2 ?_
  rintro ⟨base, -, mends, -⟩
  exact mends

/-- More is printed than the file says when the option asks for it; when the variable does, there
    is a failure. Without a file both serve. -/
theorem verbose_fails_over_quiet :
    parse (plainWords (some "quiet.toml") ".") = .ok quietArguments ∧
    parse (Setting.words .verbose "true" (some "quiet.toml") ".") = .ok loudArguments ∧
    gather quietVolume none (Setting.environment .verbose "true") quietArguments =
      .error (.invalid "Cannot enable both verbose and quiet modes") ∧
    gather quietVolume none (fun _ => none) loudArguments = .ok { verbose := true } ∧
    gather ⟨[], []⟩ none (Setting.environment .verbose "true") { path := "." } =
      .ok { verbose := true } ∧
    gather ⟨[], []⟩ none (fun _ => none) { path := ".", verbose := true } =
      .ok { verbose := true } := by
  refine ⟨rfl, rfl, ?_, ?_, ?_, ?_⟩
  · rw [gather_of_fromFile (fromFile_quietVolume none)]
    rfl
  · rw [gather_of_fromFile (fromFile_quietVolume none)]
    rfl
  · rw [gather_of_fromFile fromFile_nothing]
    rfl
  · rw [gather_of_fromFile fromFile_nothing]
    rfl

end

end Settings
end MessageConformance
