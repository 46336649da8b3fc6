import MessageConformance.Proofs.Results
import MessageConformance.Proofs.Settings.FileFields

/-!
# Which source of a setting counts

Settings are gathered from a file, the environment and the command line. What the file gives
(`FileGives`) lies over the default settings, the environment over the file, and the command line
over both (`merged`). `gathers_by_precedence` says when there are settings, and that they are the
merged ones and sound; when a variable is at fault, and that it is the first one; and when it is a
check that the merged settings break, and that it is the first one.
-/

namespace MessageConformance.Settings

open Data (Value)
open Files (Volume)

/-! ## Sound settings -/

/-- The checks of settings in the order they are made: whether each is passed, and what is said when
    it is not. -/
def checks (s : Settings) : List (Bool × String) :=
  [(decide (s.threads ≠ some 0), "Number of threads must be greater than 0"),
    (s.threads.all (· ≤ 1000), "Number of threads cannot exceed 1000"),
    (decide (s.timeout ≠ 0), "Timeout must be greater than 0"),
    (!(s.verbose && s.quiet), "Cannot enable both verbose and quiet modes"),
    (!s.extensions.isEmpty, "At least one file extension must be specified")] ++
  s.extensions.map fun extension =>
    (!isBadExtension extension, "Invalid file extension: " ++ extension)

/-- What is said of the first check that settings break. -/
def firstBroken? (s : Settings) : Option String := ((checks s).find? (!·.1)).map (·.2)

/-- Settings with which something can be done. -/
structure IsSound (s : Settings) : Prop where
  threads : ∀ n, s.threads = some n → 1 ≤ n ∧ n ≤ 1000
  timeout : 1 ≤ s.timeout
  verbosity : ¬ (s.verbose = true ∧ s.quiet = true)
  nonempty : s.extensions ≠ []
  extensions : ∀ extension ∈ s.extensions, ∀ c ∈ extension.toList, c ≠ '/' ∧ c ≠ '\\' ∧ c ≠ '.'

theorem isBadExtension_eq_false_iff (extension : String) :
    isBadExtension extension = false ↔
      ∀ c ∈ extension.toList, c ≠ '/' ∧ c ≠ '\\' ∧ c ≠ '.' := by
  simp [isBadExtension, and_assoc]

theorem fault?_eq_firstBroken? (s : Settings) : s.fault? = firstBroken? s := by
  have extensions : (s.extensions.find? isBadExtension).map ("Invalid file extension: " ++ ·) =
      ((s.extensions.map fun extension =>
        (!isBadExtension extension, "Invalid file extension: " ++ extension)).find?
          (!·.1)).map (·.2) := by
    rw [List.find?_map, Option.map_map]
    simp only [Function.comp_def, Bool.not_not]
  rw [fault?, firstBroken?, checks, extensions, List.find?_append]
  by_cases none : s.threads = some 0
  · simp [none]
  by_cases many : s.threads.any (· > 1000) = true
  · have fails : s.threads.all (· ≤ 1000) = false := by
      cases threads : s.threads <;> simp_all
    simp [none, many, fails]
  have holds : s.threads.all (· ≤ 1000) = true := by
    cases threads : s.threads <;> simp_all
  by_cases timeout : s.timeout = 0
  · simp [none, many, holds, timeout]
  by_cases both : (s.verbose && s.quiet) = true
  · simp [none, many, holds, timeout, both]
  by_cases empty : s.extensions.isEmpty = true
  · simp [none, many, holds, timeout, both, empty]
  · simp [none, many, holds, timeout, both, empty]

theorem firstBroken?_eq_none_iff (s : Settings) : firstBroken? s = none ↔ s.IsSound := by
  have threads : s.threads ≠ some 0 ∧ s.threads.all (· ≤ 1000) = true ↔
      ∀ n, s.threads = some n → 1 ≤ n ∧ n ≤ 1000 := by
    cases s.threads with
    | none => simp
    | some n => simp [Nat.one_le_iff_ne_zero]
  have passed : firstBroken? s = none ↔ ∀ c ∈ checks s, c.1 = true := by
    simp [firstBroken?, List.find?_eq_none]
  rw [passed]
  simp only [checks, List.forall_mem_append, List.forall_mem_cons, List.forall_mem_map,
    decide_eq_true_eq, Bool.not_eq_true', isBadExtension_eq_false_iff]
  constructor
  · rintro ⟨⟨none, few, timeout, verbosity, nonempty, -⟩, extensions⟩
    refine ⟨threads.1 ⟨none, few⟩, Nat.one_le_iff_ne_zero.2 timeout, ?_, ?_, extensions⟩
    · simpa using verbosity
    · simpa using nonempty
  · rintro ⟨numbers, timeout, verbosity, nonempty, extensions⟩
    obtain ⟨none, few⟩ := threads.2 numbers
    refine ⟨⟨none, few, Nat.one_le_iff_ne_zero.1 timeout, ?_, ?_, by simp⟩, extensions⟩
    · simpa using verbosity
    · simpa using nonempty

theorem check_eq_ok_iff {s s' : Settings} : s.check = .ok s' ↔ s' = s ∧ s.IsSound := by
  rw [← firstBroken?_eq_none_iff, ← fault?_eq_firstBroken?, check]
  cases s.fault? with
  | none => simp [eq_comm]
  | some reason => simp

theorem check_eq_error_iff {s : Settings} {e : SettingsFailure} :
    s.check = .error e ↔ ∃ reason, firstBroken? s = some reason ∧ e = .invalid reason := by
  rw [← fault?_eq_firstBroken?, check]
  cases s.fault? with
  | none => simp
  | some reason => simp [eq_comm]

/-! ## The settings file -/

def FileKind.parse? : FileKind → String → Option Value
  | .toml => Data.Toml.parse?
  | .json => Data.Json.parse?

def FileKind.extension : FileKind → String
  | .toml => "toml"
  | .json => "json"

/-- A text of a kind says a value, and settings can be decoded from it. -/
def Tells (kind : FileKind) (text : String) (v : Value) : Prop :=
  kind.parse? text = some v ∧ (decode? kind v).isSome

/-- A text in a file with an extension is a settings file of a kind. Without an extension it is one
    of the second kind only if it is none of the first. -/
def IsOfKind (extension : Option String) (text : String) (kind : FileKind) : Prop :=
  match extension with
  | some extension => extension = kind.extension
  | none => kind = .json → ∀ v, ¬ Tells .toml text v

/-- A path is that of the settings file: the one that is named, or else the first of the usual ones
    at which there is anything. -/
def IsSettingsPath (v : Volume) (userDirectory named : Option String) (path : String) : Prop :=
  match named with
  | some given => path = given
  | none => ∃ before after, filePaths userDirectory = before ++ path :: after ∧
      (∀ earlier ∈ before, v.contains? earlier = .ok false) ∧ v.contains? path = .ok true

/-- What the settings file gives, if it can be read; without one nothing is given. -/
inductive FileGives (v : Volume) (userDirectory named : Option String) : Layer → Prop where
  | nothing (unnamed : named = none)
      (absent : ∀ path ∈ filePaths userDirectory, v.contains? path = .ok false) :
      FileGives v userDirectory named {}
  | file {path : String} {content : Bytes} {text : String} {kind : FileKind} {value : Value}
      (settings : IsSettingsPath v userDirectory named path)
      (read : v.read path = .ok content) (decoded : content.text? = some text)
      (ofKind : IsOfKind (Files.extension? path) text kind) (tells : Tells kind text value) :
      FileGives v userDirectory named (.ofValue kind value)

/-- A failure of the settings file, and not of a variable or a check. -/
def IsOfFile : SettingsFailure → Prop
  | .environment _ | .invalid _ => False
  | _ => True

section

variable {v : Volume} {userDirectory named extension : Option String} {path text : String}
  {paths : List String} {s : Settings} {e : SettingsFailure}

/-- The settings in a text of a kind. -/
def FileKind.load : FileKind → String → Except SettingsFailure Settings
  | .toml => ofToml
  | .json => ofJson

theorem FileKind.load_eq_ok_iff (kind : FileKind) :
    kind.load text = .ok s ↔ ∃ value, Tells kind text value ∧ decode? kind value = some s := by
  have shape : kind.load text = .ok s ↔ (kind.parse? text).bind (decode? kind) = some s := by
    cases kind with
    | toml =>
      show ofToml text = .ok s ↔ (Data.Toml.parse? text >>= decode? .toml) = some s
      unfold ofToml
      cases Data.Toml.parse? text >>= decode? .toml <;> simp
    | json =>
      show ofJson text = .ok s ↔ (Data.Json.parse? text >>= decode? .json) = some s
      unfold ofJson
      cases Data.Json.parse? text >>= decode? .json <;> simp
  rw [shape, Option.bind_eq_some_iff]
  refine exists_congr fun value => ⟨fun ⟨parsed, decoded⟩ => ?_, fun ⟨tells, decoded⟩ => ?_⟩
  · exact ⟨⟨parsed, Option.isSome_of_eq_some decoded⟩, decoded⟩
  · exact ⟨tells.1, decoded⟩

theorem FileKind.isOfFile_of_load (kind : FileKind) (failed : kind.load text = .error e) :
    IsOfFile e := by
  cases kind with
  | toml =>
    change ofToml text = _ at failed
    unfold ofToml at failed
    split at failed <;> cases failed
    trivial
  | json =>
    change ofJson text = _ at failed
    unfold ofJson at failed
    split at failed <;> cases failed
    trivial

theorem ofText_eq_ok_iff :
    ofText extension text = .ok s ↔ ∃ kind value,
      IsOfKind extension text kind ∧ Tells kind text value ∧ decode? kind value = some s := by
  constructor
  · intro loaded
    unfold ofText at loaded
    split at loaded
    · split at loaded
      · next found =>
        obtain rfl := Except.ok.inj loaded
        obtain ⟨value, tells, decoded⟩ := (FileKind.load_eq_ok_iff .toml).1 found
        exact ⟨.toml, value, nofun, tells, decoded⟩
      · next failed =>
        obtain ⟨value, tells, decoded⟩ := (FileKind.load_eq_ok_iff .json).1 loaded
        refine ⟨.json, value, fun _ other told => ?_, tells, decoded⟩
        obtain ⟨s', here⟩ := Option.isSome_iff_exists.1 told.2
        have found := (FileKind.load_eq_ok_iff .toml).2 ⟨other, told, here⟩
        exact absurd (failed.symm.trans found) nofun
    · split at loaded
      · next toml =>
        obtain ⟨value, tells, decoded⟩ := (FileKind.load_eq_ok_iff .toml).1 loaded
        exact ⟨.toml, value, toml, tells, decoded⟩
      split at loaded
      · next json =>
        obtain ⟨value, tells, decoded⟩ := (FileKind.load_eq_ok_iff .json).1 loaded
        exact ⟨.json, value, json, tells, decoded⟩
      · cases loaded
  · rintro ⟨kind, value, ofKind, tells, decoded⟩
    have loaded := kind.load_eq_ok_iff.2 ⟨value, tells, decoded⟩
    cases extension with
    | none =>
      -- The second kind is tried only when the first one fails.
      cases kind with
      | toml =>
        have loaded : ofToml text = .ok s := loaded
        simp [ofText, loaded]
      | json =>
        have loaded : ofJson text = .ok s := loaded
        cases first : ofToml text with
        | error fault => simp [ofText, first, loaded]
        | ok s' =>
          obtain ⟨other, told, -⟩ := (FileKind.load_eq_ok_iff .toml).1 first
          exact absurd told (ofKind rfl other)
    | some extension =>
      obtain rfl : extension = kind.extension := ofKind
      cases kind with
      | toml => exact loaded
      | json => exact loaded

theorem isOfFile_of_ofText (failed : ofText extension text = .error e) : IsOfFile e := by
  unfold ofText at failed
  split at failed
  · split at failed
    · cases failed
    · exact FileKind.isOfFile_of_load .json failed
  · split at failed
    · exact FileKind.isOfFile_of_load .toml failed
    split at failed
    · exact FileKind.isOfFile_of_load .json failed
    · cases failed
      trivial

theorem load_eq_ok_iff :
    load v path = .ok s ↔ ∃ content text, v.read path = .ok content ∧ content.text? = some text ∧
      ofText (Files.extension? path) text = .ok s := by
  unfold load
  cases v.read path with
  | error fault => simp
  | ok content => cases decoded : content.text? <;> simp [decoded]

theorem isOfFile_of_load (failed : load v path = .error e) : IsOfFile e := by
  unfold load at failed
  split at failed
  · cases failed
    trivial
  split at failed
  · cases failed
    trivial
  · exact isOfFile_of_ofText failed

theorem loadFirst_eq_none_iff :
    loadFirst v paths = .ok none ↔ ∀ path ∈ paths, v.contains? path = .ok false := by
  induction paths with
  | nil => simp [loadFirst]
  | cons path paths ih =>
    rw [loadFirst, List.forall_mem_cons, ← ih]
    cases v.contains? path with
    | error fault => simp
    | ok found =>
      cases found with
      | true => simp [map_eq_ok_iff]
      | false => simp

/-- What is loaded is the first of the files that is there. -/
theorem loadFirst_eq_some_iff :
    loadFirst v paths = .ok (some s) ↔ ∃ before path after, paths = before ++ path :: after ∧
      (∀ earlier ∈ before, v.contains? earlier = .ok false) ∧ v.contains? path = .ok true ∧
      load v path = .ok s := by
  induction paths with
  | nil => simp [loadFirst]
  | cons path paths ih =>
    rw [loadFirst]
    constructor
    · intro loaded
      split at loaded
      · cases loaded
      · next found =>
        obtain ⟨s', here, same⟩ := map_eq_ok_iff.1 loaded
        obtain rfl := Option.some.inj same
        exact ⟨[], path, paths, rfl, by simp, found, here⟩
      · next missing =>
        obtain ⟨before, first, after, rfl, passed, found⟩ := ih.1 loaded
        exact ⟨path :: before, first, after, rfl, List.forall_mem_cons.2 ⟨missing, passed⟩, found⟩
    · rintro ⟨before, first, after, shape, passed, found, loaded⟩
      cases before with
      | nil =>
        obtain ⟨rfl, rfl⟩ := List.cons.inj shape
        simp [found, loaded, Except.map]
      | cons earlier before =>
        obtain ⟨rfl, rfl⟩ := List.cons.inj shape
        rw [List.forall_mem_cons] at passed
        rw [passed.1]
        exact ih.2 ⟨before, first, after, rfl, passed.2, found, loaded⟩

theorem isOfFile_of_loadFirst (failed : loadFirst v paths = .error e) : IsOfFile e := by
  induction paths with
  | nil => cases failed
  | cons path paths ih =>
    rw [loadFirst] at failed
    split at failed
    · cases failed
      trivial
    · cases loaded : load v path with
      | error fault =>
        rw [loaded] at failed
        cases failed
        exact isOfFile_of_load loaded
      | ok s =>
        rw [loaded] at failed
        cases failed
    · exact ih failed

theorem exists_fileGives_of_load (settings : IsSettingsPath v userDirectory named path)
    (loaded : load v path = .ok s) :
    ∃ file, FileGives v userDirectory named file ∧ default.merge s = file.on default := by
  obtain ⟨content, text, read, decoded, loaded⟩ := load_eq_ok_iff.1 loaded
  obtain ⟨kind, value, ofKind, tells, made⟩ := ofText_eq_ok_iff.1 loaded
  exact ⟨_, .file settings read decoded ofKind tells, merge_decode? made⟩

/-- The settings of the file are the default ones with what it gives over them. -/
theorem fromFile_eq_ok_iff :
    fromFile v userDirectory named = .ok s ↔
      ∃ file, FileGives v userDirectory named file ∧ s = file.on default := by
  constructor
  · intro made
    cases named with
    | some path =>
      obtain ⟨s', loaded, rfl⟩ := map_eq_ok_iff.1 made
      exact exists_fileGives_of_load rfl loaded
    | none =>
      obtain ⟨found, loaded, made⟩ := bind_eq_ok_iff.1 made
      cases found with
      | none =>
        obtain rfl := Except.ok.inj made
        exact ⟨{}, .nothing rfl (loadFirst_eq_none_iff.1 loaded), rfl⟩
      | some s' =>
        obtain rfl := Except.ok.inj made
        obtain ⟨before, path, after, shape, passed, there, loaded⟩ := loadFirst_eq_some_iff.1 loaded
        exact exists_fileGives_of_load ⟨before, after, shape, passed, there⟩ loaded
  · rintro ⟨file, gives, rfl⟩
    cases gives with
    | nothing unnamed absent =>
      subst unnamed
      exact bind_eq_ok_iff.2 ⟨none, loadFirst_eq_none_iff.2 absent, rfl⟩
    | @file path content text kind value settings read decoded ofKind tells =>
      obtain ⟨s', made⟩ := Option.isSome_iff_exists.1 tells.2
      have loaded : load v path = .ok s' :=
        load_eq_ok_iff.2 ⟨content, text, read, decoded,
          ofText_eq_ok_iff.2 ⟨kind, value, ofKind, tells, made⟩⟩
      rw [← merge_decode? made]
      cases named with
      | some given =>
        obtain rfl : path = given := settings
        exact map_eq_ok_iff.2 ⟨s', loaded, rfl⟩
      | none =>
        obtain ⟨before, after, shape, passed, there⟩ := settings
        exact bind_eq_ok_iff.2 ⟨some s',
          loadFirst_eq_some_iff.2 ⟨before, path, after, shape, passed, there, loaded⟩, rfl⟩

theorem isOfFile_of_fromFile (failed : fromFile v userDirectory named = .error e) :
    IsOfFile e := by
  unfold fromFile at failed
  cases named with
  | some path =>
    cases loaded : load v path with
    | error fault =>
      simp only [loaded] at failed
      cases failed
      exact isOfFile_of_load loaded
    | ok s =>
      simp only [loaded] at failed
      cases failed
  | none =>
    cases loaded : loadFirst v (filePaths userDirectory) with
    | error fault =>
      simp only [loaded] at failed
      cases failed
      exact isOfFile_of_loadFirst loaded
    | ok found =>
      simp only [loaded] at failed
      cases found <;> cases failed

end

/-! ## All sources -/

/-- Each setting from the command line if that gives it, else from the environment, else from the
    file, else the default. -/
def merged (a : Arguments) (env : Environment) (file : Layer) : Settings :=
  ((Layer.ofArguments a).above ((Layer.ofEnvironment env).above file)).on default

/-- What comes of the sources when the file can be read: the first variable that cannot be read is
    at fault, and else the first check that the merged settings break. -/
def concluded (a : Arguments) (env : Environment) (file : Layer) :
    Except SettingsFailure Settings :=
  match badVariable? env with
  | some (name, value) => .error (.environment (variableReason name value))
  | none => (merged a env file).check

section

variable {v : Volume} {userDirectory : Option String} {env : Environment} {a : Arguments}
  {file : Layer}

/-- When the file has been read, what is left depends on it only through the settings it gives. -/
theorem gather_of_fromFile {base : Settings}
    (loaded : fromFile v userDirectory a.settingsFile = .ok base) :
    gather v userDirectory env a =
      match badVariable? env with
      | some (name, value) => .error (.environment (variableReason name value))
      | none => ((Layer.ofArguments a).on ((Layer.ofEnvironment env).on base)).check := by
  rw [gather, loaded]
  show (applyEnvironment env _ >>= fun s => (applyArguments a s).check) = _
  rw [applyEnvironment_eq]
  cases badVariable? env with
  | some bad => rfl
  | none =>
    show (applyArguments a _).check = _
    rw [applyArguments_eq]

theorem gather_of_fromFile_error {e : SettingsFailure}
    (failed : fromFile v userDirectory a.settingsFile = .error e) :
    gather v userDirectory env a = .error e := by
  rw [gather, failed]
  rfl

theorem gather_eq (gives : FileGives v userDirectory a.settingsFile file) :
    gather v userDirectory env a = concluded a env file := by
  rw [gather_of_fromFile (fromFile_eq_ok_iff.2 ⟨file, gives, rfl⟩), concluded, merged,
    Layer.on_above, Layer.on_above]

/-- What is not a failure of the file comes of the sources when the file can be read. -/
theorem gather_eq_iff {outcome : Except SettingsFailure Settings}
    (other : ∀ e, outcome = .error e → ¬ IsOfFile e) :
    gather v userDirectory env a = outcome ↔
      ∃ file, FileGives v userDirectory a.settingsFile file ∧ concluded a env file = outcome := by
  constructor
  · intro made
    cases loaded : fromFile v userDirectory a.settingsFile with
    | error e =>
      exact absurd (isOfFile_of_fromFile loaded)
        (other e (made.symm.trans (gather_of_fromFile_error loaded)))
    | ok s =>
      obtain ⟨file, gives, -⟩ := fromFile_eq_ok_iff.1 loaded
      exact ⟨file, gives, (gather_eq gives).symm.trans made⟩
  · rintro ⟨file, gives, made⟩
    exact (gather_eq gives).trans made

theorem concluded_eq_ok_iff {s : Settings} :
    concluded a env file = .ok s ↔
      badVariable? env = none ∧ s = merged a env file ∧ s.IsSound := by
  rw [concluded]
  cases badVariable? env with
  | some bad => simp
  | none =>
    simp only [check_eq_ok_iff, true_and]
    exact and_congr_right fun same => by rw [same]

theorem concluded_eq_environment_iff {reason : String} :
    concluded a env file = .error (.environment reason) ↔
      ∃ name value, badVariable? env = some (name, value) ∧ reason = variableReason name value := by
  rw [concluded]
  cases badVariable? env with
  | some bad =>
    obtain ⟨name, value⟩ := bad
    simp [eq_comm]
  | none => simp [check_eq_error_iff]

theorem concluded_eq_invalid_iff {reason : String} :
    concluded a env file = .error (.invalid reason) ↔
      badVariable? env = none ∧ firstBroken? (merged a env file) = some reason := by
  rw [concluded]
  cases badVariable? env with
  | some bad => simp
  | none => simp [check_eq_error_iff]

end

/-- There are settings exactly if the settings file can be read, no variable is at fault, and the
    settings that are merged from the sources are sound; and they are these. A variable is at fault
    if the file can be read, whatever the command line gives, and the first one is named. A check is
    if no variable is, and the first one that the merged settings break is reported. -/
theorem gathers_by_precedence (v : Volume) (userDirectory : Option String) (env : Environment)
    (a : Arguments) :
    (∀ s, gather v userDirectory env a = .ok s ↔
      ∃ file, FileGives v userDirectory a.settingsFile file ∧ badVariable? env = none ∧
        s = merged a env file ∧ s.IsSound) ∧
    (∀ reason, gather v userDirectory env a = .error (.environment reason) ↔
      ∃ file, FileGives v userDirectory a.settingsFile file ∧
        ∃ name value, badVariable? env = some (name, value) ∧ reason = variableReason name value) ∧
    (∀ reason, gather v userDirectory env a = .error (.invalid reason) ↔
      ∃ file, FileGives v userDirectory a.settingsFile file ∧ badVariable? env = none ∧
        firstBroken? (merged a env file) = some reason) := by
  refine ⟨fun s => ?_, fun reason => ?_, fun reason => ?_⟩
  · rw [gather_eq_iff fun e failed => by cases failed]
    simp only [concluded_eq_ok_iff]
  · have other : ∀ e, Except.error (.environment reason) = (.error e : Except _ Settings) →
        ¬ IsOfFile e := by
      rintro e ⟨⟩
      exact id
    rw [gather_eq_iff other]
    simp only [concluded_eq_environment_iff]
  · have other : ∀ e, Except.error (.invalid reason) = (.error e : Except _ Settings) →
        ¬ IsOfFile e := by
      rintro e ⟨⟩
      exact id
    rw [gather_eq_iff other]
    simp only [concluded_eq_invalid_iff]

end MessageConformance.Settings
