import MessageConformance.Failure
import MessageConformance.Policy
import MessageConformance.Report.Duration

/-!
# Results

What came of each file, and of all of them together.
-/

namespace MessageConformance

/-- What came of a file. -/
inductive Status where
  | valid
  | invalid (errorCount : Nat)
  | nonConformant (ebms message : String)
  | error (message : String)
  | skipped (reason : String)
  deriving DecidableEq, Repr

namespace Status

/-- Whether a file is in order. -/
def isValid : Status → Bool
  | valid => true
  | _ => false

/-- Whether the structure of a file is wrong. -/
def isInvalid : Status → Bool
  | invalid _ => true
  | _ => false

/-- Whether a receipt misses the profile. -/
def isNonConformant : Status → Bool
  | nonConformant _ _ => true
  | _ => false

/-- Whether a file could not be judged. -/
def isError : Status → Bool
  | error _ => true
  | _ => false

/-- Whether a file was left alone. -/
def isSkipped : Status → Bool
  | skipped _ => true
  | _ => false

def isFailure (s : Status) : Bool := s.isInvalid || s.isNonConformant || s.isError

end Status

/-- The result of one file. -/
structure FileResult where
  path : String
  status : Status
  action : Action
  duration : Duration
  details : List String
  deriving DecidableEq, Repr

namespace FileResult

/-- A file in order. -/
def ofValid (path : String) (duration : Duration) : FileResult :=
  ⟨path, .valid, .proceed, duration, []⟩

/-- A file that could not be judged. -/
def ofError (path : String) (cause : Failure) (duration : Duration) : FileResult :=
  ⟨path, .error cause.text, .proceed, duration, [cause.text]⟩

/-- A file that was left alone. -/
def ofSkipped (path reason : String) (duration : Duration) : FileResult :=
  ⟨path, .skipped reason, .proceed, duration, [reason]⟩

/-- The status of a file with a finding, and its details. -/
def findingStatus : Failure → Status × List String
  | .structural errors _ => (.invalid errors.length, errors.map Diagnostic.text)
  | .document cause => (.invalid 1, [cause.text])
  | cause => (.nonConformant (cause.ebms?.getD "") cause.text, [cause.text])

/-- A file with a finding. -/
def ofFinding (path : String) (cause : Failure) (action : Action) (duration : Duration) :
    FileResult :=
  let (status, details) := findingStatus cause
  ⟨path, status, action, duration, details⟩

end FileResult

/-- The results of some files. -/
structure Results where
  files : List FileResult
  totalDuration : Duration
  averageDuration : Duration
  deriving DecidableEq, Repr

namespace Results

/-- Results together with the sum and the mean of their durations. -/
def aggregate (files : List FileResult) : Except Duration.Fault Results := do
  let total ← Duration.sum (files.map (·.duration))
  let average ← if files.isEmpty then .ok .zero else total.divide files.length
  return ⟨files, total, average⟩

def count (r : Results) (kind : Status → Bool) : Nat := (r.files.filter fun f => kind f.status).length

def totalFiles (r : Results) : Nat := r.files.length

def abortedFiles (r : Results) : Nat := (r.files.filter fun f => f.action = .abort).length

/-- Whether something was found wrong with a file. -/
def hasFailures (r : Results) : Bool :=
  0 < r.count Status.isInvalid || 0 < r.count Status.isNonConformant

/-- Whether a file could not be judged. -/
def hasErrors (r : Results) : Bool := 0 < r.count Status.isError

/-- The exit code: one when the pipeline is to stop or a file could not be judged. -/
def exitCode (r : Results) : Nat := if 0 < r.abortedFiles || r.hasErrors then 1 else 0

def successRate (r : Results) : Float :=
  if r.files.isEmpty then 0.0
  else (r.count Status.isValid).toUInt64.toFloat / r.totalFiles.toUInt64.toFloat * 100.0

end Results
end MessageConformance
