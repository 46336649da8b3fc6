import MessageConformance.Files.Discovery
import MessageConformance.Receipt.Inspection
import MessageConformance.Report.Results

/-!
# Checking files

Files are checked one after the other on one cache. Each gives one result in its place;
nothing that happens to a file keeps the others from being checked. The time that is
taken is not measured here.
-/

namespace MessageConformance

open Files (Volume Search discover)

/-- How files are checked: against the schemas of a context, or as receipts. -/
structure Job where
  mode : Mode := .advisory
  context : Context := .signalMessage
  isReceipt : Bool := false
  registry : Registry := .as4

namespace Job

/-- The result of a file whose document was checked against the schemas. -/
def documentResult (job : Job) (path : String) :
    Except Failure (List Diagnostic) → FileResult
  | .ok _ => .ofValid path .zero
  | .error (.structural errors warnings) =>
    .ofFinding path (.structural errors warnings) job.mode.decide .zero
  | .error cause => .ofError path cause .zero

/-- The result of a file that was inspected as a receipt. -/
def receiptResult (path : String) : Except Failure Receipt.Outcome → FileResult
  | .ok .valid => .ofValid path .zero
  | .ok .notReceipt => .ofSkipped path "no receipt in message" .zero
  | .ok .skipped => .ofSkipped path "validation disabled" .zero
  | .ok (.failed cause action) => .ofFinding path cause action .zero
  | .error cause => .ofError path cause .zero

/-- Checks the content of a file. A receipt must be text. -/
def checkContent (job : Job) (engine : Engine) (store : Store) (path : String)
    (content : Bytes) : Work FileResult :=
  if job.isReceipt then
    match content.text? with
    | none => return .ofError path (.io content.firstFault.text) .zero
    | some message => do
      let outcome ← (Receipt.inspect engine store job.registry job.mode message).run
      return receiptResult path outcome
  else do
    let attempt := do
      let session ← sessionFor engine store job.context
      session.check engine content
    let outcome ← attempt.run
    return job.documentResult path outcome

/-- Checks a file. It is not read when messages are not checked. -/
def checkFile (job : Job) (engine : Engine) (store : Store) (volume : Volume) (path : String) :
    Work FileResult :=
  if job.mode.checks then
    match volume.read path with
    | .error fault => return .ofError path (.io fault.text) .zero
    | .ok content => job.checkContent engine store path content
  else return .ofSkipped path "validation disabled" .zero

def checkFiles (job : Job) (engine : Engine) (store : Store) (volume : Volume) :
    List String → Work (List FileResult)
  | [] => return []
  | path :: paths => do
    let result ← job.checkFile engine store volume path
    let results ← job.checkFiles engine store volume paths
    return result :: results

/-- Checks the files that a search finds at a path or below it. -/
def checkPath (job : Job) (engine : Engine) (store : Store) (volume : Volume) (search : Search)
    (path : String) : Attempt (List FileResult) := do
  let found ← Attempt.ofExcept (discover volume search path)
  (job.checkFiles engine store volume found.files : Work _)

end Job
end MessageConformance
