import MessageConformance.Failure
import MessageConformance.Text.Bytes

/-!
# Schema engines

A schema engine compiles schemas and checks documents against them. Here it is whatever
answers the questions it is asked: nothing is assumed about its answers. An engine knows
a compiled schema by the texts it was given, the driver schema and the documents served
while it was compiled.
-/

namespace MessageConformance

/-- A record that an engine reports. -/
structure Record where
  level : Int
  line : Int
  column : Int
  message : Option Bytes
  deriving DecidableEq, Repr

namespace Record

/-- The severity of a level: one is a warning, three is fatal, any other an error. -/
def severity (level : Int) : Severity :=
  if level = 1 then .warning else if level = 3 then .fatal else .error

/-- The diagnostic of a record: a negative position counts as zero, and a missing message
    is worded. -/
def diagnostic (r : Record) : Diagnostic where
  severity := severity r.level
  line := r.line.toNat
  column := r.column.toNat
  message := match r.message with
    | none => "unknown libxml2 error"
    | some message => Text.trim message.lossyText

end Record

/-- What an engine reports, in order; empty reports are ignored. -/
abbrev Report := List (Option Record)

/-- The diagnostics of a report. -/
def Report.diagnostics (report : Report) : List Diagnostic :=
  (report.filterMap id).map Record.diagnostic

/-- An address that an engine asks for; an engine may also ask for none. -/
abbrev Url := Option Bytes

/-- The texts that a schema was compiled from: its driver, and what was served. -/
structure SchemaInput where
  driver : Bytes
  served : List (Option Bytes)
  deriving DecidableEq

/-- What an engine does with a document. -/
inductive Pass where
  | malformed (lastError : Option Record)
  | checked (report : Report) (code : Int)
  deriving DecidableEq, Repr

/-- A schema engine, as its answers. -/
structure Engine where
  /-- The addresses asked for while a driver is compiled; `none` if it cannot be read. -/
  requests : Bytes → Option (List Url)
  /-- What is reported while a schema is compiled, and whether one comes out. -/
  compile : SchemaInput → Report × Bool
  /-- Whether documents can be checked against a compiled schema. -/
  opens : SchemaInput → Bool
  /-- What happens to a document that is checked against a compiled schema. -/
  pass : SchemaInput → Bytes → Pass
  /-- What the engine loads itself when no catalog is bound. -/
  fetch : Url → Option Bytes

/-- An engine that cannot compile anything. -/
def Engine.unavailable : Engine where
  requests _ := none
  compile _ := ([], false)
  opens _ := false
  pass _ _ := .malformed none
  fetch _ := none

/-- Something that an engine was asked to do. -/
inductive EngineCall where
  | noParser
  | schema (driver : Bytes) (served : List (Option Bytes)) (isCompiled : Bool)
  | document (text : Bytes)
  deriving DecidableEq

/-- The outcome of a pass by its code. -/
inductive Verdict where
  | valid
  | invalid (errorCount : Int)
  | internalError (code : Int)
  deriving DecidableEq, Repr

/-- The verdict of a code: zero is valid, and a negative code is no judgement. -/
def Verdict.ofCode (code : Int) : Verdict :=
  if code = 0 then .valid else if 0 < code then .invalid code else .internalError code

def Verdict.text : Verdict → String
  | valid => "Valid"
  | invalid errorCount => "Invalid \x7b error_count: " ++ toString errorCount ++ " \x7d"
  | internalError code => "InternalError \x7b code: " ++ toString code ++ " \x7d"

/-- The most bytes that an engine takes at once. -/
def sizeLimit : Nat := Nat.pow 2 31 - 1

/-- The diagnostic of a document that cannot be read: the last error, made fatal. -/
def unreadable (lastError : Option Record) : Diagnostic :=
  match lastError with
  | none => ⟨.fatal, 0, 0, "Document is not well-formed"⟩
  | some r => { r.diagnostic with severity := .fatal }

/-- What the engine reports about a document, into a collector, and its verdict. -/
def Pass.report (collector : Collector) : Pass → Collector × Except EngineFailure Verdict
  | .malformed lastError => (collector.record (unreadable lastError), .ok (.invalid 1))
  | .checked report code =>
    (collector.recordAll report.diagnostics,
      match Verdict.ofCode code with
      | .internalError code => .error (.internal code)
      | verdict => .ok verdict)

end MessageConformance
