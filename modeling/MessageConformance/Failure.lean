import MessageConformance.Text.Blank
import MessageConformance.Diagnostic

/-!
# Failures

Everything that can go wrong, as causes. Each type has one function that words it:
`Violation.message`, `SchemaFailure.text`, `MessageFailure.text`,
`EngineFailure.text`, `SettingsFailure.text`, `Failure.text`.
-/

namespace MessageConformance

/-! ## Receipts -/

/-- The ways in which a message can miss the receipt profile. -/
inductive ConformanceCode where
  | receiptAbsent
  | missingNonRepudiationInformation
  | multipleNonRepudiationInformation
  | missingMessagePart
  | referenceWithIdentifier
  | missingDigestReference
  | multipleReceipts
  | messagingHeader
  deriving DecidableEq, Repr

namespace ConformanceCode

/-- The name of a code in reports. -/
def name : ConformanceCode → String
  | receiptAbsent => "ReceiptAbsent"
  | missingNonRepudiationInformation => "MissingNonRepudiationInformation"
  | multipleNonRepudiationInformation => "MultipleNonRepudiationInformation"
  | missingMessagePart => "MissingMessagePartNRInformation"
  | referenceWithIdentifier => "ReferenceWithMessagePartIdentifier"
  | missingDigestReference => "MissingDigestReference"
  | multipleReceipts => "MultipleReceipts"
  | messagingHeader => "MessagingHeader"

def all : List ConformanceCode :=
  [receiptAbsent, missingNonRepudiationInformation, multipleNonRepudiationInformation,
    missingMessagePart, referenceWithIdentifier, missingDigestReference, multipleReceipts,
    messagingHeader]

/-- The code that is reported to the sending party. -/
def ebms : ConformanceCode → String
  | receiptAbsent => "EBMS:0301"
  | _ => "EBMS:0302"

/-- Whether a rule was broken, rather than nothing found to apply the rules to. -/
def isViolation (code : ConformanceCode) : Bool := code != receiptAbsent

end ConformanceCode

/-- A broken rule of the receipt profile. -/
structure Violation where
  code : ConformanceCode
  message : String
  deriving DecidableEq, Repr

/-! ## Schemas -/

/-- How a schema names another one. -/
inductive ReferenceKind where
  | imports
  | includes
  | redefines
  deriving DecidableEq, Repr

/-- The element name of a reference. -/
def ReferenceKind.name : ReferenceKind → String
  | imports => "import"
  | includes => "include"
  | redefines => "redefine"

/-- Why a group of schemas could not be loaded or compiled. -/
inductive SchemaFailure where
  | notFound (path : String)
  | unreadable (path details : String)
  | invalid (path details : String)
  | unresolved (kind : ReferenceKind) (reference base : String)
  | noPaths
  | notCompiled (details : String)
  deriving DecidableEq, Repr

def SchemaFailure.text : SchemaFailure → String
  | notFound path => "Schema resource not found: " ++ path
  | unreadable path details => "Failed to read schema resource: " ++ path ++ " - " ++ details
  | invalid path details => "Invalid schema resource: " ++ path ++ " - " ++ details
  | unresolved kind reference base =>
    "Unresolved schema " ++ kind.name ++ " '" ++ reference ++ "' in " ++ base
  | noPaths => "Empty schema path set"
  | notCompiled details => details

/-! ## Messages -/

/-- Why a message could not be read or written. -/
inductive MessageFailure where
  | malformed (details : String)
  | notWritable (element details : String)
  deriving DecidableEq, Repr

def MessageFailure.text : MessageFailure → String
  | malformed details => "XML is not well-formed: " ++ details
  | notWritable element details => "Failed to serialize element " ++ element ++ ": " ++ details

/-! ## The schema engine -/

/-- What the schema engine can fail at. -/
inductive EngineFailure where
  | schemaRejected (details : String)
  | noSession
  | tooLarge (size : Nat)
  | outOfMemory
  | internal (code : Int)
  deriving DecidableEq, Repr

def EngineFailure.text : EngineFailure → String
  | schemaRejected details => "Schema parsing failed: " ++ details
  | noSession => "Validation context creation failed"
  | tooLarge size => "Document too large for libxml2: " ++ toString size ++ " bytes"
  | outOfMemory => "Memory allocation failed in libxml2"
  | internal code => "Schema validation internal error: code " ++ toString code

/-- An engine failure while a schema group is compiled: a rejected schema speaks for
    itself, everything else is reported as the engine words it. -/
def EngineFailure.toSchemaFailure : EngineFailure → SchemaFailure
  | schemaRejected details => .notCompiled details
  | other => .notCompiled other.text

/-! ## Settings -/

/-- Why settings could not be loaded. -/
inductive SettingsFailure where
  | io (details : String)
  | toml (details : String)
  | json (details : String)
  | invalid (reason : String)
  | environment (reason : String)
  | unsupportedFormat (extension : String)
  deriving DecidableEq, Repr

def SettingsFailure.text : SettingsFailure → String
  | io details => "IO error: " ++ details
  | toml details => "TOML parsing error: " ++ details
  | json details => "JSON parsing error: " ++ details
  | invalid reason => "Configuration validation error: " ++ reason
  | environment reason => "Environment variable error: " ++ reason
  | unsupportedFormat extension => "Unsupported configuration file format: " ++ extension

/-! ## All of them -/

/-- Why a message failed, or why it could not be judged. -/
inductive Failure where
  | schema (cause : SchemaFailure)
  | structural (errors warnings : List Diagnostic)
  | receiptAbsent
  | conformance (violation : Violation)
  | unknownNamespace (uri : String)
  | document (cause : MessageFailure)
  | io (details : String)
  | settings (details : String)
  | engine (details : String)
  | traversal (path reason : String)
  | concurrency (details : String)
  deriving DecidableEq, Repr

def Failure.text : Failure → String
  | schema cause => "Schema compilation failed: " ++ cause.text
  | structural errors _ =>
    "Structural validation failed: " ++ Text.trimEnd (Diagnostic.lines errors)
  | receiptAbsent => "Receipt not found in the response message"
  | conformance violation => violation.message
  | unknownNamespace uri => "No prefix found for namespace URI: " ++ uri
  | document cause => "Document error: " ++ cause.text
  | io details => "IO error: " ++ details
  | settings details => "Configuration error: " ++ details
  | engine details => "LibXML2 internal error: " ++ details
  | traversal path reason => "File system traversal error: " ++ path ++ " - " ++ reason
  | concurrency details => "Concurrent operation error: " ++ details

/-- The code reported to the sending party, where one applies. -/
def Failure.ebms? : Failure → Option String
  | receiptAbsent => some ConformanceCode.receiptAbsent.ebms
  | conformance violation => some violation.code.ebms
  | structural _ _ => some "EBMS:0302"
  | _ => none

/-- A violation as a failure: an absent receipt is a failure of its own. -/
def Violation.toFailure (v : Violation) : Failure :=
  if v.code = .receiptAbsent then .receiptAbsent else .conformance v

/-- An engine failure outside compilation. -/
def EngineFailure.toFailure (cause : EngineFailure) : Failure := .engine cause.text

/-- A settings failure among the others. -/
def SettingsFailure.toFailure (cause : SettingsFailure) : Failure := .settings cause.text

/-- The collected warnings, or the structural failure when an error was collected. -/
def Collector.result (c : Collector) : Except Failure (List Diagnostic) :=
  if c.errors.isEmpty then .ok c.warnings else .error (.structural c.errors c.warnings)

end MessageConformance
