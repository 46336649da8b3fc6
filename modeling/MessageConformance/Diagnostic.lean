/-!
# Diagnostics

A positioned message about a document, and the collector that sorts the messages
of one structural pass into errors and warnings. A fatal message counts as an
error; warnings never make a pass fail.
-/

namespace MessageConformance

/-- How grave a diagnostic is. -/
inductive Severity where
  | warning
  | error
  | fatal
  deriving DecidableEq, Repr

/-- One positioned message. -/
structure Diagnostic where
  severity : Severity
  line : Nat
  column : Nat
  message : String
  deriving DecidableEq, Repr

/-- The diagnostic as one line of text. -/
def Diagnostic.text (d : Diagnostic) : String :=
  "Line " ++ toString d.line ++ ", Column " ++ toString d.column ++ ": " ++ d.message

/-- One line per diagnostic, each ended by a line feed. -/
def Diagnostic.lines (ds : List Diagnostic) : String :=
  String.join (ds.map fun d => d.text ++ "\n")

/-- The diagnostics of one pass, in the order they were reported. -/
structure Collector where
  errors : List Diagnostic := []
  warnings : List Diagnostic := []
  deriving DecidableEq, Repr

namespace Collector

def empty : Collector := {}

/-- Adds a diagnostic to the warnings or to the errors, after the earlier ones. -/
def record (c : Collector) (d : Diagnostic) : Collector :=
  match d.severity with
  | .warning => { c with warnings := c.warnings ++ [d] }
  | .error | .fatal => { c with errors := c.errors ++ [d] }

def recordAll (c : Collector) (ds : List Diagnostic) : Collector := ds.foldl record c

/-- Whether an error or a fatal diagnostic was recorded. -/
def hasErrors (c : Collector) : Bool := !c.errors.isEmpty

/-- The warnings, then the errors, each under a heading; an empty section is left out. -/
def summary (c : Collector) : String :=
  (if c.warnings.isEmpty then "" else "Warnings:\n" ++ Diagnostic.lines c.warnings) ++
  (if c.errors.isEmpty then "" else "Errors:\n" ++ Diagnostic.lines c.errors)

end Collector
end MessageConformance
