/-!
# Output formats

How results are printed, and how much of them.
-/

namespace MessageConformance

/-- How results are printed. -/
inductive OutputFormat where
  | human
  | json
  deriving DecidableEq, Repr

namespace OutputFormat

def all : List OutputFormat := [human, json]

def name : OutputFormat → String
  | human => "human"
  | json => "json"

/-- The format of a name. -/
def ofName? (name : String) : Option OutputFormat := all.find? (·.name = name)

end OutputFormat

/-- How much is printed. -/
inductive Verbosity where
  | quiet
  | normal
  | verbose
  deriving DecidableEq, Repr

namespace Verbosity

/-- The verbosity of two flags, of which the quiet one wins. -/
def ofFlags (verbose quiet : Bool) : Verbosity :=
  if quiet then .quiet else if verbose then .verbose else .normal

/-- How grave a log message must be to be shown. -/
def logDirective : Verbosity → String
  | quiet => "error"
  | normal => "warn"
  | verbose => "debug"

end Verbosity
end MessageConformance
