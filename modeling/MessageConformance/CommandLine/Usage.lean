import MessageConformance.CommandLine.Arguments

/-!
# Usage

What the command line says about itself.
-/

namespace MessageConformance.CommandLine

def version : String := "as4-validate 0.1.0"

/-- A line about each argument. -/
def argumentLines : List (String × String) := [
  ("<PATH>", "Directory or file to validate"),
  ("--schema-dir <DIR>", "Directory holding the schema resources"),
  ("--context <CONTEXT>", "Schema group for whole-document validation"),
  ("--receipt", "Run the receipt check instead"),
  ("--mode <MODE>", "Outcome mode: disabled, advisory or enforcing"),
  ("-e, --extensions <LIST>", "File extensions to process (e.g., 'xml,soap')"),
  ("-t, --threads <N>", "Number of concurrent validation tasks"),
  ("--timeout <SECONDS>", "Per-file timeout in seconds"),
  ("--format <FORMAT>", "Output format: human or json"),
  ("-v, --verbose", "Enable verbose output"),
  ("-q, --quiet", "Quiet mode"),
  ("--config <FILE>", "Configuration file (TOML or JSON)"),
  ("-h, --help", "Print help"),
  ("-V, --version", "Print version")]

/-- A line about an argument, its description in a column of its own. -/
def argumentLine (name description : String) : String :=
  "  " ++ name ++ String.ofList (List.replicate (26 - name.length) ' ') ++ description ++ "\n"

/-- How the program is used. -/
def usage : String := "Usage: as4-validate [OPTIONS] <PATH>\n"

/-- What the program is for and how it is used. -/
def help : String :=
  "Validate AS4 messages and non-repudiation receipts\n\n" ++ usage ++ "\n" ++
    String.join (argumentLines.map fun (name, description) => argumentLine name description)

end MessageConformance.CommandLine

namespace MessageConformance

/-- What a command line with a fault is told. -/
def UsageFault.text : UsageFault → String
  | argumentConflict => "an argument cannot be used with another one, or twice"
  | invalidValue => "an argument has an invalid value or none"
  | valueValidation => "an argument needs a number"
  | unknownArgument => "an argument is unknown"
  | tooManyValues => "an argument takes no value"
  | missingRequired => "the required argument <PATH> was not provided"
  | displayHelp => CommandLine.help
  | displayVersion => CommandLine.version

end MessageConformance
