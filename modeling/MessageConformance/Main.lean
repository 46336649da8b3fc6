import MessageConformance.Batch
import MessageConformance.CommandLine.Parser
import MessageConformance.CommandLine.Usage
import MessageConformance.Files.Mounting
import MessageConformance.Report.Printing
import MessageConformance.Settings.Sources

/-!
# The program

Reads what the command line, the environment and the file system say, and has the library
decide. No schema engine is linked in: a message that has to be checked against schemas
gives a result that says so.
-/

namespace MessageConformance.Program

open Files (Entry Volume)

/-- What stands at an entry of a directory. A link is read as what it leads to, unless links
    are left alone or it leads to a directory around it. -/
partial def readEntry (followsLinks : Bool) (around : List String) (e : IO.FS.DirEntry) :
    IO Entry := do
  if (← e.path.symlinkMetadata).type == .symlink then
    let target ← (IO.FS.realPath e.path).toBaseIO
    match followsLinks, target with
    | true, .ok path =>
      if around.contains path.toString then return .special
      else readEntry followsLinks around ⟨"", path.toString⟩
    | _, _ => return .special
  else match (← e.path.metadata).type with
    | .dir =>
      match ← e.path.readDir.toBaseIO with
      | .error _ => return .closed
      | .ok entries =>
        let inside := (← IO.FS.realPath e.path).toString :: around
        let entries ← entries.toList.mapM fun inner => do
          return (inner.fileName, ← readEntry followsLinks inside inner)
        return .directory entries
    | .file =>
      match ← (IO.FS.readBinFile e.path).toBaseIO with
      | .error _ => return .file none
      | .ok content => return .file (some content.data.toList)
    | _ => return .special

/-- Takes what stands at a path of the file system into a volume, if anything does. -/
def mountPath (followsLinks : Bool) (v : Volume) (path : String) : IO Volume := do
  match ← (IO.FS.realPath path).toBaseIO with
  | .error _ => return v
  | .ok real => return v.mount path (← readEntry followsLinks [] ⟨"", real.toString⟩)

/-- The directory that holds the user's settings. -/
def userDirectory : IO (Option String) := do
  match ← IO.getEnv "XDG_CONFIG_HOME" with
  | some directory => if Files.isAbsolute directory then return some directory
  | none => pure ()
  return (← IO.getEnv "HOME").map (Files.join · ".config")

/-- The values of the variables that settings have. -/
def environment : IO Settings.Environment := do
  let values ← Settings.settable.mapM fun (name, _) => do
    let fullName := Settings.variableName name
    return (fullName, ← IO.getEnv fullName)
  return fun name => (values.lookup name).join

/-- Reports what keeps the program from running. -/
def refuse (reason : String) : IO UInt32 := do
  IO.eprintln ("Error: " ++ reason)
  return 2

/-- Checks the files that settings ask for at a path. -/
def check (v : Volume) (s : Settings) (path : String) : IO UInt32 := do
  let store := (← mountPath true v s.schemaDirectory).store s.schemaDirectory
  let job : Job := { mode := s.outcomeMode, context := s.context, isReceipt := s.isReceipt }
  let work := job.checkPath .unavailable store v (.ofExtensions s.extensions) path
  match (work.run.run .empty).1.1 with
  | .error cause => refuse ("failed to validate " ++ path ++ ": " ++ cause.text)
  | .ok files =>
    match Results.aggregate files with
    | .error fault => refuse fault.text
    | .ok results =>
      IO.print (results.text s.format s.verbosity)
      return UInt32.ofNat results.exitCode

/-- Runs with the arguments of a command line. -/
def run (a : Arguments) : IO UInt32 := do
  let directory ← userDirectory
  let here := Files.steps (← IO.currentDir).toString
  let v ← mountPath false (.empty here) a.path
  let v ← (a.settingsFile.toList ++ Settings.filePaths directory).foldlM (mountPath false) v
  match a.fault? v with
  | some reason => refuse reason
  | none =>
    match Settings.gather v directory (← environment) a with
    | .error cause => refuse ("failed to load configuration: " ++ cause.text)
    | .ok s => check v s a.path

/-- Runs with the words of a command line. -/
def start (words : List String) : IO UInt32 := do
  match CommandLine.parse words with
  | .ok a => run a
  | .error .displayHelp => IO.print CommandLine.help; return 0
  | .error .displayVersion => IO.println CommandLine.version; return 0
  | .error fault =>
    IO.eprintln ("error: " ++ fault.text ++ "\n\n" ++ CommandLine.usage)
    return 2

end MessageConformance.Program

/-- Checks messages as the command line asks, and exits with the code of the results. -/
def main (words : List String) : IO UInt32 := MessageConformance.Program.start words
