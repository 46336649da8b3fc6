import MessageConformance.Text.Bytes
import MessageConformance.Text.Split

/-!
# Volumes

A finite tree of files, directories and symbolic links, and the way a path leads through
it. A link is followed by walking its target from the directory it stands in; a path may
pass at most `linkLimit` links.
-/

namespace MessageConformance.Files

/-- What stands under a name in a directory. A closed directory can neither be listed nor
    searched, and a file without content cannot be read. -/
inductive Entry where
  | file (content : Option Bytes)
  | directory (entries : List (String × Entry))
  | closed
  | link (target : String)
  | special

/-- The entries of a directory. -/
abbrev Directory := List (String × Entry)

/-- A directory tree, and the names that lead to the working directory. -/
structure Volume where
  root : Directory
  here : List String

/-- Why a path cannot be followed or read. -/
inductive PathFault where
  | missing
  | notDirectory
  | isDirectory
  | tooManyLinks
  | denied
  deriving DecidableEq, Repr

def PathFault.text : PathFault → String
  | missing => "No such file or directory (os error 2)"
  | notDirectory => "Not a directory (os error 20)"
  | isDirectory => "Is a directory (os error 21)"
  | tooManyLinks => "Too many levels of symbolic links (os error 40)"
  | denied => "Permission denied (os error 13)"

def linkLimit : Nat := 40

/-- Where a path leads: what is there, which is no link, the directories around it from
    the innermost to the root, and the links that may still be passed. -/
structure Place where
  entry : Entry
  around : List Directory
  budget : Nat

/-- The directories around the one above. The root is above itself. -/
def up : List Directory → List Directory
  | _ :: outer :: rest => outer :: rest
  | around => around

def isAbsolute (path : String) : Bool := path.toList.head? = some '/'

/-- The directory that a walk along a path begins in, and those around it. -/
def start (around : List Directory) (path : String) : List Directory :=
  if isAbsolute path then around.getLast?.toList else around

/-- Walks along the steps of a path. -/
def walk (budget : Nat) (around : List Directory) (path : List String) :
    Except PathFault Place :=
  match path with
  | [] => .ok ⟨.directory (around.headD []), around, budget⟩
  | step :: path =>
    if step = "" ∨ step = "." then walk budget around path
    else if step = ".." then walk budget (up around) path
    else
      match (around.headD []).lookup step with
      | none => .error .missing
      | some (.directory entries) => walk budget (entries :: around) path
      | some .closed =>
        if path.all (· = "") then .ok ⟨.closed, around, budget⟩ else .error .denied
      | some (.link target) =>
        match budget with
        | 0 => .error .tooManyLinks
        | budget + 1 => walk budget (start around target) (Text.split '/' target ++ path)
      | some entry => if path.isEmpty then .ok ⟨entry, around, budget⟩ else .error .notDirectory
termination_by (budget, path.length)

namespace Volume

/-- The directories from the working directory to the root. -/
def around (v : Volume) : List Directory :=
  match walk 0 [v.root] v.here with
  | .ok place => place.around
  | .error _ => [v.root]

/-- Where a path leads. -/
def locate (v : Volume) (path : String) : Except PathFault Place :=
  if path = "" then .error .missing
  else walk linkLimit (start v.around path) (Text.split '/' path)

def contains (v : Volume) (path : String) : Bool := (v.locate path).isOk

/-- Whether a path leads anywhere, when it can be told: only a missing entry means no. -/
def contains? (v : Volume) (path : String) : Except PathFault Bool :=
  match v.locate path with
  | .ok _ => .ok true
  | .error .missing => .ok false
  | .error fault => .error fault

/-- The content of the file that a path leads to. -/
def read (v : Volume) (path : String) : Except PathFault Bytes := do
  match (← v.locate path).entry with
  | .file (some content) => .ok content
  | .file none => .error .denied
  | .special => .ok []
  | _ => .error .isDirectory

end Volume

/-! ## Building volumes -/

/-- Puts an entry where names lead, in the place of an earlier one, through directories that
    are made if need be. Anything else in the way stays. -/
def put (entry : Entry) : List String → Directory → Directory
  | [], directory => directory
  | [name], directory =>
    if (directory.lookup name).isSome then
      directory.map fun (n, e) => if n = name then (n, entry) else (n, e)
    else directory ++ [(name, entry)]
  | name :: names, directory =>
    match directory.lookup name with
    | some (.directory inner) =>
      directory.map fun (n, e) =>
        if n = name then (n, .directory (put entry names inner)) else (n, e)
    | some _ => directory
    | none => directory ++ [(name, .directory (put entry names []))]

/-- Makes the directories that names lead through. What is there stays. -/
def makeDirectory : List String → Directory → Directory
  | [], directory => directory
  | name :: names, directory =>
    match directory.lookup name with
    | some (.directory inner) =>
      directory.map fun (n, e) =>
        if n = name then (n, .directory (makeDirectory names inner)) else (n, e)
    | some _ => directory
    | none => directory ++ [(name, .directory (makeDirectory names []))]

end MessageConformance.Files
