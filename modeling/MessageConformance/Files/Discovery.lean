import MessageConformance.Failure
import MessageConformance.Files.Name
import MessageConformance.Files.Volume

/-!
# Finding message files

The files below a path that have one of the extensions sought, in ascending order of
their paths, compared name by name. An entry that cannot be examined is counted and
costs no other file.
-/

namespace MessageConformance.Files

/-- What is looked for: the extensions, in lower case; how many directories may lie
    between the start and a file; and whether links are followed. -/
structure Search where
  extensions : List String := ["xml"]
  maxDepth : Option Nat := none
  followsLinks : Bool := false

namespace Search

/-- A search for some extensions, whatever their case. -/
def ofExtensions (extensions : List String) : Search :=
  { extensions := extensions.map Text.lower }

def accepts (s : Search) (path : String) : Bool := hasExtension s.extensions path

/-- Whether directories at a depth are looked into. -/
def enters (s : Search) (depth : Nat) : Bool :=
  match s.maxDepth with
  | none => true
  | some limit => depth < limit

end Search

/-- Files found, as the names that lead to them, and the number of entries that could not
    be examined. -/
structure Haul where
  trails : List (List String) := []
  errors : Nat := 0

/-- Two hauls together. -/
def Haul.append (a b : Haul) : Haul := ⟨a.trails ++ b.trails, a.errors + b.errors⟩

/-- An entry that could not be examined. -/
def Haul.fault : Haul := ⟨[], 1⟩

mutual

/-- Explores an entry. `around` are the directories around it and `trail` the names that
    lead to it, its own last; `budget` is the number of links that may still be passed. -/
def explore (s : Search) (budget : Nat) (around : List Directory) (depth : Nat)
    (trail : List String) (entry : Entry) : Haul :=
  match entry with
  | .file _ => if s.accepts (trail.getLast?.getD "") then ⟨[trail], 0⟩ else {}
  | .directory entries =>
    if s.enters depth then exploreAll s budget (entries :: around) (depth + 1) trail entries
    else {}
  | .closed => if s.enters depth then .fault else {}
  | .special => {}
  | .link target =>
    if !s.followsLinks then {}
    else match budget with
      | 0 => .fault
      | budget + 1 =>
        match walk budget (start around target) (Text.split '/' target) with
        | .error _ => .fault
        | .ok place =>
          match place.entry with
          | .directory _ =>
            explore s (min place.budget budget) (up place.around) depth trail place.entry
          | found => explore s (min place.budget budget) place.around depth trail found
termination_by (budget, sizeOf entry)

/-- Explores the entries of a directory. -/
def exploreAll (s : Search) (budget : Nat) (around : List Directory) (depth : Nat)
    (trail : List String) (entries : Directory) : Haul :=
  match entries with
  | [] => {}
  | (name, entry) :: rest =>
    (explore s budget around depth (trail ++ [name]) entry).append
      (exploreAll s budget around depth trail rest)
termination_by (budget, sizeOf entries)

end

/-- Whether names come before others, or are the same, compared from the first on. -/
def comesFirst : List String → List String → Bool
  | [], _ => true
  | _ :: _, [] => false
  | a :: as, b :: bs => a < b || (a == b && comesFirst as bs)

/-- Files found below a path. -/
structure Discovery where
  files : List String
  errors : Nat
  deriving DecidableEq, Repr

/-- How many files were found. -/
def Discovery.found (d : Discovery) : Nat := d.files.length

/-- The files that a search finds at a path or below it. -/
def discover (v : Volume) (s : Search) (path : String) : Except Failure Discovery :=
  match v.locate path with
  | .error fault => .error (.io fault.text)
  | .ok place =>
    match place.entry with
    | .file _ => .ok ⟨if s.accepts path then [path] else [], 0⟩
    | .directory entries =>
      let haul := exploreAll s place.budget place.around 0 [] entries
      .ok ⟨(haul.trails.mergeSort comesFirst).map (·.foldl join path), haul.errors⟩
    | .closed => .error (.io PathFault.denied.text)
    | _ => .error (.traversal path "neither a file nor a directory")

end MessageConformance.Files
