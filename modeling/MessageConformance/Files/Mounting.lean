import MessageConformance.Files.Name
import MessageConformance.Files.Volume
import MessageConformance.Store

/-!
# Mounting

Entries are put into a volume where a path leads, so that a walk along the same path finds
them. The files below a directory make a store.
-/

namespace MessageConformance.Files

/-- The places that steps pass from `above`, whose names are latest first. -/
def passed (above : List String) : List String → List (List String)
  | [] => []
  | step :: steps =>
    let place := if step = ".." then above.drop 1 else step :: above
    place.reverse :: passed place steps

/-- The root after an entry is put where names lead; with no names the entry is the root
    itself. -/
def putAt (entry : Entry) (names : List String) (root : Directory) : Directory :=
  match names, entry with
  | [], .directory entries => entries
  | names, entry => put entry names root

/-- Puts an entry where a path leads, and the directories that the path passes. -/
def Volume.mount (v : Volume) (path : String) (entry : Entry) : Volume :=
  let above := if isAbsolute path then [] else v.here.reverse
  let places := passed above (steps path)
  let root := places.dropLast.foldl (fun root place => makeDirectory place root) v.root
  { v with root := putAt entry (places.getLastD above.reverse) root }

/-- A volume that holds nothing but its working directory. -/
def Volume.empty (here : List String) : Volume := ⟨makeDirectory here [], here⟩

mutual

/-- The files that can be read at an entry or below it, with their paths. -/
def filesAt (path : String) : Entry → List (String × Bytes)
  | .file (some content) => [(path, content)]
  | .directory entries => filesIn path entries
  | _ => []

/-- The files that can be read below a directory, with their paths. -/
def filesIn (path : String) : List (String × Entry) → List (String × Bytes)
  | [] => []
  | (name, entry) :: rest => filesAt (join path name) entry ++ filesIn path rest

end

/-- The documents below a directory, as a store. -/
def Volume.store (v : Volume) (directory : String) : Store :=
  match v.locate directory with
  | .ok ⟨.directory entries, _, _⟩ =>
    (filesIn "" entries).foldl (fun store (path, content) =>
      (store.insert? path content).getD store) .empty
  | _ => .empty

end MessageConformance.Files
