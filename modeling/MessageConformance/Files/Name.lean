import MessageConformance.Text.Lowercase
import MessageConformance.Text.Split

/-!
# File names

The name that a path ends in and the extension of that name.
-/

namespace MessageConformance.Files

/-- The steps of a path that lead somewhere else. -/
def steps (path : String) : List String :=
  (Text.split '/' path).filter fun step => step ≠ "" ∧ step ≠ "."

/-- The name that a path ends in, if it ends in one. -/
def fileName? (path : String) : Option String := (steps path).getLast?.filter (· ≠ "..")

/-- What follows the last dot of a name. A dot that the name begins with counts only when
    there is another one. -/
def extensionOf? (name : String) : Option String :=
  match Text.cutOnce (· == '.') name.toList.reverse with
  | some (after, before) => if before.isEmpty then none else some (String.ofList after.reverse)
  | none => none

/-- The extension of the name that a path ends in. -/
def extension? (path : String) : Option String := (fileName? path).bind extensionOf?

/-- Whether a path has one of some extensions, whatever its case. The extensions are in
    lower case. -/
def hasExtension (extensions : List String) (path : String) : Bool :=
  match extension? path with
  | some extension => extensions.contains (Text.lower extension)
  | none => false

/-- A path followed by a name. -/
def join (path name : String) : String :=
  if path = "" ∨ path.toList.getLast? = some '/' then path ++ name else path ++ "/" ++ name

end MessageConformance.Files
