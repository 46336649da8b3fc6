import MessageConformance.Failure
import MessageConformance.Store

/-!
# Finding referenced schemas

A reference is looked for at its candidate locations in order, and the first one
that can be read is taken. A group member is read at its own path only.
-/

namespace MessageConformance

/-- A document and the location it was found at. -/
structure Resource where
  location : Location
  content : Bytes
  deriving DecidableEq

namespace Resolver

/-- The directories in which every reference is looked for, in order. -/
def fallbackDirectories : List String := ["", "ebxml/", "w3/", "xmlsoap/"]

/-- Whether a reference is written relative to the document it stands in. -/
def isRelative (reference : String) : Bool :=
  ['.', '/'].isPrefixOf reference.toList || ['.', '.', '/'].isPrefixOf reference.toList

/-- The locations at which a reference in the document at `base` is looked for, in
    order: beside the document when the reference is relative, then below each fallback
    directory. White space around the reference is ignored, and an empty one has none. -/
def candidates (reference : String) (base : Option Location) : List Location :=
  let reference := Text.trim reference
  if reference = "" then []
  else
    let beside := if isRelative reference then base.bind fun b => b.resolve? reference else none
    beside.toList ++
      fallbackDirectories.filterMap fun directory => Location.parse? (directory ++ reference)

/-- The first of some locations that can be read. -/
def firstReadable (store : Store) : List Location → Reading (Option Resource)
  | [] => pure none
  | location :: rest => do
    match ← store.read location with
    | .found content => pure (some ⟨location, content⟩)
    | .missing | .broken _ => firstReadable store rest

/-- The document that a reference in the document at `base` stands for. -/
def resolve (store : Store) (reference : String) (base : Option Location) :
    Reading (Option Resource) :=
  firstReadable store (candidates reference base)

def load (store : Store) (path : String) : Loading SchemaFailure Resource := do
  match Location.parse? path with
  | none => throw (.notFound path)
  | some location =>
    match ← (store.read location : Reading Lookup) with
    | .found content => pure ⟨location, content⟩
    | .missing => throw (.notFound path)
    | .broken reason => throw (.unreadable path reason)

end Resolver
end MessageConformance
