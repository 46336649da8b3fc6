import MessageConformance.Schema.Rewriting

/-!
# Driver schemas

The one schema through which a group is compiled. It imports each target namespace of
the members once and includes the members that have none. Members that share a
namespace are first included into a wrapper document of that namespace, which is added to
the catalog.
-/

namespace MessageConformance.Schema

open Bytes

/-- A reference in a generated schema. -/
inductive Link where
  | includes (l : Location)
  | imports (uri : String) (l : Location)
  deriving DecidableEq

def Link.written : Link → Bytes
  | includes l => writeTag (ascii "xs:include") [.ofText locationName (address l)] true
  | imports uri l =>
    writeTag (ascii "xs:import")
      [.ofText (ascii "namespace") uri, .ofText locationName (address l)] true

/-- A schema that holds nothing but references. -/
def writeSchema (targetNamespace : Option String) (links : List Link) : Bytes :=
  let target := targetNamespace.toList.map (Attribute.ofText targetName)
  writeTag (ascii "xs:schema") (⟨ascii "xmlns:xs", schemaSpace⟩ :: target) false ++
    links.flatMap Link.written ++ ascii "</xs:schema>"

/-- Members that are referred to together: one without namespace, or all of a namespace. -/
structure Group where
  targetNamespace : Option String
  members : List Location
  deriving DecidableEq

/-- Adds a member to the group of its namespace, or as a new group. -/
def addMember (targetNamespace : Option String) (member : Location) : List Group → List Group
  | [] => [⟨targetNamespace, [member]⟩]
  | group :: groups =>
    if targetNamespace.isSome && group.targetNamespace = targetNamespace then
      { group with members := group.members ++ [member] } :: groups
    else group :: addMember targetNamespace member groups

/-- The groups of some members, in the order of their first members. -/
def groupsOf (members : List (Location × Option String)) : List Group :=
  members.foldl (fun groups (member, targetNamespace) => addMember targetNamespace member groups)
    []

/-- The path of the wrapper document of a group, given its position. -/
def wrapperPath (position : Nat) : String := ".bundle/" ++ toString position ++ ".xsd"

/-- The references to a group, and the catalog with its wrapper document if it has one. -/
def linkGroup (catalog : Catalog) (position : Nat) (group : Group) :
    Except SchemaFailure (Catalog × List Link) :=
  match group.targetNamespace, group.members with
  | none, members => .ok (catalog, members.map .includes)
  | some uri, [member] => .ok (catalog, [.imports uri member])
  | some uri, members =>
    match Location.parse? (wrapperPath position) with
    | none => .error (.notCompiled "invalid bundle wrapper location")
    | some wrapper => do
      let catalog ← catalog.insert wrapper (writeSchema (some uri) (members.map .includes))
      return (catalog, [.imports uri wrapper])

/-- The references to some groups from a position on. -/
def linkGroups (catalog : Catalog) (position : Nat) :
    List Group → Except SchemaFailure (Catalog × List Link)
  | [] => .ok (catalog, [])
  | group :: groups => do
    let (catalog, links) ← linkGroup catalog position group
    let (catalog, rest) ← linkGroups catalog (position + 1) groups
    return (catalog, links ++ rest)

/-- The driver schema of some members, and the catalog with the wrapper documents. -/
def buildDriver (catalog : Catalog) (members : List (Location × Option String)) :
    Except SchemaFailure (Catalog × Bytes) := do
  let (catalog, links) ← linkGroups catalog 0 (groupsOf members)
  return (catalog, writeSchema none links)

end MessageConformance.Schema
