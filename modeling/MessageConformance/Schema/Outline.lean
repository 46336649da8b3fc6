import MessageConformance.Failure
import MessageConformance.Schema.Attributes
import MessageConformance.Schema.Entities

/-!
# Outlines of schema documents

What the loader needs to know of a document: its parts in order, of which some are
references to other schemas and the others are copied, its target namespace, and the
fault at which reading stopped. A part counts only if the parts before it are sound, so
the references before a fault are known.
-/

namespace MessageConformance.Schema

open Bytes

/-- The namespace of schema elements. -/
def schemaSpace : Bytes := ascii "http://www.w3.org/2001/XMLSchema"

/-- The namespace of the label `xml`. -/
def xmlSpace : Bytes := ascii "http://www.w3.org/XML/1998/namespace"

/-- The namespace of declarations. -/
def declarationSpace : Bytes := ascii "http://www.w3.org/2000/xmlns/"

/-! ## Namespaces -/

/-- The namespaces in scope by label, the empty label for the default one, innermost
    first. They are compared as written. -/
abbrev Scope := List (Bytes × Bytes)

/-- The label that an attribute binds, the empty one for the default namespace. -/
def boundLabel? (name : Bytes) : Option Bytes :=
  if name = ascii "xmlns" then some []
  else if (ascii "xmlns:").isPrefixOf name then some (name.drop 6)
  else none

/-- Adds what an attribute binds; `none` for a binding that is not allowed. -/
def bind? (scope : Scope) (a : Attribute) : Option Scope :=
  match boundLabel? a.name with
  | none => some scope
  | some label =>
    if a.name = ascii "xmlns" then some ((label, a.value) :: scope)
    else if label = ascii "xml" then if a.value = xmlSpace then some scope else none
    else if label = ascii "xmlns" ∨ a.value = xmlSpace ∨ a.value = declarationSpace then none
    else some ((label, a.value) :: scope)

/-- The namespaces inside a tag, given those outside it. -/
def scopeInside? (outer : Scope) (attributes : Attributes) : Option Scope :=
  attributes.list.foldlM bind? outer

/-- The namespace of an element name. A label that is written but empty stands for none. -/
def spaceOf? (scope : Scope) (name : Bytes) : Option Bytes :=
  match label? name with
  | none => scope.lookup []
  | some [] => none
  | some label => scope.lookup label

/-- Whether a name stands for an element of schemas. -/
def isSchemaName (scope : Scope) (name : Bytes) : Bool := spaceOf? scope name = some schemaSpace

/-! ## Parts -/

/-- An element that refers to another schema: its attributes other than the location, and
    the location as the document means it. -/
structure Reference where
  kind : ReferenceKind
  name : Bytes
  attributes : List Attribute
  target : String
  isEmpty : Bool
  deriving DecidableEq, Repr

/-- A part of a document. -/
inductive Part where
  | copied (token : Token)
  | reference (r : Reference)
  deriving DecidableEq, Repr

/-- Why reading a document stopped. -/
inductive Fault where
  | notSchema
  | noRoot
  | malformed (reason : String)
  deriving DecidableEq, Repr

def Fault.text : Fault → String
  | notSchema => "root element is not xs:schema"
  | noRoot => "document has no root element"
  | malformed reason => reason

/-- The kind of reference that an element of schemas makes. -/
def referenceKind? (localName : Bytes) : Option ReferenceKind :=
  if localName = ascii "import" then some .imports
  else if localName = ascii "include" then some .includes
  else if localName = ascii "redefine" then some .redefines
  else none

/-- The name of the attribute that holds the location of a referenced schema. -/
def locationName : Bytes := ascii "schemaLocation"

/-- The name of the attribute that holds the namespace of a schema. -/
def targetName : Bytes := ascii "targetNamespace"

/-! ## Reading -/

/-- What is known while a document is read. -/
structure Draft where
  rootSeen : Bool := false
  targetNamespace : Option String := none
  entities : Entities := []
  openElements : List (Bytes × Scope) := []

namespace Draft

/-- The namespaces in scope. -/
def scope (d : Draft) : Scope := (d.openElements.head?.map (·.2)).getD []

/-- Reads the root tag: it must be that of a schema, and its target namespace readable. -/
def readRoot (d : Draft) (scope : Scope) (name : Bytes) (attributes : Attributes) :
    Except Fault Draft :=
  if d.rootSeen then .ok d
  else if isSchemaName scope name && localName name = ascii "schema" then
    match attributes.find? targetName with
    | none => .error (.malformed "malformed attribute")
    | some none => .ok { d with rootSeen := true }
    | some (some value) =>
      match expand? d.entities value with
      | some uri => .ok { d with rootSeen := true, targetNamespace := some uri }
      | none => .error (.malformed "malformed attribute value")
  else .error .notSchema

/-- Reads a tag as a part: a reference to another schema if it holds a location. -/
def readPart (d : Draft) (scope : Scope) (token : Token) (name : Bytes)
    (attributes : Attributes) (isEmpty : Bool) : Except Fault Part :=
  match (if isSchemaName scope name then referenceKind? (localName name) else none) with
  | none => .ok (.copied token)
  | some kind =>
    if !attributes.areSound then .error (.malformed "malformed attributes")
    else match attributes.list.find? (·.name = locationName) with
      | none => .ok (.copied token)
      | some location =>
        match expand? d.entities location.value with
        | none => .error (.malformed "malformed attribute value")
        | some target =>
          .ok (.reference ⟨kind, name, attributes.list.filter (·.name ≠ locationName), target,
            isEmpty⟩)

/-- Reads a start tag or an empty one. -/
def readTag (d : Draft) (token : Token) (content : Bytes) (isEmpty : Bool) :
    Except Fault (Draft × Part) := do
  let name := tagName content
  let attributes := Attributes.of content
  match scopeInside? d.scope attributes with
  | none => throw (.malformed "reserved namespace")
  | some scope =>
    let d ← d.readRoot scope name attributes
    let part ← d.readPart scope token name attributes isEmpty
    if isEmpty then return (d, part)
    else return ({ d with openElements := (name, scope) :: d.openElements }, part)

/-- Reads one token. An end tag closes the innermost open element. -/
def step (d : Draft) (token : Token) : Except Fault (Draft × Part) :=
  match token with
  | .opening content => d.readTag token content false
  | .emptyTag content => d.readTag token content true
  | .closing name _ =>
    match d.openElements with
    | [] => .error (.malformed "unmatched end tag")
    | (openName, _) :: outer =>
      if openName = name then .ok ({ d with openElements := outer }, .copied token)
      else .error (.malformed "mismatched end tag")
  | .documentType _ _ content =>
    .ok ({ d with entities := Entities.of (lossyText content).toList }, .copied token)
  | _ => .ok (d, .copied token)

/-- The parts of some tokens, as far as they are sound, and what is known after them. -/
def read (d : Draft) : List Token → List Part × Except Fault Draft
  | [] => ([], .ok d)
  | token :: tokens =>
    match d.step token with
    | .error fault => ([], .error fault)
    | .ok (d, part) =>
      let (parts, result) := read d tokens
      (part :: parts, result)

end Draft

/-- The parts of a document up to the fault at which reading stopped; without one, its
    target namespace. -/
structure Outline where
  parts : List Part
  targetNamespace : Except Fault (Option String)

/-- What a document comes to when all its tokens have been read. -/
def conclude (isWhole : Bool) (d : Draft) : Except Fault (Option String) :=
  if !isWhole then .error (.malformed "unterminated markup")
  else if d.rootSeen then .ok d.targetNamespace
  else .error .noRoot

/-- The outline of a document. Elements may be open at its end. -/
def Outline.of (content : Bytes) : Outline :=
  let scan := Scan.of content
  let (parts, result) := Draft.read {} scan.tokens
  ⟨parts, result.bind (conclude scan.isWhole)⟩

end MessageConformance.Schema
