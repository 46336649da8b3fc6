import MessageConformance.Message.Node
import MessageConformance.Message.Token
import MessageConformance.Message.CharacterData

/-!
# Names in scope

The namespaces that a start tag declares, those in scope inside it, and the names
that its labels stand for.
-/

namespace MessageConformance.Message

open Markup

/-- The namespace of the label `xml`, bound to no other label. -/
def xmlSpace : String := "http://www.w3.org/XML/1998/namespace"

/-- The namespace of declarations, bound to no label. -/
def declarationSpace : String := "http://www.w3.org/2000/xmlns/"

/-- An attribute with its value expanded. -/
structure ReadAttribute where
  name : QualifiedName
  value : String
  deriving DecidableEq, Repr

/-- Expands the values of attributes. -/
def readAttributes? (raw : List RawAttribute) : Option (List ReadAttribute) :=
  raw.mapM fun a => (attributeValue? a.value).map (⟨a.name, ·⟩)

/-- Whether an attribute declares a namespace. -/
def ReadAttribute.declares (a : ReadAttribute) : Bool :=
  a.name.label = "xmlns" ∨ a.name.localName = "xmlns"

/-- Adds what a declaration binds to the bindings declared before it. The label `xml`
    is bound to its own namespace only, which needs no entry; a label is declared once,
    while of several default namespaces the first counts. -/
def ReadAttribute.declare? (declared : List Binding) (a : ReadAttribute) :
    Option (List Binding) :=
  if a.value = declarationSpace then none
  else if a.name.label = "xmlns" then
    if a.name.localName = "xml" then
      if a.value = xmlSpace then some declared else none
    else if a.value = xmlSpace then none
    else if declared.any (·.label = some a.name.localName) then none
    else some (declared ++ [⟨some a.name.localName, a.value⟩])
  else if a.value = xmlSpace then none
  else some (declared ++ [⟨none, a.value⟩])

/-- The bindings that some attributes declare, in order. -/
def declared? (attributes : List ReadAttribute) : Option (List Binding) :=
  (attributes.filter (·.declares)).foldlM ReadAttribute.declare? []

/-- Takes over a binding from outside unless its label is bound. -/
def inherit (scope : List Binding) (outer : Binding) : List Binding :=
  if scope.any (·.label = outer.label) then scope else scope ++ [outer]

/-- The bindings in scope inside a tag, given those it declares and those outside. -/
def scopeOf (declared outer : List Binding) : List Binding :=
  if declared.isEmpty then outer else outer.foldl inherit declared

/-- The namespace that a label stands for. -/
def lookUp (scope : List Binding) (label : Option String) : Option String :=
  (scope.find? (·.label = label)).map (·.uri)

/-- The name that a qualified name of an element stands for. -/
def elementName? (scope : List Binding) (name : QualifiedName) : Option Name :=
  if name.label = "" then some ⟨lookUp scope none, name.localName⟩
  else if name.label = "xmlns" then none
  else (lookUp scope (some name.label)).map (⟨some ·, name.localName⟩)

/-- The name that a qualified name of an attribute stands for. -/
def attributeName? (scope : List Binding) (name : QualifiedName) : Option Name :=
  if name.label = "" then some ⟨none, name.localName⟩
  else if name.label = "xml" then some ⟨some xmlSpace, name.localName⟩
  else (lookUp scope (some name.label)).map (⟨some ·, name.localName⟩)

/-- Adds an attribute, unless one of its name is there. -/
def addAttribute? (scope : List Binding) (named : List Attribute) (a : ReadAttribute) :
    Option (List Attribute) := do
  let name ← attributeName? scope a.name
  if named.any (·.name = name) then none else some (named ++ [⟨name, a.value⟩])

/-- The element that a start tag begins, given the bindings in scope outside it. -/
def Tag.read? (outer : List Binding) (name : QualifiedName) (raw : List RawAttribute) :
    Option Tag := do
  let attributes ← readAttributes? raw
  let scope := scopeOf (← declared? attributes) outer
  let name ← elementName? scope name
  let attributes ← (attributes.filter fun a => !a.declares).foldlM (addAttribute? scope) []
  return ⟨name, scope, attributes⟩

end MessageConformance.Message
