import MessageConformance.Failure
import MessageConformance.Message.Scope

/-!
# Writing messages

An element is written as a message of its own: its start tag declares every namespace
in scope, so that the names below keep their meaning, and the start tags below declare
what changes. Comments and instructions are left out.
-/

namespace MessageConformance.Message

open Markup

/-! ## Tokens as text -/

def QualifiedName.chars (name : QualifiedName) : List Char :=
  if name.label = "" then name.localName.toList
  else name.label.toList ++ ':' :: name.localName.toList

/-- An attribute as it is written, after a space. -/
def RawAttribute.chars (a : RawAttribute) : List Char :=
  ' ' :: QualifiedName.chars a.name ++ '=' :: '"' :: a.value ++ ['"']

def Token.chars : Token → List Char
  | opening name attributes isEmpty =>
    '<' :: QualifiedName.chars name ++ attributes.flatMap RawAttribute.chars ++
      (if isEmpty then ['/', '>'] else ['>'])
  | closing name => '<' :: '/' :: QualifiedName.chars name ++ ['>']
  | text raw => raw
  | literal content => "<![CDATA[".toList ++ content ++ "]]>".toList
  | comment content => "<!--".toList ++ content ++ "-->".toList
  | instruction content => '<' :: '?' :: content ++ ['?', '>']

/-! ## Elements as tokens -/

def hasDefault (scope : List Binding) : Bool := scope.any (·.label = none)

/-- The bindings that a start tag declares when those in `outer?` are in scope outside it;
    the outermost one declares all of its own. -/
def declarations (outer? : Option (List Binding)) (scope : List Binding) : List Binding :=
  match outer? with
  | none => scope
  | some outer =>
    scope.filter (fun b => !outer.contains b) ++
      (if hasDefault outer && !hasDefault scope then [⟨none, ""⟩] else [])

/-- The declaration of a binding. -/
def Binding.declaration (b : Binding) : RawAttribute :=
  let name := match b.label with
    | some label => ⟨"xmlns", label⟩
    | none => ⟨"", "xmlns"⟩
  ⟨name, escape b.uri.toList⟩

/-- A qualified name for a name, by the first suitable binding in scope. Only the name of
    an element may use the default namespace, and does so if it can. -/
def qualify (scope : List Binding) (useDefault : Bool) (name : Name) :
    Except MessageFailure QualifiedName :=
  match name.space with
  | none => .ok ⟨"", name.localName⟩
  | some uri =>
    if uri = xmlSpace then .ok ⟨"xml", name.localName⟩
    else
      let bindings := scope.filter (·.uri = uri)
      if useDefault && hasDefault bindings then .ok ⟨"", name.localName⟩
      else match bindings.findSome? (·.label) with
        | some label => .ok ⟨label, name.localName⟩
        | none => .error (.notWritable name.localName ("no prefix in scope for namespace " ++ uri))

def Attribute.raw (scope : List Binding) (a : Attribute) : Except MessageFailure RawAttribute :=
  (qualify scope false a.name).map (⟨·, escape a.value.toList⟩)

/-- The attributes of a start tag: its declarations, then its own attributes. -/
def Tag.raw (outer? : Option (List Binding)) (tag : Tag) :
    Except MessageFailure (List RawAttribute) := do
  let own ← tag.attributes.mapM (Attribute.raw tag.scope)
  return (declarations outer? tag.scope).map Binding.declaration ++ own

namespace Node

mutual

/-- The tokens of a node where the bindings in `outer?` are in scope. -/
def tokens (outer? : Option (List Binding)) : Node → Except MessageFailure (List Token)
  | element tag nodes => do
    let name ← qualify tag.scope true tag.name
    let attributes ← tag.raw outer?
    if nodes.isEmpty then return [.opening name attributes true]
    let inner ← tokensOfAll tag.scope nodes
    return .opening name attributes false :: inner ++ [.closing name]
  | text content => .ok [.text (escape content.toList)]
  | comment _ => .ok []
  | instruction _ => .ok []

/-- The tokens of some nodes where the bindings in `outer` are in scope. -/
def tokensOfAll (outer : List Binding) : List Node → Except MessageFailure (List Token)
  | [] => .ok []
  | n :: ns => do
    let first ← tokens (some outer) n
    let rest ← tokensOfAll outer ns
    return first ++ rest

end

/-- The kind of a node in reports. -/
def kind : Node → String
  | element _ _ => "Element"
  | text _ => "Text"
  | comment _ => "Comment"
  | instruction _ => "PI"

/-- That something other than an element cannot be written. -/
def notElement (kind : String) : MessageFailure :=
  .notWritable kind "only element nodes can be serialized"

/-- Writes an element as a message of its own. -/
def serialize (n : Node) : Except MessageFailure String :=
  if n.isElement then
    (n.tokens none).map fun tokens => String.ofList (tokens.flatMap Token.chars)
  else .error (notElement n.kind)

end Node

/-- A message as a whole is no element. -/
def Document.serialize (_ : Document) : Except MessageFailure String :=
  .error (Node.notElement "Root")

end MessageConformance.Message
