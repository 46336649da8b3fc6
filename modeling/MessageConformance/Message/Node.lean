/-!
# Message trees

The elements, text, comments and instructions of a message, and the queries on them.
Queries match on namespace and local name, never on the label that a sender used.
-/

namespace MessageConformance.Message

/-- The name of an element or attribute: its namespace, if it has one, and its local
    name. The empty namespace is not the same as none. -/
structure Name where
  space : Option String
  localName : String
  deriving DecidableEq, Repr

/-- A namespace in scope: its label, `none` for the default one, and its URI. -/
structure Binding where
  label : Option String
  uri : String
  deriving DecidableEq, Repr

/-- An attribute and its value. -/
structure Attribute where
  name : Name
  value : String
  deriving DecidableEq, Repr

/-- An element without its content. The first binding of a label in `scope` counts. -/
structure Tag where
  name : Name
  scope : List Binding
  attributes : List Attribute
  deriving DecidableEq, Repr

/-- A node of a message. -/
inductive Node where
  | element (tag : Tag) (children : List Node)
  | text (content : String)
  | comment (content : String)
  | instruction (content : String)
  deriving Repr

namespace Node

/-- The content of an element; other nodes have none. -/
def children : Node → List Node
  | element _ nodes => nodes
  | _ => []

/-- The tag of an element. -/
def tag? : Node → Option Tag
  | element tag _ => some tag
  | _ => none

def isElement (n : Node) : Bool := n.tag?.isSome

/-- The local name of an element. -/
def localName? (n : Node) : Option String := n.tag?.map (·.name.localName)

mutual

/-- The nodes strictly below a node, in document order. -/
def descendants : Node → List Node
  | element _ nodes => preorder nodes
  | _ => []

/-- Some nodes, each followed by the nodes below it. -/
def preorder : List Node → List Node
  | [] => []
  | n :: ns => n :: (descendants n ++ preorder ns)

end

end Node

/-- What a query asks of an element. -/
inductive Query where
  | named (uri localName : String)
  | anySpace (localName : String)
  deriving DecidableEq, Repr

namespace Query

/-- Whether an element is asked for. A name without namespace counts as one in the
    empty namespace. -/
def accepts (q : Query) (n : Node) : Bool :=
  match n.tag? with
  | none => false
  | some tag =>
    match q with
    | named uri localName => tag.name.localName = localName ∧ tag.name.space.getD "" = uri
    | anySpace localName => tag.name.localName = localName

/-- The children of a node that are asked for. -/
def children (q : Query) (n : Node) : List Node := n.children.filter q.accepts

/-- The nodes strictly below a node that are asked for, in document order. -/
def descendants (q : Query) (n : Node) : List Node := n.descendants.filter q.accepts

/-- The nodes asked for among some siblings and all below them, in document order. -/
def among (q : Query) (nodes : List Node) : List Node := (Node.preorder nodes).filter q.accepts

/-- The first node strictly below a node that is asked for. -/
def first? (q : Query) (n : Node) : Option Node := n.descendants.find? q.accepts

end Query

/-- A message: its root element, and the comments and instructions around it. -/
structure Document where
  before : List Node
  tag : Tag
  content : List Node
  after : List Node

namespace Document

def root (d : Document) : Node := .element d.tag d.content

/-- The nodes outside every element, in document order. -/
def nodes (d : Document) : List Node := d.before ++ d.root :: d.after

end Document
end MessageConformance.Message
