import MessageConformance.Message.Node

/-!
# Addresses in a message

Places of elements, counted among element siblings from the document down. Listing
nodes together with their addresses changes neither the nodes nor their order
(`map_placed`).
-/

namespace MessageConformance.Message

/-- Positions among element siblings, outermost first. -/
abbrev Address := List Nat

mutual

/-- The nodes below a node, each with its address. -/
def placedBelow (here : Address) : Node → List (Address × Node)
  | .element _ nodes => placed here 0 nodes
  | _ => []

/-- Some siblings, of which the next element has number `next`, each followed by the nodes
    below it, all with their addresses. -/
def placed (parent : Address) (next : Nat) : List Node → List (Address × Node)
  | [] => []
  | n :: ns =>
    (parent ++ [next], n) :: (placedBelow (parent ++ [next]) n ++
      placed parent (if n.isElement then next + 1 else next) ns)

end

mutual

theorem map_placedBelow (here : Address) : (n : Node) →
    (placedBelow here n).map (·.2) = n.descendants
  | .element _ nodes => by simp [placedBelow, Node.descendants, map_placed here 0 nodes]
  | .text _ => by simp [placedBelow, Node.descendants]
  | .comment _ => by simp [placedBelow, Node.descendants]
  | .instruction _ => by simp [placedBelow, Node.descendants]

/-- Addresses leave the nodes and their order alone. -/
theorem map_placed (parent : Address) (next : Nat) : (nodes : List Node) →
    (placed parent next nodes).map (·.2) = Node.preorder nodes
  | [] => by simp [placed, Node.preorder]
  | n :: ns => by
    simp [placed, Node.preorder, map_placedBelow (parent ++ [next]) n, map_placed parent _ ns]

end

/-- Some siblings with their addresses. -/
def placedSiblings (parent : Address) (next : Nat) : List Node → List (Address × Node)
  | [] => []
  | n :: ns =>
    (parent ++ [next], n) :: placedSiblings parent (if n.isElement then next + 1 else next) ns

/-- A step down: to a child counted among the elements or among all nodes. -/
inductive Step where
  | element (n : Nat)
  | node (n : Nat)
  deriving DecidableEq, Repr

/-- A node with its address, or the whole document, whose address is empty. -/
structure Site where
  address : Address
  node? : Option Node
  content : List Node

namespace Site

/-- The document as a whole. -/
def whole (d : Document) : Site := ⟨[], none, d.nodes⟩

/-- A node at an address. -/
def ofPlace (place : Address × Node) : Site := ⟨place.1, some place.2, place.2.children⟩

/-- The children with their addresses. -/
def children (s : Site) : List (Address × Node) := placedSiblings s.address 0 s.content

/-- The nodes below with their addresses. -/
def descendants (s : Site) : List (Address × Node) := placed s.address 0 s.content

/-- The child that a step leads to. -/
def step? (s : Site) : Step → Option Site
  | .element n => ((s.children.filter (·.2.isElement))[n]?).map ofPlace
  | .node n => (s.children[n]?).map ofPlace

/-- The site that steps from the root element lead to. -/
def find? (d : Document) (steps : List Step) : Option Site := do
  steps.foldlM step? (← (whole d).step? (.element 0))

end Site
end MessageConformance.Message
