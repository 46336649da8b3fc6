import Mathlib.Data.Finset.Dedup
import MessageConformance.Proofs.Message.Copies

/-!
# Names and bindings of elements that are read back

An outline keeps the elements of a tree and what is told of each (`Node.outlines`). Writing an
element of a message always succeeds; where its bindings can be declared again, what is read back
has the same outline of names, attribute names and bindings (`serialize_names`).
-/

namespace MessageConformance.Message

/-- A tree of elements, with what is told of each. -/
inductive Outline (α : Type) where
  | node (told : α) (inside : List (Outline α))

variable {α : Type}

/-- The outlines of the elements among some siblings. -/
def Node.outlines (tell : Tag → List Node → α) : List Node → List (Outline α)
  | [] => []
  | .element tag nodes :: ns => .node (tell tag nodes) (outlines tell nodes) :: outlines tell ns
  | .text _ :: ns => outlines tell ns
  | .comment _ :: ns => outlines tell ns
  | .instruction _ :: ns => outlines tell ns

@[simp] theorem outlines_textOf_append (tell : Tag → List Node → α) (run : String) (nodes : List Node) :
    Node.outlines tell (textOf run ++ nodes) = Node.outlines tell nodes := by
  unfold textOf
  split <;> simp [Node.outlines]

@[simp] theorem outlines_textOf (tell : Tag → List Node → α) (run : String) :
    Node.outlines tell (textOf run) = [] := by
  simpa [Node.outlines] using outlines_textOf_append tell run []

/-- Two outlines of the same nodes agree when they tell the same of every element. -/
theorem outlines_eq_iff {tell tell' : Tag → List Node → α} {nodes : List Node} :
    Node.outlines tell nodes = Node.outlines tell' nodes ↔
      ∀ tag inside, .element tag inside ∈ Node.preorder nodes → tell tag inside = tell' tag inside := by
  induction nodes using Node.siblings_induction with
  | nil => simp [Node.outlines, Node.preorder]
  | element tag nodes ns inside after =>
    simp only [Node.outlines, List.cons.injEq, Outline.node.injEq, inside, after, Node.preorder,
      Node.descendants, List.mem_cons, List.mem_append, Node.element.injEq]
    constructor
    · rintro ⟨⟨here, below⟩, later⟩ tag' nodes' (⟨rfl, rfl⟩ | member | member)
      · exact here
      · exact below tag' nodes' member
      · exact later tag' nodes' member
    · intro all
      exact ⟨⟨all tag nodes (.inl ⟨rfl, rfl⟩), fun t ns' member => all t ns' (.inr (.inl member))⟩,
        fun t ns' member => all t ns' (.inr (.inr member))⟩
  | text content ns after | comment content ns after | instruction content ns after =>
    simp [Node.outlines, after, Node.preorder, Node.descendants]

/-! ## Names and bindings -/

/-- The name of an element, the names of its attributes and the bindings in scope inside it. -/
structure ElementNames where
  name : Name
  attributes : Finset Name
  bindings : Finset Binding
  deriving DecidableEq

/-- The names and bindings of an element. -/
def Tag.names (tag : Tag) (_ : List Node) : ElementNames :=
  ⟨tag.name, (tag.attributes.map (·.name)).toFinset, tag.scope.toFinset⟩

theorem SameBindings.names_again {outer outer' : List Binding} {tag : Tag}
    (same : SameBindings tag.scope (tag.again outer outer').scope) (nodes nodes' : List Node) :
    (tag.again outer outer').names nodes' = tag.names nodes := by
  simp only [Tag.names, ElementNames.mk.injEq]
  refine ⟨rfl, ?_, ?_⟩
  · simp [Tag.again, Attribute.again, Function.comp_def]
  · ext b
    simp [same b]

/-- What is read back of sound nodes has their names and bindings. -/
theorem outlines_names_again {outer outer' : List Binding} {nodes : List Node}
    (sound : ∀ n ∈ nodes, n.IsSound outer) (declarable : AreDeclarable nodes)
    (distinct : IsDistinct outer') (same : SameBindings outer outer') (run : String) :
    Node.outlines Tag.names (Node.again outer outer' run nodes) = Node.outlines Tag.names nodes := by
  induction nodes using Node.siblings_induction generalizing outer outer' run with
  | nil => simp [Node.again, Node.outlines]
  | element tag nodes ns inside after =>
    obtain ⟨first, others⟩ := List.forall_mem_cons.1 sound
    cases first with | element tagSound nodesSound =>
    obtain ⟨elementDeclarable, nsDeclarable⟩ := areDeclarable_cons.1 declarable
    obtain ⟨tagDeclarable, nodesDeclarable⟩ := isDeclarable_element.1 elementDeclarable
    obtain ⟨labels, bindings⟩ :=
      Tag.scope_again tagSound.covers tagDeclarable.orderly.distinct distinct same
    rw [Node.again, outlines_textOf_append, Node.outlines, Node.outlines,
      SameBindings.names_again bindings nodes, inside nodesSound nodesDeclarable labels bindings,
      after others nsDeclarable distinct same]
  | text content ns after | comment content ns after | instruction content ns after =>
    rw [Node.again, after (List.forall_mem_cons.1 sound).2 (areDeclarable_cons.1 declarable).2 distinct
      same, Node.outlines]

/-- The elements of a message are sound, each somewhere. -/
theorem exists_isSound_of_parse {s : String} {d : Document} (parsed : Document.parse s = .ok d) {n : Node}
    (member : n ∈ d.root :: d.root.descendants) : ∃ outer, n.IsSound outer := by
  have root := Document.isSound_of_parse parsed
  rcases List.mem_cons.1 member with rfl | below
  · exact ⟨[], root⟩
  · exact root.exists_of_mem_descendants below

/-- Writing an element of a message succeeds. Where the bindings of its tags can be declared again,
    what is written is a message whose elements have the same names, attribute names and bindings. -/
theorem serialize_names {s : String} {d : Document} (parsed : Document.parse s = .ok d) {n : Node}
    (member : n ∈ d.root :: d.root.descendants) (element : n.isElement = true) :
    ∃ written, n.serialize = .ok written ∧
      (n.IsDeclarable → ∃ d', Document.parse written = .ok d' ∧
        Node.outlines Tag.names [d'.root] = Node.outlines Tag.names [n]) := by
  obtain ⟨outer, sound⟩ := exists_isSound_of_parse parsed member
  cases sound with
  | @element _ tag nodes tagSound nodesSound =>
    obtain ⟨written, writes, reads⟩ := (Node.IsSound.element tagSound nodesSound).exists_serialize
    refine ⟨written, writes, fun declarable => ⟨_, reads declarable, ?_⟩⟩
    obtain ⟨tagDeclarable, nodesDeclarable⟩ := isDeclarable_element.1 declarable
    obtain ⟨labels, bindings⟩ := Tag.scope_again (covers_nil tag.scope)
      tagDeclarable.orderly.distinct isDistinct_nil (SameBindings.refl [])
    rw [Document.root, Document.again, Node.outlines, Node.outlines, Node.outlines, Node.outlines,
      SameBindings.names_again bindings nodes,
      outlines_names_again nodesSound nodesDeclarable labels bindings]
  | text | comment | instruction => simp [Node.isElement, Node.tag?] at element

/-- An element that leaves the default namespace around it and uses a label from there. -/
def undeclaredItem : Node :=
  .element ⟨⟨some "", "b"⟩, [⟨none, ""⟩, ⟨some "x", "urn:x"⟩], [⟨⟨some "urn:x", "c"⟩, "1"⟩]⟩ []

/-- What is written of the element has no default namespace either, and binds the label itself. -/
theorem serialize_names_undeclaredItem :
    ∃ written d', undeclaredItem.serialize = .ok written ∧ Document.parse written = .ok d' ∧
      Node.outlines Tag.names [d'.root] = Node.outlines Tag.names [undeclaredItem] := by
  let d : Document := ⟨[], ⟨⟨some "urn:a", "a"⟩, [⟨none, "urn:a"⟩, ⟨some "x", "urn:x"⟩], []⟩,
    [undeclaredItem], []⟩
  have parsed : Document.parse
      "<a xmlns=\"urn:a\" xmlns:x=\"urn:x\"><b xmlns=\"\" x:c=\"1\"/></a>" = .ok d := by cbv
  have member : undeclaredItem ∈ d.root :: d.root.descendants := by
    simp [d, Document.root, Node.descendants, Node.preorder]
  obtain ⟨written, writes, reads⟩ := serialize_names parsed member rfl
  obtain ⟨d', parses, same⟩ := reads (by decide +kernel)
  exact ⟨written, d', writes, parses, same⟩

/-- An attribute named `xmlns` with a label is read as a default namespace too, and then two are
    declared. The element is written with the later one and read with the first. -/
theorem serialize_loses_name :
    ∃ d written d', Document.parse "<p:a xmlns:p=\"v\" xmlns=\"u\" p:xmlns=\"v\"/>" = .ok d ∧
      (∀ m ∈ d.root :: d.root.descendants, ∀ tag ∈ m.tag?, ∀ b ∈ tag.scope, IsLevel b.uri) ∧
      d.root.serialize = .ok written ∧ Document.parse written = .ok d' ∧
      Node.outlines Tag.names [d'.root] ≠ Node.outlines Tag.names [d.root] := by
  refine ⟨⟨[], ⟨⟨some "v", "a"⟩, [⟨some "p", "v"⟩, ⟨none, "u"⟩, ⟨none, "v"⟩], []⟩, [], []⟩,
    "<a xmlns:p=\"v\" xmlns=\"u\" xmlns=\"v\"/>",
    ⟨[], ⟨⟨some "u", "a"⟩, [⟨some "p", "v"⟩, ⟨none, "u"⟩, ⟨none, "v"⟩], []⟩, [], []⟩, ?_, ?_, ?_, ?_, ?_⟩
  · cbv
  · decide +kernel
  · decide +kernel
  · cbv
  · simp [Document.root, Node.outlines, Tag.names]

end MessageConformance.Message
