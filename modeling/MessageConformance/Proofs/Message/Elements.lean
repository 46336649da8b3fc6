import MessageConformance.Proofs.Message.Outlines

/-!
# Trees with the same elements

Two trees have the same elements when their elements have the same names and are nested in the same
way (`SameElements`). A query cannot tell such trees apart: it has the same answers in both one by
one, and these have the same elements again (`SameElements.preorder`, `SameElements.filter`).
-/

namespace MessageConformance.Message

/-- The name of an element, and nothing else of its tag or its content. -/
def tellName (tag : Tag) (_ : List Node) : Name := tag.name

/-- Nodes hold elements of the same names, nested in the same way. -/
def SameElements (nodes nodes' : List Node) : Prop :=
  Node.outlines tellName nodes = Node.outlines tellName nodes'

namespace Outline

/-- The outlines inside an outline. -/
def inside : Outline Name → List (Outline Name)
  | .node _ outlines => outlines

/-- Whether an outline is that of an element that is asked for. -/
def isAskedFor (q : Query) : Outline Name → Bool
  | .node name _ => q.accepts (.element ⟨name, [], []⟩ [])

/-- Some outlines, each followed by those inside it. -/
def preorder : List (Outline Name) → List (Outline Name)
  | [] => []
  | .node name outlines :: os => .node name outlines :: (preorder outlines ++ preorder os)

end Outline

theorem outlines_append (nodes nodes' : List Node) :
    Node.outlines tellName (nodes ++ nodes') =
      Node.outlines tellName nodes ++ Node.outlines tellName nodes' := by
  induction nodes with
  | nil => simp [Node.outlines]
  | cons n nodes ih => cases n <;> simp [Node.outlines, ih]

theorem outlines_preorder (nodes : List Node) :
    Node.outlines tellName (Node.preorder nodes) =
      Outline.preorder (Node.outlines tellName nodes) := by
  induction nodes using Node.siblings_induction with
  | nil => simp [Node.preorder, Node.outlines, Outline.preorder]
  | element tag nodes ns below after =>
    simp only [Node.preorder, Node.descendants, Node.outlines, outlines_append, below, after,
      Outline.preorder]
  | text content ns after | comment content ns after | instruction content ns after =>
    simp only [Node.preorder, Node.descendants, Node.outlines, List.nil_append, after]

theorem map_outlines_filter (q : Query) (nodes : List Node) :
    (nodes.filter q.accepts).map (fun n => Node.outlines tellName n.children) =
      ((Node.outlines tellName nodes).filter (Outline.isAskedFor q)).map Outline.inside := by
  induction nodes with
  | nil => simp [Node.outlines]
  | cons n nodes ih =>
    cases n with
    | element tag content =>
      have bare : Outline.isAskedFor q (.node (tellName tag content) (Node.outlines tellName content)) =
          q.accepts (.element tag content) := by cases q <;> rfl
      rw [Node.outlines, List.filter_cons, List.filter_cons, bare]
      cases q.accepts (.element tag content) with
      | true => exact congrArg (List.cons (Node.outlines tellName content)) ih
      | false => exact ih
    | text content | comment content | instruction content =>
      rw [Node.outlines, ← ih, List.filter_cons_of_neg]
      simp [Query.accepts, Node.tag?]

namespace SameElements

variable {nodes nodes' : List Node}

theorem preorder (same : SameElements nodes nodes') :
    SameElements (Node.preorder nodes) (Node.preorder nodes') := by
  rw [SameElements, outlines_preorder, outlines_preorder, same]

/-- A query has the same answers one by one, as far as the elements inside them go. -/
theorem filter (same : SameElements nodes nodes') (q : Query) :
    List.Forall₂ (fun n n' => SameElements n.children n'.children)
      (nodes.filter q.accepts) (nodes'.filter q.accepts) := by
  have answers : (nodes.filter q.accepts).map (fun n => Node.outlines tellName n.children) =
      (nodes'.filter q.accepts).map fun n => Node.outlines tellName n.children := by
    rw [map_outlines_filter, map_outlines_filter, same]
  rwa [← List.forall₂_eq_eq_eq, List.forall₂_map_left_iff, List.forall₂_map_right_iff] at answers

end SameElements

end MessageConformance.Message
