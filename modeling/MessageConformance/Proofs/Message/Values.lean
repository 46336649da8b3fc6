import MessageConformance.Proofs.Message.Outlines

/-!
# Character data of elements that are read back

The character data of an element are the values of its attributes and the text between its child
elements (`textRuns`). Where an element of a message can be declared again, its character data are
read back exactly if no attribute value below holds a tab or line end, and every run of text keeps
its carriage returns (`serialize_characterData_iff`).
-/

namespace MessageConformance.Message

/-! ## Text between elements -/

/-- The text before, between and after the elements among some nodes, given the text just before
    them. -/
def textRuns (run : String) : List Node → List String
  | [] => [run]
  | .element _ _ :: ns => run :: textRuns "" ns
  | .text content :: ns => textRuns (run ++ content) ns
  | .comment _ :: ns => textRuns run ns
  | .instruction _ :: ns => textRuns run ns

/-- The attributes of an element and the text between its child elements. -/
def Tag.characterData (tag : Tag) (nodes : List Node) : List Attribute × List String :=
  (tag.attributes, textRuns "" nodes)

theorem textRuns_textOf (run : String) : textRuns "" (textOf run) = [rejoined run] := by
  by_cases empty : run = ""
  · subst empty
    rfl
  · simp [textOf, empty, textRuns]

theorem textRuns_textOf_element (run : String) (tag : Tag) (nodes ns : List Node) :
    textRuns "" (textOf run ++ .element tag nodes :: ns) = rejoined run :: textRuns "" ns := by
  by_cases empty : run = ""
  · subst empty
    rfl
  · simp [textOf, empty, textRuns]

/-- Each run of text is read back as a run, with its line ends read again. -/
theorem textRuns_again (outer outer' : List Binding) (run : String) (nodes : List Node) :
    textRuns "" (Node.again outer outer' run nodes) = (textRuns run nodes).map rejoined := by
  induction nodes using Node.siblings_induction generalizing run with
  | nil => rw [Node.again, textRuns_textOf, textRuns, List.map_singleton]
  | element tag nodes ns _ after =>
    rw [Node.again, textRuns_textOf_element, after, textRuns, List.map_cons]
  | text content ns after | comment content ns after | instruction content ns after =>
    rw [Node.again, after, textRuns]

/-! ## What is read back -/

/-- The character data of an element as they are read after it was written. -/
def Tag.characterDataAgain (tag : Tag) (nodes : List Node) : List Attribute × List String :=
  (tag.attributes.map Attribute.again, (textRuns "" nodes).map rejoined)

theorem characterData_again (outer outer' inner inner' : List Binding) (tag : Tag) (nodes : List Node) :
    (tag.again outer outer').characterData (Node.again inner inner' "" nodes) =
      tag.characterDataAgain nodes := by
  rw [Tag.characterData, Tag.characterDataAgain, textRuns_again, Tag.again]

theorem outlines_characterData_again (outer outer' : List Binding) (run : String) (nodes : List Node) :
    Node.outlines Tag.characterData (Node.again outer outer' run nodes) =
      Node.outlines Tag.characterDataAgain nodes := by
  induction nodes using Node.siblings_induction generalizing outer outer' run with
  | nil => simp [Node.again, Node.outlines]
  | element tag nodes ns inside after =>
    rw [Node.again, outlines_textOf_append, Node.outlines, Node.outlines, characterData_again, inside,
      after]
  | text content ns after | comment content ns after | instruction content ns after =>
    rw [Node.again, after, Node.outlines]

/-- What is written of an element keeps its character data: its attribute values hold neither tabs
    nor line ends, and the text between its child elements keeps its carriage returns. -/
structure Tag.KeepsCharacterData (tag : Tag) (nodes : List Node) : Prop where
  attributes : ∀ a ∈ tag.attributes, IsLevel a.value
  text : ∀ run ∈ textRuns "" nodes, KeepsReturns run

theorem Attribute.again_eq_self_iff (a : Attribute) : a.again = a ↔ IsLevel a.value := by
  obtain ⟨name, value⟩ := a
  simpa [Attribute.again] using normalized_eq_self_iff value

theorem characterDataAgain_eq_iff {tag : Tag} {nodes : List Node} :
    tag.characterDataAgain nodes = tag.characterData nodes ↔ tag.KeepsCharacterData nodes := by
  have attributes : tag.attributes.map Attribute.again = tag.attributes ↔
      ∀ a ∈ tag.attributes, IsLevel a.value :=
    calc tag.attributes.map Attribute.again = tag.attributes
        ↔ tag.attributes.map Attribute.again = tag.attributes.map id := by rw [List.map_id]
      _ ↔ ∀ a ∈ tag.attributes, a.again = a := List.map_inj_left
      _ ↔ ∀ a ∈ tag.attributes, IsLevel a.value := forall₂_congr fun a _ => a.again_eq_self_iff
  have text : (textRuns "" nodes).map rejoined = textRuns "" nodes ↔
      ∀ run ∈ textRuns "" nodes, KeepsReturns run :=
    calc (textRuns "" nodes).map rejoined = textRuns "" nodes
        ↔ (textRuns "" nodes).map rejoined = (textRuns "" nodes).map id := by rw [List.map_id]
      _ ↔ ∀ run ∈ textRuns "" nodes, rejoined run = run := List.map_inj_left
      _ ↔ ∀ run ∈ textRuns "" nodes, KeepsReturns run :=
        forall₂_congr fun run _ => rejoined_eq_self_iff run
  rw [Tag.characterDataAgain, Tag.characterData, Prod.mk.injEq, attributes, text]
  exact ⟨fun ⟨values, runs⟩ => ⟨values, runs⟩, fun ⟨values, runs⟩ => ⟨values, runs⟩⟩

/-- Where an element of a message can be declared again, its character data are read back exactly if
    every element of it keeps its own. -/
theorem serialize_characterData_iff {s : String} {d : Document} (parsed : Document.parse s = .ok d)
    {n : Node} (member : n ∈ d.root :: d.root.descendants) (element : n.isElement = true)
    (declarable : n.IsDeclarable) :
    ∃ written d', n.serialize = .ok written ∧ Document.parse written = .ok d' ∧
      (Node.outlines Tag.characterData [d'.root] = Node.outlines Tag.characterData [n] ↔
        ∀ tag nodes, .element tag nodes ∈ n :: n.descendants → tag.KeepsCharacterData nodes) := by
  obtain ⟨outer, sound⟩ := exists_isSound_of_parse parsed member
  cases n with
  | element tag nodes =>
    obtain ⟨written, writes, reads⟩ := sound.exists_serialize
    refine ⟨written, _, writes, reads declarable, ?_⟩
    have again : Node.outlines Tag.characterData [(Document.again tag nodes).root] =
        Node.outlines Tag.characterDataAgain [.element tag nodes] := by
      rw [Document.root, Document.again, Node.outlines, Node.outlines, characterData_again,
        outlines_characterData_again, Node.outlines, Node.outlines]
    rw [again, outlines_eq_iff]
    simp only [characterDataAgain_eq_iff, Node.preorder, List.append_nil]
  | text | comment | instruction => simp [Node.isElement, Node.tag?] at element

/-- A message of which every value is written literally or with a reference that is written again. -/
theorem serialize_characterData_escaped :
    ∃ d written d', Document.parse "<a b=\"&lt;1&gt;\">x&#10;<c/>&amp;y</a>" = .ok d ∧
      d.root.serialize = .ok written ∧ Document.parse written = .ok d' ∧
      Node.outlines Tag.characterData [d'.root] = Node.outlines Tag.characterData [d.root] := by
  let d : Document := ⟨[], ⟨⟨none, "a"⟩, [], [⟨⟨none, "b"⟩, "<1>"⟩]⟩,
    [.text "x\n", .element ⟨⟨none, "c"⟩, [], []⟩ [], .text "&y"], []⟩
  have parsed : Document.parse "<a b=\"&lt;1&gt;\">x&#10;<c/>&amp;y</a>" = .ok d := by rfl
  obtain ⟨written, d', writes, parses, same⟩ :=
    serialize_characterData_iff parsed (List.mem_cons_self ..) rfl (by decide +kernel)
  refine ⟨d, written, d', parsed, writes, parses, same.2 fun tag nodes member => ?_⟩
  simp only [d, Document.root, Node.descendants, Node.preorder, List.nil_append, List.append_nil,
    List.mem_cons, List.not_mem_nil, Node.element.injEq, reduceCtorEq, false_or, or_false] at member
  rcases member with ⟨rfl, rfl⟩ | ⟨rfl, rfl⟩
  · refine ⟨by decide +kernel, fun run there => keepsReturns_of_not_mem ?_⟩
    simp only [textRuns, List.mem_cons, List.not_mem_nil, or_false] at there
    rcases there with rfl | rfl <;> decide +kernel
  · exact ⟨by simp, fun run there => keepsReturns_of_not_mem (by simp_all [textRuns])⟩

/-- A tab in an attribute value and a carriage return in text, both written as references, are
    written literally again: the first is read back as a space, the second as a line feed. -/
theorem serialize_loses_characterData :
    ∃ d written d', Document.parse "<a b=\"&#9;\">&#13;</a>" = .ok d ∧
      d.root.serialize = .ok written ∧ Document.parse written = .ok d' ∧
      Node.outlines Tag.characterData [d'.root] ≠ Node.outlines Tag.characterData [d.root] := by
  refine ⟨⟨[], ⟨⟨none, "a"⟩, [], [⟨⟨none, "b"⟩, "\t"⟩]⟩, [.text "\r"], []⟩, "<a b=\"\t\">\r</a>",
    ⟨[], ⟨⟨none, "a"⟩, [], [⟨⟨none, "b"⟩, " "⟩]⟩, [.text "\n"], []⟩, ?_, ?_, ?_, ?_⟩
  · rfl
  · decide +kernel
  · rfl
  · simp [Document.root, Node.outlines, Tag.characterData]

end MessageConformance.Message
