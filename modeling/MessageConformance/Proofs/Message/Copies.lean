import MessageConformance.Message.Writer
import MessageConformance.Proofs.Message.Trees

/-!
# Elements that are written and read back

Every element of a message can be written, and what is written is sound markup. Where the bindings
of its tags can be declared again (`Node.IsDeclarable`), it is read back as a tree that is known
(`Document.again`): tags and text as they are read again, neighbouring text joined, comments and
instructions left out.
-/

namespace MessageConformance.Message

open Markup

/-- The bindings of a tag can be declared again: its labels are orderly, and its namespaces hold
    neither tabs nor line ends. -/
structure Tag.IsDeclarable (tag : Tag) : Prop where
  orderly : IsOrderly tag.scope
  level : ∀ b ∈ tag.scope, IsLevel b.uri

instance (tag : Tag) : Decidable tag.IsDeclarable :=
  decidable_of_iff (IsOrderly tag.scope ∧ ∀ b ∈ tag.scope, IsLevel b.uri)
    ⟨fun ⟨orderly, level⟩ => ⟨orderly, level⟩, fun ⟨orderly, level⟩ => ⟨orderly, level⟩⟩

/-- The bindings of all tags of a tree can be declared again. -/
def Node.IsDeclarable (n : Node) : Prop := ∀ m ∈ n :: n.descendants, ∀ tag ∈ m.tag?, tag.IsDeclarable

instance (n : Node) : Decidable n.IsDeclarable :=
  inferInstanceAs (Decidable (∀ m ∈ n :: n.descendants, ∀ tag ∈ m.tag?, tag.IsDeclarable))

/-! ## What is read back -/

/-- The text node of a run of text; an empty run has none. -/
def textOf (run : String) : List Node := if run = "" then [] else [.text (rejoined run)]

/-- What is read of some nodes that were written inside `outer`, when it is put inside `outer'`
    after a run of text. -/
def Node.again (outer outer' : List Binding) (run : String) : List Node → List Node
  | [] => textOf run
  | .element tag nodes :: ns =>
    textOf run ++ .element (tag.again outer outer')
      (again tag.scope (tag.again outer outer').scope "" nodes) :: again outer outer' "" ns
  | .text content :: ns => again outer outer' (run ++ content) ns
  | .comment _ :: ns => again outer outer' run ns
  | .instruction _ :: ns => again outer outer' run ns

/-- What is read of an element that was written as a message of its own. -/
def Document.again (tag : Tag) (nodes : List Node) : Document :=
  ⟨[], tag.again [] [], Node.again tag.scope (tag.again [] []).scope "" nodes, []⟩

/-! ## Runs of text -/

/-- The latest of some nodes is no text. -/
def EndsRun (nodes : List Node) : Prop := ∀ content before, nodes ≠ .text content :: before

theorem joinText_of_endsRun {nodes : List Node} (ends : EndsRun nodes) (content : String) :
    Builder.joinText content nodes = .text content :: nodes := by
  unfold Builder.joinText
  split
  · next before rest => exact absurd rfl (ends before rest)
  · rfl

theorem escape_ne_nil {cs : List Char} (some : cs ≠ []) : escape cs ≠ [] := by
  obtain ⟨c, cs, rfl⟩ := List.exists_cons_of_ne_nil some
  rw [escape, List.flatMap_cons]
  refine List.append_ne_nil_of_left_ne_nil ?_ _
  unfold escapeChar
  split <;> simp

/-- A run of text that was written becomes one text node. -/
theorem foldlM_endRun {outside : List Node} {e : OpenElement} {es : List OpenElement}
    (ends : EndsRun e.nodes) (run : String) (tokens : List Token) :
    (endRun (escape run.toList) tokens).foldlM Builder.step? ⟨outside, e :: es⟩ =
      tokens.foldlM Builder.step? ⟨outside, { e with nodes := textOf run ++ e.nodes } :: es⟩ := by
  by_cases empty : run = ""
  · subst empty
    simp [textOf, endRun, escape]
  · have written := escape_ne_nil (mt String.toList_eq_nil_iff.1 empty)
    have step : Builder.step? ⟨outside, e :: es⟩ (.text (escape run.toList)) =
        some ⟨outside, { e with nodes := textOf run ++ e.nodes } :: es⟩ := by
      simp [Builder.step?, textValue?_escape, Builder.addText?, joinText_of_endsRun ends, textOf, empty]
    rw [endRun, if_neg (by simpa using written), List.foldlM_cons, step]
    rfl

theorem joinedFrom_opening (q : QualifiedName) (raw : List RawAttribute) (isEmpty : Bool)
    (rest : List Token) :
    joinedFrom [] (.opening q raw isEmpty :: rest) = .opening q raw isEmpty :: joinedFrom [] rest := rfl

theorem joinedFrom_of_ne_text {t : Token} (mark : ∀ raw, t ≠ .text raw) (run : List Char)
    (rest : List Token) : joinedFrom run (t :: rest) = endRun run (t :: joinedFrom [] rest) := by
  cases t <;> first | rfl | exact absurd rfl (mark _)

/-! ## Elements -/

/-- Tokens that were written of some nodes inside `outer`: read in an open element in which the
    same bindings are in scope, they add to it what is read again of the nodes. -/
def Rereads (outer : List Binding) (nodes : List Node) (written : List Token) : Prop :=
  ∀ (outside : List Node) (e : OpenElement) (es : List OpenElement), IsDistinct e.tag.scope →
    SameBindings outer e.tag.scope → EndsRun e.nodes →
      ∀ (run : String) (t : Token) (rest : List Token), (∀ raw, t ≠ .text raw) →
        (joinedFrom (escape run.toList) (written ++ t :: rest)).foldlM Builder.step?
            ⟨outside, e :: es⟩ =
          (t :: joinedFrom [] rest).foldlM Builder.step?
            ⟨outside, { e with nodes := (Node.again outer e.tag.scope run nodes).reverse ++ e.nodes } :: es⟩

/-- The tokens of an element, given those of its content. -/
def elementTokens (q : QualifiedName) (raw : List RawAttribute) (nodes : List Node)
    (inner : List Token) : List Token :=
  if nodes.isEmpty then [.opening q raw true] else .opening q raw false :: inner ++ [.closing q]

theorem tokens_element {outer : List Binding} {tag : Tag} {nodes : List Node} {q : QualifiedName}
    {raw : List RawAttribute} {inner : List Token} (named : qualify tag.scope true tag.name = .ok q)
    (attributes : tag.raw (some outer) = .ok raw)
    (content : Node.tokensOfAll tag.scope nodes = .ok inner) :
    Node.tokens (some outer) (.element tag nodes) = .ok (elementTokens q raw nodes inner) := by
  rw [Node.tokens, named, attributes, content]
  cases nodes <;> rfl

theorem joinedFrom_elementTokens (q : QualifiedName) (raw : List RawAttribute) (nodes : List Node)
    (inner : List Token) (run : List Char) (rest : List Token) :
    joinedFrom run (elementTokens q raw nodes inner ++ rest) =
      endRun run (joinedFrom [] (elementTokens q raw nodes inner ++ rest)) := by
  unfold elementTokens
  split <;> rfl

/-- What is written of an element is read as the element that it makes. -/
theorem foldlM_elementTokens {outer : List Binding} {tag : Tag} {nodes : List Node}
    {q : QualifiedName} {raw : List RawAttribute} {inner : List Token} {b : Builder}
    (read : Tag.read? b.scope q raw = some (tag.again outer b.scope))
    (distinct : IsDistinct (tag.again outer b.scope).scope)
    (same : SameBindings tag.scope (tag.again outer b.scope).scope)
    (content : Rereads tag.scope nodes inner) (rest : List Token) :
    (joinedFrom [] (elementTokens q raw nodes inner ++ rest)).foldlM Builder.step? b =
      (joinedFrom [] rest).foldlM Builder.step? (b.add (.element (tag.again outer b.scope)
        (Node.again tag.scope (tag.again outer b.scope).scope "" nodes))) := by
  unfold elementTokens
  split
  · next empty =>
    obtain rfl := List.isEmpty_iff.1 empty
    have step : b.step? (.opening q raw true) = some (b.add (.element (tag.again outer b.scope) [])) := by
      simp [Builder.step?, read]
    rw [List.cons_append, List.nil_append, joinedFrom_opening, List.foldlM_cons, step]
    simp [Node.again, textOf]
  · have step : b.step? (.opening q raw false) =
        some ⟨b.outside, ⟨q, tag.again outer b.scope, []⟩ :: b.openElements⟩ := by
      simp [Builder.step?, read]
    have inside := content b.outside ⟨q, tag.again outer b.scope, []⟩ b.openElements distinct same
      (by simp [EndsRun]) "" (.closing q) rest (by simp)
    have close : Builder.step? ⟨b.outside, ⟨q, tag.again outer b.scope,
        (Node.again tag.scope (tag.again outer b.scope).scope "" nodes).reverse ++ []⟩ :: b.openElements⟩
        (.closing q) = some (b.add (.element (tag.again outer b.scope)
          (Node.again tag.scope (tag.again outer b.scope).scope "" nodes))) := by
      simp [Builder.step?]
    rw [List.cons_append, List.cons_append, List.append_assoc, joinedFrom_opening, List.foldlM_cons,
      step]
    refine inside.trans ?_
    rw [List.foldlM_cons, close]
    rfl

theorem isWritten_elementTokens {q : QualifiedName} {raw : List RawAttribute} {nodes : List Node}
    {inner : List Token} (named : QualifiedName.IsSound q)
    (attributes : ∀ a ∈ raw, a.IsSound ∧ ∀ c ∈ a.value, c ≠ '<' ∧ c ≠ '"')
    (content : ∀ t ∈ inner, t.IsSound ∧ t.IsWritten) :
    ∀ t ∈ elementTokens q raw nodes inner, t.IsSound ∧ t.IsWritten := by
  have opening (isEmpty : Bool) : (Token.opening q raw isEmpty).IsSound ∧
      (Token.opening q raw isEmpty).IsWritten :=
    ⟨⟨named, fun a member => (attributes a member).1⟩,
      ⟨named, fun a member => ⟨(attributes a member).1.name, (attributes a member).2⟩⟩⟩
  unfold elementTokens
  split
  · simpa using opening true
  · intro t member
    rcases List.mem_append.1 member with member | member
    · rcases List.mem_cons.1 member with rfl | member
      · exact opening false
      · exact content t member
    · obtain rfl := List.mem_singleton.1 member
      exact ⟨trivial, named⟩

/-! ## The nodes of an element -/

/-- Induction over siblings and what is inside them. -/
@[elab_as_elim]
theorem Node.siblings_induction {motive : List Node → Prop} (nil : motive [])
    (element : ∀ tag nodes ns, motive nodes → motive ns → motive (.element tag nodes :: ns))
    (text : ∀ content ns, motive ns → motive (.text content :: ns))
    (comment : ∀ content ns, motive ns → motive (.comment content :: ns))
    (instruction : ∀ content ns, motive ns → motive (.instruction content :: ns)) :
    (nodes : List Node) → motive nodes
  | [] => nil
  | .element tag nodes :: ns =>
    element tag nodes ns (siblings_induction nil element text comment instruction nodes)
      (siblings_induction nil element text comment instruction ns)
  | .text content :: ns =>
    text content ns (siblings_induction nil element text comment instruction ns)
  | .comment content :: ns =>
    comment content ns (siblings_induction nil element text comment instruction ns)
  | .instruction content :: ns =>
    instruction content ns (siblings_induction nil element text comment instruction ns)

/-- The bindings of all tags of some nodes can be declared again. -/
def AreDeclarable (nodes : List Node) : Prop :=
  ∀ m ∈ Node.preorder nodes, ∀ tag ∈ m.tag?, tag.IsDeclarable

theorem areDeclarable_cons {n : Node} {ns : List Node} :
    AreDeclarable (n :: ns) ↔ n.IsDeclarable ∧ AreDeclarable ns := by
  simp only [AreDeclarable, Node.IsDeclarable, Node.preorder, List.forall_mem_cons,
    List.forall_mem_append, and_assoc]

theorem isDeclarable_element {tag : Tag} {nodes : List Node} :
    Node.IsDeclarable (.element tag nodes) ↔ tag.IsDeclarable ∧ AreDeclarable nodes := by
  simp [AreDeclarable, Node.IsDeclarable, Node.descendants, Node.tag?]

theorem reverse_textOf (run : String) : (textOf run).reverse = textOf run := by
  unfold textOf
  split <;> rfl

theorem rereads_nil (outer : List Binding) : Rereads outer [] [] := by
  intro outside e es _ _ ends run t rest mark
  rw [List.nil_append, joinedFrom_of_ne_text mark, foldlM_endRun ends, Node.again, reverse_textOf]

theorem endsRun_element (tag : Tag) (nodes before : List Node) :
    EndsRun (.element tag nodes :: before) := by
  simp [EndsRun]

theorem rereads_element {outer : List Binding} {tag : Tag} {nodes ns : List Node}
    {q : QualifiedName} {raw : List RawAttribute} {inner later : List Token}
    (covers : Covers outer tag.scope) (distinct : IsDistinct tag.scope)
    (read : ∀ outer', IsDistinct outer' → SameBindings outer outer' →
      Tag.read? outer' q raw = some (tag.again outer outer'))
    (inside : Rereads tag.scope nodes inner) (after : Rereads outer ns later) :
    Rereads outer (.element tag nodes :: ns) (elementTokens q raw nodes inner ++ later) := by
  intro outside e es distinct' same ends run t rest mark
  -- The run of text before the element ends with it; the siblings start with an empty run.
  obtain ⟨labels, bindings⟩ := Tag.scope_again covers distinct distinct' same
  have element := foldlM_elementTokens
    (b := ⟨outside, { e with nodes := textOf run ++ e.nodes } :: es⟩) (read _ distinct' same) labels
    bindings inside (later ++ t :: rest)
  let copy : Node := .element (tag.again outer e.tag.scope)
    (Node.again tag.scope (tag.again outer e.tag.scope).scope "" nodes)
  have siblings := after outside { e with nodes := copy :: (textOf run ++ e.nodes) } es distinct' same
    (endsRun_element _ _ _) "" t rest mark
  rw [List.append_assoc, joinedFrom_elementTokens, foldlM_endRun ends, element]
  refine siblings.trans ?_
  simp [Node.again, reverse_textOf, copy]

theorem rereads_text {outer : List Binding} {content : String} {ns : List Node} {later : List Token}
    (after : Rereads outer ns later) :
    Rereads outer (.text content :: ns) (.text (escape content.toList) :: later) := by
  intro outside e es distinct same ends run t rest mark
  have reread := after outside e es distinct same ends (run ++ content) t rest mark
  rw [String.toList_append, escape_append] at reread
  rw [List.cons_append, joinedFrom, reread, Node.again]

/-- Nothing is written of what is neither an element nor text. -/
theorem rereads_cons {outer : List Binding} {n : Node} {ns : List Node} {later : List Token}
    (skipped : ∀ outer' run, Node.again outer outer' run (n :: ns) = Node.again outer outer' run ns)
    (after : Rereads outer ns later) : Rereads outer (n :: ns) later := by
  intro outside e es distinct same ends run t rest mark
  rw [skipped, after outside e es distinct same ends run t rest mark]

/-- The nodes of a sound element can be written, and what is written of them rereads. -/
theorem exists_tokensOfAll {outer : List Binding} {nodes : List Node}
    (sound : ∀ n ∈ nodes, n.IsSound outer) :
    ∃ written, Node.tokensOfAll outer nodes = .ok written ∧ (∀ t ∈ written, t.IsSound ∧ t.IsWritten) ∧
      (AreDeclarable nodes → Rereads outer nodes written) := by
  -- Inside an element the bindings in scope are its own, so the induction is over all of them.
  induction nodes using Node.siblings_induction generalizing outer with
  | nil => exact ⟨[], rfl, by simp, fun _ => rereads_nil outer⟩
  | element tag nodes ns inside after =>
    obtain ⟨first, others⟩ := List.forall_mem_cons.1 sound
    cases first with | element tagSound nodesSound =>
    obtain ⟨inner, innerTokens, innerWritten, innerRereads⟩ := inside nodesSound
    obtain ⟨later, laterTokens, laterWritten, laterRereads⟩ := after others
    obtain ⟨q, raw, named, attributes, qSound, rawSound, read⟩ := tagSound.exists_raw tagSound.covers
    have here := tokens_element named attributes innerTokens
    refine ⟨elementTokens q raw nodes inner ++ later, ?_, ?_, fun declarable => ?_⟩
    · rw [Node.tokensOfAll, here, laterTokens]
      rfl
    · exact List.forall_mem_append.2
        ⟨isWritten_elementTokens qSound rawSound innerWritten, laterWritten⟩
    · obtain ⟨elementDeclarable, nsDeclarable⟩ := areDeclarable_cons.1 declarable
      obtain ⟨tagDeclarable, nodesDeclarable⟩ := isDeclarable_element.1 elementDeclarable
      exact rereads_element tagSound.covers tagDeclarable.orderly.distinct
        (fun outer' => read outer' tagDeclarable.orderly tagDeclarable.level)
        (innerRereads nodesDeclarable) (laterRereads nsDeclarable)
  | text content ns after =>
    obtain ⟨first, others⟩ := List.forall_mem_cons.1 sound
    cases first with | text plain =>
    obtain ⟨later, laterTokens, laterWritten, laterRereads⟩ := after others
    refine ⟨.text (escape content.toList) :: later, ?_, ?_, fun declarable => ?_⟩
    · rw [Node.tokensOfAll, Node.tokens, laterTokens]
      rfl
    · refine List.forall_mem_cons.2 ⟨⟨isCharacter_escape plain, fun c member => ?_⟩, laterWritten⟩
      exact ⟨(not_mem_escape member).1, (not_mem_escape member).2.1⟩
    · exact rereads_text (laterRereads (areDeclarable_cons.1 declarable).2)
  | comment content ns after | instruction content ns after =>
    obtain ⟨later, laterTokens, laterWritten, laterRereads⟩ := after (List.forall_mem_cons.1 sound).2
    refine ⟨later, ?_, laterWritten, fun declarable => ?_⟩
    · rw [Node.tokensOfAll, Node.tokens, laterTokens]
      rfl
    · exact rereads_cons (fun outer' run => by rw [Node.again])
        (laterRereads (areDeclarable_cons.1 declarable).2)

/-! ## Elements as messages -/

theorem tokens_none (n : Node) : Node.tokens none n = Node.tokens (some []) n := by
  cases n <;> simp only [Node.tokens, Tag.raw, declarations_none]

theorem isCharacter_qualifiedName {q : QualifiedName} (sound : QualifiedName.IsSound q) :
    AllCharacters (QualifiedName.chars q) := fun c member =>
  isCharacter_of_isNameChar (QualifiedName.isNameChar_chars sound c member)

theorem isCharacter_rawAttribute {a : RawAttribute} (sound : a.IsSound) : AllCharacters a.chars := by
  have name := isCharacter_qualifiedName sound.name
  have value := sound.value
  have marks : ∀ c ∈ [' ', '=', '"'], isCharacter c = true := List.all_eq_true.1 (by decide)
  intro c member
  simp only [RawAttribute.chars, List.cons_append, List.mem_cons, List.mem_append, List.append_assoc,
    List.not_mem_nil, or_false] at member
  rcases member with rfl | member | rfl | rfl | member | rfl
  · exact marks _ (by simp)
  · exact name c member
  · exact marks _ (by simp)
  · exact marks _ (by simp)
  · exact value c member
  · exact marks _ (by simp)

/-- What is written of a sound token are characters of markup. -/
theorem isCharacter_chars {t : Token} (sound : t.IsSound) (written : t.IsWritten) :
    AllCharacters t.chars := by
  have marks : ∀ c ∈ ['<', '/', '>'], isCharacter c = true := List.all_eq_true.1 (by decide)
  cases t with
  | opening name attributes isEmpty =>
    have ending : (if isEmpty then ['/', '>'] else ['>']) ⊆ ['<', '/', '>'] := by
      cases isEmpty <;> decide
    intro c member
    rw [Token.chars_opening, List.mem_cons, List.mem_append, List.mem_append, List.mem_flatMap] at member
    rcases member with rfl | member | ⟨a, there, member⟩ | member
    · exact marks _ (by simp)
    · exact isCharacter_qualifiedName sound.1 c member
    · exact isCharacter_rawAttribute (sound.2 a there) c member
    · exact marks c (ending member)
  | closing name =>
    intro c member
    rw [Token.chars_closing, List.mem_cons, List.mem_cons, List.mem_append, List.mem_singleton] at member
    rcases member with rfl | rfl | member | rfl
    · exact marks _ (by simp)
    · exact marks _ (by simp)
    · exact isCharacter_qualifiedName written c member
    · exact marks _ (by simp)
  | text raw => exact sound
  | literal | comment | instruction => exact written.elim

/-- A text that begins with a start tag has neither mark nor declaration. -/
theorem ofChars?_of_isNameChar {c : Char} {cs : List Char} (first : isNameChar c = true)
    (plain : AllCharacters ('<' :: c :: cs)) :
    Document.ofChars? ('<' :: c :: cs) = (Token.scan ('<' :: c :: cs)).bind Document.ofTokens? := by
  have other : c ≠ '?' := ne_of_isNameChar first (by decide)
  have undeclared : declarationStart.isPrefixOf ('<' :: c :: cs) = false := by
    simp [declarationStart, List.isPrefixOf, other.symm]
  have all : ('<' :: c :: cs).all isCharacter = true := List.all_eq_true.2 plain
  have unmarked : dropMark ('<' :: c :: cs) = '<' :: c :: cs := rfl
  simp only [Document.ofChars?, unmarked, all, if_true, skipDeclaration?, undeclared, Bool.false_eq_true,
    if_false, Option.bind_eq_bind, Option.bind_some]

theorem exists_chars_elementTokens {q : QualifiedName} (sound : QualifiedName.IsSound q)
    (raw : List RawAttribute) (nodes : List Node) (inner : List Token) :
    ∃ c cs, isNameChar c = true ∧
      (elementTokens q raw nodes inner).flatMap Token.chars = '<' :: c :: cs := by
  obtain ⟨c, rest, chars⟩ := List.exists_cons_of_ne_nil (QualifiedName.chars_ne_nil sound)
  have first : isNameChar c = true :=
    QualifiedName.isNameChar_chars sound c (chars ▸ List.mem_cons_self ..)
  unfold elementTokens
  split
  · exact ⟨c, _, first, by simp [Token.chars_opening, chars]; rfl⟩
  · exact ⟨c, _, first, by simp [Token.chars_opening, chars]; rfl⟩

/-- A sound element can be written as a message. Where the bindings of its tags can be declared
    again, the message is read back. -/
theorem Node.IsSound.exists_serialize {outer : List Binding} {tag : Tag} {nodes : List Node}
    (sound : Node.IsSound outer (.element tag nodes)) :
    ∃ text, Node.serialize (.element tag nodes) = .ok text ∧
      (Node.IsDeclarable (.element tag nodes) →
        Document.parse text = .ok (Document.again tag nodes)) := by
  cases sound with | element tagSound nodesSound =>
  have covers := covers_nil tag.scope
  obtain ⟨inner, innerTokens, innerWritten, innerRereads⟩ := exists_tokensOfAll nodesSound
  obtain ⟨q, raw, named, attributes, qSound, rawSound, read⟩ := tagSound.exists_raw covers
  have tokens := tokens_element named attributes innerTokens
  have written : ∀ t ∈ elementTokens q raw nodes inner, t.IsSound ∧ t.IsWritten :=
    isWritten_elementTokens qSound rawSound innerWritten
  refine ⟨String.ofList ((elementTokens q raw nodes inner).flatMap Token.chars), ?_, fun declarable => ?_⟩
  · rw [Node.serialize, tokens_none, tokens]
    rfl
  · obtain ⟨tagDeclarable, nodesDeclarable⟩ := isDeclarable_element.1 declarable
    obtain ⟨labels, bindings⟩ :=
      Tag.scope_again covers tagDeclarable.orderly.distinct isDistinct_nil (SameBindings.refl [])
    have tagRead := read [] tagDeclarable.orderly tagDeclarable.level isDistinct_nil (SameBindings.refl [])
    have built := foldlM_elementTokens (b := {}) tagRead labels bindings
      (innerRereads nodesDeclarable) []
    obtain ⟨c, cs, first, chars⟩ := exists_chars_elementTokens qSound raw nodes inner
    have plain : AllCharacters ((elementTokens q raw nodes inner).flatMap Token.chars) := by
      intro d member
      obtain ⟨t, there, member⟩ := List.mem_flatMap.1 member
      exact isCharacter_chars (written t there).1 (written t there).2 d member
    have scanned := scan_chars fun t member => (written t member).2
    rw [chars] at plain scanned
    rw [List.append_nil] at built
    have read : Document.ofChars? ('<' :: c :: cs) = some (Document.again tag nodes) := by
      rw [ofChars?_of_isNameChar first plain, scanned, Option.bind_some, Document.ofTokens?, built]
      rfl
    rw [Document.parse, chars, String.toList_ofList, read]

end MessageConformance.Message
