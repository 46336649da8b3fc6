import MessageConformance.Message.Reader
import MessageConformance.Proofs.Message.Positions
import MessageConformance.Proofs.Message.Tags

/-!
# Trees that are read

In the tree of a message every tag is sound where it stands: in the scope of the element around it,
and in no scope at the root (`Document.isSound_of_parse`). What is true of a tree is true of each node
below, in the scope of its own surroundings (`Node.IsSound.exists_of_mem_descendants`).
-/

namespace MessageConformance.Message

open Markup

/-- The tags of a tree are sound, each in the scope of the element around it. -/
inductive Node.IsSound : List Binding → Node → Prop where
  | element {outer : List Binding} {tag : Tag} {nodes : List Node} (tagSound : tag.IsSound outer)
      (nodesSound : ∀ n ∈ nodes, Node.IsSound tag.scope n) : Node.IsSound outer (.element tag nodes)
  | text {outer : List Binding} {content : String} (plain : AllCharacters content.toList) :
      Node.IsSound outer (.text content)
  | comment {outer : List Binding} (content : String) : Node.IsSound outer (.comment content)
  | instruction {outer : List Binding} (content : String) : Node.IsSound outer (.instruction content)

/-! ## The builder -/

/-- The bindings in scope inside the innermost of some open elements. -/
def innerScope (elements : List OpenElement) : List Binding :=
  (elements.head?.map (·.tag.scope)).getD []

/-- Elements that are being read are sound, each in the scope of the one around it. -/
inductive AreSoundOpen : List OpenElement → Prop where
  | nil : AreSoundOpen []
  | cons {e : OpenElement} {es : List OpenElement} (tag : e.tag.IsSound (innerScope es))
      (nodes : ∀ n ∈ e.nodes, n.IsSound e.tag.scope) (around : AreSoundOpen es) :
      AreSoundOpen (e :: es)

/-- What holds while a message is read. -/
structure Builder.IsSound (b : Builder) : Prop where
  outside : ∀ n ∈ b.outside, n.IsSound []
  openElements : AreSoundOpen b.openElements

theorem AreSoundOpen.isSound_of_mem {es : List OpenElement} (sound : AreSoundOpen es) :
    ∀ b ∈ innerScope es, b.IsSound := by
  cases sound with
  | nil => simp [innerScope]
  | cons tag nodes around => exact tag.bindings

namespace Builder

theorem IsSound.add {b : Builder} (sound : b.IsSound) {n : Node}
    (next : n.IsSound (innerScope b.openElements)) : (b.add n).IsSound := by
  obtain ⟨outside, elements⟩ := b
  obtain ⟨outsideSound, openSound⟩ := sound
  cases openSound with
  | nil => exact ⟨List.forall_mem_cons.2 ⟨next, outsideSound⟩, .nil⟩
  | cons tag nodes around =>
    exact ⟨outsideSound, .cons tag (List.forall_mem_cons.2 ⟨next, nodes⟩) around⟩

theorem isSound_joinText {outer : List Binding} {nodes : List Node} {content : String}
    (sound : ∀ n ∈ nodes, n.IsSound outer) (plain : AllCharacters content.toList) :
    ∀ n ∈ joinText content nodes, n.IsSound outer := by
  have new : Node.IsSound outer (.text content) := .text plain
  unfold joinText
  split
  · next before rest =>
    obtain ⟨first, later⟩ := List.forall_mem_cons.1 sound
    cases first with | text first =>
    refine List.forall_mem_cons.2 ⟨.text fun c member => ?_, later⟩
    rw [String.toList_append, List.mem_append] at member
    exact member.elim (first c) (plain c)
  · exact List.forall_mem_cons.2 ⟨new, sound⟩

theorem IsSound.addText? {b b' : Builder} (sound : b.IsSound) {content : String}
    (plain : AllCharacters content.toList) (added : b.addText? content = some b') : b'.IsSound := by
  obtain ⟨outside, elements⟩ := b
  obtain ⟨outsideSound, openSound⟩ := sound
  cases openSound with
  | nil => simp [Builder.addText?] at added
  | cons tag nodes around =>
    obtain rfl := Option.some.inj added
    exact ⟨outsideSound, .cons tag (isSound_joinText nodes plain) around⟩

/-- One token keeps what was read sound. -/
theorem IsSound.step? {b b' : Builder} (sound : b.IsSound) {t : Token} (token : t.IsSound)
    (read : b.step? t = some b') : b'.IsSound := by
  cases t with
  | opening label raw isEmpty =>
    obtain ⟨tag, tagRead, read⟩ := Option.bind_eq_some_iff.1 read
    have tagSound := Tag.isSound_of_read? sound.openElements.isSound_of_mem token.1 token.2 tagRead
    cases isEmpty with
    | true =>
      obtain rfl := Option.some.inj read
      exact sound.add (.element tagSound (by simp))
    | false =>
      obtain rfl := Option.some.inj read
      exact ⟨sound.outside, .cons tagSound (by simp) sound.openElements⟩
  | closing label =>
    obtain ⟨outside, elements⟩ := b
    obtain ⟨outsideSound, openSound⟩ := sound
    cases openSound with
    | nil => simp [Builder.step?] at read
    | @cons _ es tag nodes around =>
      simp only [Builder.step?, Option.ite_none_right_eq_some, Option.some.injEq] at read
      obtain ⟨-, rfl⟩ := read
      have before : Builder.IsSound ⟨outside, es⟩ := ⟨outsideSound, around⟩
      exact before.add (.element tag fun n member => nodes n (List.mem_reverse.1 member))
  | text raw =>
    simp only [Builder.step?] at read
    split at read
    · rw [Option.ite_none_right_eq_some] at read
      exact Option.some.inj read.2 ▸ sound
    · obtain ⟨content, value, added⟩ := Option.bind_eq_some_iff.1 read
      exact sound.addText? (isCharacter_textValue? token value) added
  | literal content => exact sound.addText? (isCharacter_literalValue token) read
  | comment content =>
    obtain rfl := Option.some.inj read
    exact sound.add (.comment _)
  | instruction content =>
    simp only [Builder.step?, Option.ite_none_right_eq_some, Option.some.injEq] at read
    obtain ⟨-, rfl⟩ := read
    exact sound.add (.instruction _)

theorem IsSound.foldlM {b b' : Builder} (sound : b.IsSound) {tokens : List Token}
    (tokensSound : ∀ t ∈ tokens, t.IsSound) (read : tokens.foldlM Builder.step? b = some b') :
    b'.IsSound := by
  induction tokens generalizing b with
  | nil => exact Option.some.inj read ▸ sound
  | cons t tokens ih =>
    obtain ⟨first, rest⟩ := List.forall_mem_cons.1 tokensSound
    rw [List.foldlM_cons] at read
    obtain ⟨next, step, read⟩ := Option.bind_eq_some_iff.1 read
    exact ih (sound.step? first step) rest read

end Builder

/-! ## Messages -/

theorem expect?_subset {word cs rest : List Char} (read : expect? word cs = some rest) : rest ⊆ cs := by
  rw [expect?, Option.ite_none_right_eq_some] at read
  obtain rfl := Option.some.inj read.2
  exact List.drop_subset _ _

theorem skipGap?_subset {cs rest : List Char} (read : skipGap? cs = some rest) : rest ⊆ cs := by
  cases cs with
  | nil => simp [skipGap?] at read
  | cons c cs =>
    simp only [skipGap?] at read
    split at read
    · obtain rfl := Option.some.inj read
      exact (List.dropWhile_sublist _).subset
    · rw [Option.ite_none_right_eq_some] at read
      exact Option.some.inj read.2 ▸ List.Subset.refl _

theorem skipAttribute?_subset {cs rest : List Char} (read : skipAttribute? cs = some rest) :
    rest ⊆ cs := by
  simp only [skipAttribute?, Option.bind_eq_bind, Option.bind_eq_some_iff] at read
  obtain ⟨-, -, value, equals, read⟩ := read
  split at read
  · next mark inside shape =>
    rw [Option.ite_none_right_eq_some] at read
    have start : mark :: inside ⊆ value := shape ▸ (List.dropWhile_sublist _).subset
    calc rest ⊆ inside.dropWhile fun c => c != mark && c != '<' := expect?_subset read.2
      _ ⊆ inside := (List.dropWhile_sublist _).subset
      _ ⊆ mark :: inside := List.subset_cons_self _ _
      _ ⊆ value := start
      _ ⊆ skipSpaces (cs.dropWhile isNameChar) := expect?_subset equals
      _ ⊆ cs.dropWhile isNameChar := (List.dropWhile_sublist _).subset
      _ ⊆ cs := (List.dropWhile_sublist _).subset
  · simp at read

theorem skipOptional?_subset {word : String} {cs rest : List Char}
    (read : skipOptional? word cs = some rest) : rest ⊆ cs := by
  unfold skipOptional? at read
  split at read
  · obtain ⟨gap, quoted, read⟩ := Option.bind_eq_some_iff.1 read
    exact List.Subset.trans (skipGap?_subset read) (skipAttribute?_subset quoted)
  · exact Option.some.inj read ▸ List.Subset.refl _

theorem skipDeclaration?_subset {cs rest : List Char} (read : skipDeclaration? cs = some rest) :
    rest ⊆ cs := by
  unfold skipDeclaration? at read
  split at read
  · simp only [Option.bind_eq_bind, Option.bind_eq_some_iff] at read
    obtain ⟨version, first, encoding, second, standalone, third, last⟩ := read
    have after : version ⊆ skipSpaces (cs.drop declarationStart.length) := by
      rw [seqRight_eq_bind] at first
      obtain ⟨-, -, first⟩ := Option.bind_eq_some_iff.1 first
      obtain ⟨gap, quoted, first⟩ := Option.bind_eq_some_iff.1 first
      exact List.Subset.trans (skipGap?_subset first) (skipAttribute?_subset quoted)
    calc rest ⊆ skipSpaces standalone := expect?_subset last
      _ ⊆ standalone := (List.dropWhile_sublist _).subset
      _ ⊆ encoding := skipOptional?_subset third
      _ ⊆ version := skipOptional?_subset second
      _ ⊆ skipSpaces (cs.drop declarationStart.length) := after
      _ ⊆ cs.drop declarationStart.length := (List.dropWhile_sublist _).subset
      _ ⊆ cs := List.drop_subset _ _
  · exact Option.some.inj read ▸ List.Subset.refl _

theorem Document.isSound_of_ofNodes? {nodes : List Node} {d : Document}
    (sound : ∀ n ∈ nodes, n.IsSound []) (read : Document.ofNodes? nodes = some d) :
    d.root.IsSound [] := by
  unfold Document.ofNodes? at read
  split at read
  · next tag content after shape =>
    rw [Option.ite_none_left_eq_some] at read
    obtain rfl := Option.some.inj read.2
    exact sound _ ((List.dropWhile_sublist _).subset (shape ▸ List.mem_cons_self ..))
  · simp at read

/-- The root element of a message is sound where nothing is in scope. -/
theorem Document.isSound_of_parse {s : String} {d : Document} (parsed : Document.parse s = .ok d) :
    d.root.IsSound [] := by
  unfold Document.parse at parsed
  split at parsed
  · next d' read =>
    obtain rfl := Except.ok.inj parsed
    simp only [Document.ofChars?, Option.ite_none_right_eq_some, Option.bind_eq_bind,
      Option.bind_eq_some_iff, List.all_eq_true] at read
    obtain ⟨plain, body, skipped, tokens, scanned, read⟩ := read
    simp only [Document.ofTokens?, Option.bind_eq_bind, Option.bind_eq_some_iff,
      Option.ite_none_right_eq_some] at read
    obtain ⟨built, folded, -, read⟩ := read
    have tokensSound := isSound_of_scan (fun c member => plain c (skipDeclaration?_subset skipped member))
      scanned
    have builtSound := Builder.IsSound.foldlM ⟨by simp, .nil⟩ tokensSound folded
    exact isSound_of_ofNodes? (fun n member => builtSound.outside n (List.mem_reverse.1 member)) read
  · simp at parsed

/-! ## Nodes below -/

theorem Node.mem_preorder_iff {nodes : List Node} {m : Node} :
    m ∈ Node.preorder nodes ↔ ∃ n ∈ nodes, m = n ∨ m ∈ n.descendants := by
  induction nodes with
  | nil => simp [Node.preorder]
  | cons n nodes ih => simp [Node.preorder, ih, or_assoc]

/-- What is below a sound tree is sound where it stands. -/
theorem Node.IsSound.exists_of_mem_descendants {outer : List Binding} {n m : Node}
    (sound : n.IsSound outer) (member : m ∈ n.descendants) : ∃ outer', m.IsSound outer' := by
  induction sound with
  | element tagSound nodesSound ih =>
    rw [Node.descendants, Node.mem_preorder_iff] at member
    obtain ⟨child, there, rfl | below⟩ := member
    · exact ⟨_, nodesSound _ there⟩
    · exact ih child there below
  | text | comment | instruction => simp [Node.descendants] at member

end MessageConformance.Message
