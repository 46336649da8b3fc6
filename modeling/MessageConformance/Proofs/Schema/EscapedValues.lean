import MessageConformance.Proofs.Schema.Mentions
import MessageConformance.Proofs.Schema.Relocating

/-!
# Escaped values where no entity is declared

Values are written with the predefined entities, which the loader knows only if a document type
declares them. Where none is declared, an escaped value is read as the value it was made of if
nothing in it had to be escaped; otherwise reading stops at it (`reads_escaped_iff_isBare`). So
there are schemas that are written by `writeSchema` and cannot be loaded
(`refuses_escapedDocument`).
-/

namespace MessageConformance.Schema

open Bytes
open Message (isEscaped)

/-! ## Values -/

/-- Nothing in a text has to be escaped. -/
def IsBare (s : String) : Prop := ∀ c ∈ s.toList, isEscaped c = false

instance (s : String) : Decidable (IsBare s) :=
  List.decidableBAll (isEscaped · = false) s.toList

/-- A text as it is written for the value of an attribute. -/
def escaped (s : String) : Bytes := ofText (Markup.escapeText s)

theorem expandFrom_escape_of_bare {cs : List Char} (bare : ∀ c ∈ cs, isEscaped c = false)
    (entities : Entities) : expandFrom entities none (Markup.escape cs) = some cs := by
  induction cs with
  | nil => rfl
  | cons c cs ih =>
    rw [List.forall_mem_cons] at bare
    rw [Markup.escape, List.flatMap_cons, ← Markup.escape]
    obtain ⟨-, same⟩ | ⟨escaped, -⟩ := escapeChar_cases c
    · rw [same, List.singleton_append, expandFrom_cons_of_bare bare.1, ih bare.2]
      rfl
    · simp [bare.1] at escaped

/-- Where no entity is declared, the first character that was escaped is not read. -/
theorem expandFrom_escape_of_mem {cs : List Char} {c : Char} (member : c ∈ cs)
    (escaped : isEscaped c = true) : expandFrom [] none (Markup.escape cs) = none := by
  induction cs with
  | nil => simp at member
  | cons first cs ih =>
    rw [Markup.escape, List.flatMap_cons, ← Markup.escape]
    obtain ⟨bare, same⟩ | ⟨-, name, written, plain, -, unknown⟩ := escapeChar_cases first
    · have later : c ∈ cs := by
        obtain rfl | later := List.mem_cons.1 member
        · simp [bare] at escaped
        · exact later
      rw [same, List.singleton_append, expandFrom_cons_of_bare bare, ih later]
      rfl
    · rw [written, List.append_assoc, List.singleton_append, expandFrom_reference plain, unknown]
      rfl

theorem expand?_escaped (s : String) :
    expand? [] (escaped s) = if IsBare s then some s else none := by
  rw [expand?, escaped, text?_ofText, Option.bind_some, Markup.escapeText, String.toList_ofList]
  split
  · next bare =>
    rw [expandFrom_escape_of_bare bare]
    simp
  · next held =>
    have held : ∃ c ∈ s.toList, isEscaped c = true := by simpa [IsBare] using held
    obtain ⟨c, member, escaped⟩ := held
    rw [expandFrom_escape_of_mem member escaped]
    rfl

/-! ## Tags that hold a value -/

/-- A tag is that of the root of a schema, with a target namespace that is written so. -/
structure Draft.HoldsTarget (d : Draft) (content value : Bytes) : Prop where
  first : d.rootSeen = false
  bound : (scopeInside? d.scope (Attributes.of content)).isSome
  schema : isSchemaName (d.inside content) (tagName content)
  root : localName (tagName content) = ascii "schema"
  held : (Attributes.of content).find? targetName = some (some value)

/-- A tag inside the root refers to another schema, at a location that is written so. -/
structure Draft.HoldsLocation (d : Draft) (content value : Bytes) : Prop where
  behind : d.rootSeen = true
  bound : (scopeInside? d.scope (Attributes.of content)).isSome
  refers : d.IsReferenceTag content
  sound : (Attributes.of content).areSound = true
  held : ⟨locationName, value⟩ ∈ (Attributes.of content).list

/-- The fault at a value that cannot be expanded. -/
def valueFault : Fault := .malformed "malformed attribute value"

namespace Draft

variable {d : Draft} {content value : Bytes}

theorem step_tag (d : Draft) (content : Bytes) (isEmpty : Bool) :
    d.step (.tag content isEmpty) = d.readTag (.tag content isEmpty) content isEmpty := by
  cases isEmpty <;> rfl

theorem HoldsTarget.step_of_unreadable (holds : d.HoldsTarget content value)
    (unreadable : expand? d.entities value = none) (isEmpty : Bool) :
    d.step (.tag content isEmpty) = .error valueFault := by
  obtain ⟨scope, bound⟩ := Option.isSome_iff_exists.1 holds.bound
  have inside : d.inside content = scope := by simp [inside, bound]
  have schema : isSchemaName scope (tagName content) = true := inside ▸ holds.schema
  have root : d.readRoot scope (tagName content) (Attributes.of content) = .error valueFault := by
    simp [readRoot, holds.first, schema, holds.root, holds.held, unreadable, valueFault]
  simp only [step_tag, readTag, bound, root]
  rfl

/-- The root tag is read, and its target namespace is what the value expands to. -/
theorem HoldsTarget.step_of_readable (holds : d.HoldsTarget content value) {uri : String}
    (readable : expand? d.entities value = some uri) (isEmpty : Bool) :
    ∃ d' part, d.step (.tag content isEmpty) = .ok (d', part) ∧ d'.rootSeen = true ∧
      d'.targetNamespace = some uri := by
  have other : ¬ d.IsReferenceTag content := by
    rintro ⟨-, kind⟩
    rw [holds.root] at kind
    simp [show referenceKind? (ascii "schema") = none by decide] at kind
  have target : d.HasReadableTarget content :=
    ⟨some value, holds.held, fun _ same => Option.some.inj same ▸ Option.isSome_of_eq_some readable⟩
  have reads : d.Reads (.tag content isEmpty) := by
    have root := fun _ : d.rootSeen = false => And.intro holds.schema (And.intro holds.root target)
    cases isEmpty <;> exact ⟨holds.bound, root, fun refers => absurd refers other⟩
  obtain ⟨d', part, made⟩ := (step_succeeds_iff d _).2 reads
  have known : (d.afterRoot content).rootSeen = true ∧
      (d.afterRoot content).targetNamespace = some uri := by
    simp [afterRoot, holds.first, holds.held, readable]
  refine ⟨d', part, made, ?_⟩
  rw [eq_after_of_step made]
  cases isEmpty <;> exact known

/-- The location is the one that is expanded. -/
theorem HoldsLocation.find? (holds : d.HoldsLocation content value) :
    (Attributes.of content).list.find? (·.name = locationName) = some ⟨locationName, value⟩ := by
  have sound := holds.sound
  simp only [Attributes.areSound, Bool.and_eq_true, decide_eq_true_eq] at sound
  cases found : (Attributes.of content).list.find? (·.name = locationName) with
  | none =>
    have absent := List.find?_eq_none.1 found _ holds.held
    simp at absent
  | some a =>
    have named : a.name = locationName := by simpa using List.find?_some found
    rw [List.inj_on_of_nodup_map sound.2 (List.mem_of_find?_eq_some found) holds.held named]

theorem HoldsLocation.readPart_eq (holds : d.HoldsLocation content value) (isEmpty : Bool) :
    ∃ kind, d.readPart (d.inside content) (.tag content isEmpty) (tagName content)
        (Attributes.of content) isEmpty =
      match expand? d.entities value with
      | none => .error valueFault
      | some target => .ok (.reference ⟨kind, tagName content,
          (Attributes.of content).list.filter (·.name ≠ locationName), target, isEmpty⟩) := by
  obtain ⟨schema, named⟩ := holds.refers
  obtain ⟨kind, named⟩ := Option.isSome_iff_exists.1 named
  refine ⟨kind, ?_⟩
  simp only [readPart, schema, ↓reduceIte, named, holds.sound, Bool.not_true, Bool.false_eq_true,
    holds.find?]
  rfl

/-- Behind the root a tag is read as a part. -/
theorem HoldsLocation.step_eq (holds : d.HoldsLocation content value) (isEmpty : Bool) :
    ∃ d', d.step (.tag content isEmpty) =
      (d.readPart (d.inside content) (.tag content isEmpty) (tagName content)
        (Attributes.of content) isEmpty).map (d', ·) := by
  obtain ⟨scope, bound⟩ := Option.isSome_iff_exists.1 holds.bound
  have inside : d.inside content = scope := by simp [inside, bound]
  have root : d.readRoot scope (tagName content) (Attributes.of content) = .ok d := by
    simp [readRoot, holds.behind]
  refine ⟨if isEmpty then d else { d with openElements := (tagName content, scope) ::
    d.openElements }, ?_⟩
  simp only [step_tag, readTag, bound, inside]
  show (d.readRoot scope _ _ >>= _) = _
  rw [root]
  show (d.readPart scope _ _ _ _ >>= _) = _
  cases d.readPart scope (.tag content isEmpty) (tagName content) (Attributes.of content) isEmpty
  · rfl
  · cases isEmpty <;> rfl

theorem HoldsLocation.step_of_unreadable (holds : d.HoldsLocation content value)
    (unreadable : expand? d.entities value = none) (isEmpty : Bool) :
    d.step (.tag content isEmpty) = .error valueFault := by
  obtain ⟨kind, part⟩ := holds.readPart_eq isEmpty
  obtain ⟨d', read⟩ := holds.step_eq isEmpty
  rw [read, part, unreadable]
  rfl

/-- The tag is read as a reference, and its target is what the value expands to. -/
theorem HoldsLocation.step_of_readable (holds : d.HoldsLocation content value) {target : String}
    (readable : expand? d.entities value = some target) (isEmpty : Bool) :
    ∃ d' r, d.step (.tag content isEmpty) = .ok (d', .reference r) ∧ r.target = target := by
  obtain ⟨kind, part⟩ := holds.readPart_eq isEmpty
  obtain ⟨d', read⟩ := holds.step_eq isEmpty
  rw [readable] at part
  refine ⟨d', ⟨kind, tagName content,
    (Attributes.of content).list.filter (·.name ≠ locationName), target, isEmpty⟩, ?_, rfl⟩
  rw [read, part]
  rfl

end Draft

/-! ## Documents -/

/-- No document type of a document declares an entity with a value. -/
def DeclaresNothing (content : Bytes) : Prop :=
  ∀ keyword space declared, Token.documentType keyword space declared ∈ (Scan.of content).tokens →
    Entities.of (lossyText declared).toList = []

/-- The tokens of a document are read to one of them. -/
structure ComesTo (content : Bytes) (before : List Token) (d : Draft) (token : Token) : Prop where
  tokens : before ++ [token] <+: (Scan.of content).tokens
  read : (Draft.read {} before).2 = .ok d

/-- Reading a document stops at a value that cannot be expanded, after some tokens, and the document
    is not stored. -/
structure StopsAfter (content : Bytes) (before : List Token) : Prop where
  parts : (Outline.of content).parts.length = before.length
  fault : (Outline.of content).targetNamespace = .error valueFault
  refused : ∀ store location rewritten,
    (rewrite store ⟨location, content⟩).outcome ≠ .ok rewritten

namespace Draft

variable {d d' : Draft} {before : List Token}

theorem read_append (read : (d.read before).2 = .ok d') (rest : List Token) :
    d.read (before ++ rest) = ((d.read before).1 ++ (d'.read rest).1, (d'.read rest).2) := by
  induction before generalizing d with
  | nil =>
    obtain rfl := Except.ok.inj read
    rfl
  | cons token before ih =>
    rw [Draft.read] at read
    rw [List.cons_append, Draft.read, Draft.read]
    cases made : d.step token with
    | error fault => simp [made] at read
    | ok next =>
      rw [made] at read
      simp only [ih read]
      rfl

theorem length_read (read : (d.read before).2 = .ok d') :
    (d.read before).1.length = before.length := by
  induction before generalizing d with
  | nil => rfl
  | cons token before ih =>
    rw [Draft.read] at read ⊢
    cases made : d.step token with
    | error fault => simp [made] at read
    | ok next =>
      rw [made] at read
      simp [ih read]

theorem entities_foldl_after {tokens : List Token} (none : d.entities = [])
    (free : ∀ keyword space declared, Token.documentType keyword space declared ∈ tokens →
      Entities.of (lossyText declared).toList = []) :
    (tokens.foldl after d).entities = [] := by
  induction tokens generalizing d with
  | nil => exact none
  | cons token tokens ih =>
    refine ih ?_ fun keyword space declared member =>
      free keyword space declared (List.mem_cons_of_mem _ member)
    cases token with
    | opening content => exact (entities_afterRoot d content).trans none
    | emptyTag content => exact (entities_afterRoot d content).trans none
    | documentType keyword space declared => exact free _ _ _ (List.mem_cons_self ..)
    | _ => exact none

/-- Only the root tag says what the target namespace is. -/
theorem targetNamespace_foldl_after (seen : d.rootSeen = true) (tokens : List Token) :
    (tokens.foldl after d).targetNamespace = d.targetNamespace := by
  induction tokens generalizing d with
  | nil => rfl
  | cons token tokens ih =>
    have root (content : Bytes) : d.afterRoot content = d := if_pos seen
    have step : (d.after token).rootSeen = true ∧
        (d.after token).targetNamespace = d.targetNamespace := by
      cases token <;> simp [after, root, seen]
    rw [List.foldl_cons, ih step.1, step.2]

end Draft

namespace ComesTo

variable {content : Bytes} {before : List Token} {d d' : Draft} {token : Token}

theorem entities_eq_nil (comes : ComesTo content before d token)
    (free : DeclaresNothing content) : d.entities = [] := by
  obtain ⟨-, rfl⟩ := (Draft.read_eq_ok_iff _ _ _).1 comes.read
  refine Draft.entities_foldl_after rfl fun keyword space declared member => ?_
  exact free keyword space declared (comes.tokens.subset (List.mem_append_left _ member))

theorem stopsAfter (comes : ComesTo content before d token)
    (stops : d.step token = .error valueFault) : StopsAfter content before := by
  obtain ⟨after, shape⟩ := comes.tokens
  have read : Draft.read {} (Scan.of content).tokens =
      ((Draft.read {} before).1, .error valueFault) := by
    rw [← shape, List.append_assoc, Draft.read_append comes.read, List.singleton_append, Draft.read,
      stops, List.append_nil]
  have fault : (Outline.of content).targetNamespace = .error valueFault := by
    simp only [Outline.of, read]
    rfl
  refine ⟨?_, fault, fun store location rewritten made => ?_⟩
  · simp only [Outline.of, read, Draft.length_read comes.read]
  · obtain ⟨⟨sound, -⟩, -⟩ := (outcome_rewrite_eq_ok_iff _ _).1 made
    have named := (targetNamespace_eq_ok_iff content (namespaceOf content)).2 ⟨sound, rfl⟩
    rw [fault] at named
    cases named

theorem part (comes : ComesTo content before d token) {part : Part}
    (made : d.step token = .ok (d', part)) :
    (Outline.of content).parts[before.length]? = some part := by
  obtain ⟨after, shape⟩ := comes.tokens
  have parts : (Outline.of content).parts =
      (Draft.read {} before).1 ++ part :: (d'.read after).1 := by
    simp only [Outline.of, ← shape, List.append_assoc, Draft.read_append comes.read,
      List.singleton_append, Draft.read, made]
  rw [parts, ← Draft.length_read comes.read]
  simp

/-- What is recorded of a document that is stored is the target namespace in its root tag. -/
theorem targetNamespace (comes : ComesTo content before d token) {part : Part}
    (made : d.step token = .ok (d', part)) (seen : d'.rootSeen = true) :
    namespaceOf content = d'.targetNamespace := by
  obtain ⟨after, shape⟩ := comes.tokens
  obtain ⟨-, here⟩ := (Draft.read_eq_ok_iff _ _ _).1 comes.read
  rw [namespaceOf, ← shape, List.append_assoc, List.foldl_append, ← here, List.singleton_append,
    List.foldl_cons, ← Draft.eq_after_of_step made, Draft.targetNamespace_foldl_after seen]

end ComesTo

/-- Where no entity is declared, an escaped target namespace is recorded as it was, and an escaped
    location handed on as it was, if nothing in it had to be escaped. Otherwise reading stops before
    the tag that holds it. -/
theorem reads_escaped_iff_isBare (content : Bytes) (v : String) {before : List Token} {d : Draft}
    {tag : Bytes} {isEmpty : Bool} (free : DeclaresNothing content)
    (comes : ComesTo content before d (.tag tag isEmpty)) :
    (d.HoldsTarget tag (escaped v) →
      (IsBare v →
        (∃ d' part, d.step (.tag tag isEmpty) = .ok (d', part) ∧ d'.targetNamespace = some v) ∧
        ∀ store location rewritten, (rewrite store ⟨location, content⟩).outcome = .ok rewritten →
          rewritten.targetNamespace = some v) ∧
      (¬ IsBare v → StopsAfter content before)) ∧
    (d.HoldsLocation tag (escaped v) →
      (IsBare v → ∃ r, (Outline.of content).parts[before.length]? = some (.reference r) ∧
        r.target = v ∧ ∀ store base, (rewritePart store base (.reference r)).asked =
          (Resolver.resolve store v (some base)).asked) ∧
      (¬ IsBare v → StopsAfter content before)) := by
  have expanded : expand? d.entities (escaped v) = if IsBare v then some v else none := by
    rw [comes.entities_eq_nil free, expand?_escaped]
  constructor
  · intro holds
    constructor
    · intro bare
      rw [if_pos bare] at expanded
      obtain ⟨d', part, made, seen, target⟩ := holds.step_of_readable expanded isEmpty
      refine ⟨⟨d', part, made, target⟩, fun store location rewritten stores => ?_⟩
      obtain ⟨-, rfl⟩ := (outcome_rewrite_eq_ok_iff _ _).1 stores
      exact (comes.targetNamespace made seen).trans target
    · intro held
      rw [if_neg held] at expanded
      exact comes.stopsAfter (holds.step_of_unreadable expanded isEmpty)
  · intro holds
    constructor
    · intro bare
      rw [if_pos bare] at expanded
      obtain ⟨d', r, made, rfl⟩ := holds.step_of_readable expanded isEmpty
      exact ⟨r, comes.part made, rfl, fun store base => Part.asked_rewritePart store base _⟩
    · intro held
      rw [if_neg held] at expanded
      exact comes.stopsAfter (holds.step_of_unreadable expanded isEmpty)

/-! ## Generated schemas -/

section

variable (uri : String) (links : List Link)

theorem declaresNothing_writeSchema (targetNamespace : Option String) :
    DeclaresNothing (writeSchema targetNamespace links) := by
  intro keyword space declared member
  rw [scan_writeSchema] at member
  obtain root | ⟨link, -, same⟩ | closing := mem_schemaTokens_iff.1 member
  · simp [Token.tag] at root
  · simp [Link.token, Token.tag] at same
  · simp at closing

/-- The first tag of a generated schema is reached. -/
theorem comesTo_writeSchema (targetNamespace : Option String) :
    ComesTo (writeSchema targetNamespace links) [] {}
      (.tag (rootContent targetNamespace) false) := by
  refine ⟨?_, rfl⟩
  rw [scan_writeSchema]
  exact List.prefix_append ..

theorem holdsTarget_rootContent :
    Draft.HoldsTarget {} (rootContent (some uri)) (escaped uri) := by
  have element := schemaElement?_rootContent (some uri)
  unfold Draft.schemaElement? at element
  split at element
  · next schema =>
    refine ⟨rfl, Option.isSome_of_eq_some (scopeInside?_rootContent _), schema,
      Option.some.inj element, ?_⟩
    have other : ascii "xmlns:xs" ≠ targetName := by decide
    rw [of_rootContent, Attributes.find?, schemaAttributes,
      List.find?_cons_of_neg (by simpa using other)]
    simp [Attribute.ofText, escaped]
  · simp at element

end

/-- A schema with an ampersand in its target namespace, as it is written. -/
def escapedDocument : Resource :=
  ⟨⟨["escaped.xsd"], by decide, by decide⟩, writeSchema (some "a&b") []⟩

def escapedStore : Store where
  documents := [(escapedDocument.location, escapedDocument.content)]
  distinct := by decide

/-- A schema that is written with an escaped target namespace, and declares no entity, is refused
    for it. -/
theorem refuses_escapedDocument :
    DeclaresNothing escapedDocument.content ∧
    ComesTo escapedDocument.content [] {} (.tag (rootContent (some "a&b")) false) ∧
    Draft.HoldsTarget {} (rootContent (some "a&b")) (escaped "a&b") ∧
    (Bundle.load escapedStore ["escaped.xsd"]).outcome =
      .error (.invalid "escaped.xsd" "malformed attribute value") := by
  refine ⟨declaresNothing_writeSchema _ _, comesTo_writeSchema _ _, holdsTarget_rootContent _, ?_⟩
  decide +kernel

/-- A schema with a document type that declares nothing, a target namespace and an include. -/
def bareDocument : Resource where
  location := ⟨["bare.xsd"], by decide, by decide⟩
  content :=
    ascii "<!DOCTYPE xs:schema><xs:schema xmlns:xs=\"http://www.w3.org/2001/XMLSchema\"" ++
      ascii " targetNamespace=\"urn:x\"><xs:include schemaLocation=\"part.xsd\"/></xs:schema>"

def bareStore : Store where
  documents := [(⟨["part.xsd"], by decide, by decide⟩, writeSchema none [])]
  distinct := by decide

/-- Its document type. -/
def bareType : Token := .documentType (ascii "DOCTYPE") [byte ' '] (ascii "xs:schema")

/-- The tag of its root. -/
def bareRoot : Bytes :=
  ascii "xs:schema xmlns:xs=\"http://www.w3.org/2001/XMLSchema\" targetNamespace=\"urn:x\""

/-- The tag of its include. -/
def bareInclude : Bytes := ascii "xs:include schemaLocation=\"part.xsd\""

theorem tokens_bareDocument : (Scan.of bareDocument.content).tokens =
    [bareType, .opening bareRoot, .emptyTag bareInclude, .closing (ascii "xs:schema") []] := by
  decide +kernel

theorem declaresNothing_bareDocument : DeclaresNothing bareDocument.content := by
  intro keyword space declared member
  rw [tokens_bareDocument] at member
  simp only [bareType, List.mem_cons, reduceCtorEq, Token.documentType.injEq, List.not_mem_nil,
    or_false] at member
  obtain ⟨-, -, rfl⟩ := member
  decide +kernel

/-- The values of a schema that is bare are read; that of the one with an ampersand is not. -/
theorem reads_escaped_bareDocument :
    (IsBare "urn:x" ∧ ∃ rewritten, (rewrite bareStore bareDocument).outcome = .ok rewritten ∧
      rewritten.targetNamespace = some "urn:x") ∧
    (IsBare "part.xsd" ∧ ∃ r, (Outline.of bareDocument.content).parts[2]? = some (.reference r) ∧
      r.target = "part.xsd" ∧ ∀ store base, (rewritePart store base (.reference r)).asked =
        (Resolver.resolve store "part.xsd" (some base)).asked) ∧
    (¬ IsBare "a&b" ∧ StopsAfter escapedDocument.content []) := by
  have rewrites : (rewrite bareStore bareDocument).outcome.isOk = true := by decide +kernel
  obtain ⟨rewritten, made⟩ := isOk_iff.1 rewrites
  have comes : ComesTo bareDocument.content [bareType] (Draft.after {} bareType)
      (.tag bareRoot false) :=
    ⟨⟨_, tokens_bareDocument.symm⟩, rfl⟩
  have comes' : ComesTo bareDocument.content [bareType, .opening bareRoot]
      ((Draft.after {} bareType).after (.opening bareRoot)) (.tag bareInclude true) := by
    have reads : (Draft.read {} [bareType, .opening bareRoot]).2.isOk = true := by decide +kernel
    obtain ⟨d, read⟩ := isOk_iff.1 reads
    obtain ⟨-, rfl⟩ := (Draft.read_eq_ok_iff _ _ _).1 read
    exact ⟨⟨_, tokens_bareDocument.symm⟩, read⟩
  have bareNamespace : IsBare "urn:x" := by decide +kernel
  have bareLocation : IsBare "part.xsd" := by decide +kernel
  have held : ¬ IsBare "a&b" := by decide +kernel
  refine ⟨⟨bareNamespace, rewritten, made, ?_⟩, ⟨bareLocation, ?_⟩, held, ?_⟩
  · have reads := (reads_escaped_iff_isBare _ "urn:x" declaresNothing_bareDocument comes).1
      ⟨rfl, by decide +kernel, by decide +kernel, by decide +kernel, by decide +kernel⟩
    exact (reads.1 bareNamespace).2 _ _ _ made
  · have reads := (reads_escaped_iff_isBare _ "part.xsd" declaresNothing_bareDocument comes').2
      ⟨by decide +kernel, by decide +kernel, ⟨by decide +kernel, by decide +kernel⟩,
        by decide +kernel, by decide +kernel⟩
    exact reads.1 bareLocation
  · have reads := (reads_escaped_iff_isBare _ "a&b" (declaresNothing_writeSchema [] _)
      (comesTo_writeSchema [] _)).1 (holdsTarget_rootContent _)
    exact reads.2 held

end MessageConformance.Schema
