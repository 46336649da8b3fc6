import MessageConformance.Schema.Outline
import MessageConformance.Proofs.Results
import Mathlib.Data.List.Nodup

/-!
# When a schema document can be read

What each token must be like where it stands, that is, after the tokens before it: `Nests` is
about markup, `FitsRoot` about the root element and `FitsReference` about references to other
schemas. A token is read exactly if it meets all three (`step_succeeds_iff`), and a document
exactly if all its tokens do, it is scanned to its end, and there is a tag in it
(`outline_succeeds_iff`).
-/

namespace MessageConformance.Schema

open Bytes

/-- Whether a token is a start tag or an empty one. -/
def Token.isTag : Token → Bool
  | .opening _ | .emptyTag _ => true
  | _ => false

namespace Draft

/-- The namespaces in scope inside a tag. -/
def inside (d : Draft) (content : Bytes) : Scope :=
  (scopeInside? d.scope (Attributes.of content)).getD d.scope

/-- Namespaces are bound as it is allowed, and an end tag closes the innermost open element. -/
def Nests (d : Draft) : Token → Prop
  | .opening content | .emptyTag content =>
    (scopeInside? d.scope (Attributes.of content)).isSome
  | .closing name _ => d.openElements.head?.map (·.1) = some name
  | _ => True

/-- The target namespace in a root tag is readable if there is one. -/
def HasReadableTarget (d : Draft) (content : Bytes) : Prop :=
  ∃ value?, (Attributes.of content).find? targetName = some value? ∧
    ∀ value, value? = some value → (expand? d.entities value).isSome

/-- The first tag is that of a schema, with a readable target namespace if any. -/
def FitsRoot (d : Draft) : Token → Prop
  | .opening content | .emptyTag content =>
    d.rootSeen = false →
      isSchemaName (d.inside content) (tagName content) ∧
        localName (tagName content) = ascii "schema" ∧ d.HasReadableTarget content
  | _ => True

/-- A tag is that of an element that refers to other schemas. -/
def IsReferenceTag (d : Draft) (content : Bytes) : Prop :=
  isSchemaName (d.inside content) (tagName content) ∧
    (referenceKind? (localName (tagName content))).isSome

/-- The attributes of an element that refers to other schemas are well formed, each name once,
    and the location is readable. -/
def FitsReference (d : Draft) : Token → Prop
  | .opening content | .emptyTag content =>
    d.IsReferenceTag content → (Attributes.of content).areSound ∧
      ∀ a ∈ (Attributes.of content).list, a.name = locationName →
        (expand? d.entities a.value).isSome
  | _ => True

/-- A token can be read. -/
structure Reads (d : Draft) (token : Token) : Prop where
  nests : d.Nests token
  root : d.FitsRoot token
  reference : d.FitsReference token

/-- What is known after a root tag. -/
def afterRoot (d : Draft) (content : Bytes) : Draft :=
  if d.rootSeen then d
  else
    { d with
      rootSeen := true
      targetNamespace := match (Attributes.of content).find? targetName with
        | some (some value) => expand? d.entities value
        | _ => d.targetNamespace }

/-- What is known after a token that can be read. -/
def after (d : Draft) : Token → Draft
  | .opening content =>
    { d.afterRoot content with
      openElements := (tagName content, d.inside content) :: d.openElements }
  | .emptyTag content => d.afterRoot content
  | .closing _ _ => { d with openElements := d.openElements.tail }
  | .documentType _ _ content => { d with entities := Entities.of (lossyText content).toList }
  | _ => d

/-! ## Tags -/

theorem readRoot_eq_ok_iff (d d' : Draft) (content : Bytes) :
    d.readRoot (d.inside content) (tagName content) (Attributes.of content) = .ok d' ↔
      (d.rootSeen = false →
        isSchemaName (d.inside content) (tagName content) ∧
          localName (tagName content) = ascii "schema" ∧ d.HasReadableTarget content) ∧
      d' = d.afterRoot content := by
  unfold readRoot afterRoot HasReadableTarget
  generalize ascii "schema" = word
  cases seen : d.rootSeen with
  | true => simp [eq_comm (a := d')]
  | false =>
    by_cases schema : isSchemaName (d.inside content) (tagName content) = true ∧
        localName (tagName content) = word
    · cases found : (Attributes.of content).find? targetName with
      | none => simp [schema.1, schema.2]
      | some value? =>
        cases value? with
        | none => simp [schema.1, schema.2, eq_comm (a := d')]
        | some value =>
          cases expanded : expand? d.entities value <;> simp [schema.1, schema.2, expanded, eq_comm (a := d')]
    · have other : ¬ (isSchemaName (d.inside content) (tagName content) &&
          localName (tagName content) = word) = true := by simpa using schema
      simp only [other, Bool.false_eq_true, ↓reduceIte, reduceCtorEq, false_iff, not_and,
        forall_const]
      intro fits
      exact absurd ⟨fits.1, fits.2.1⟩ schema

/-- A part is made of every tag but those that refer to other schemas unreadably. -/
theorem readPart_succeeds_iff (d d' : Draft) (token : Token) (content : Bytes) (isEmpty : Bool)
    (same : d'.entities = d.entities) :
    (∃ part, d'.readPart (d.inside content) token (tagName content) (Attributes.of content)
        isEmpty = .ok part) ↔
      (d.IsReferenceTag content → (Attributes.of content).areSound ∧
        ∀ a ∈ (Attributes.of content).list, a.name = locationName →
          (expand? d.entities a.value).isSome) := by
  unfold readPart IsReferenceTag
  rw [same]
  by_cases schema : isSchemaName (d.inside content) (tagName content) = true
  · cases kind : referenceKind? (localName (tagName content)) with
    | none => simp [schema]
    | some kind =>
      by_cases sound : (Attributes.of content).areSound = true
      · have distinct : ((Attributes.of content).list.map (·.name)).Nodup := by
          have both := sound
          simp only [Attributes.areSound, Bool.and_eq_true, decide_eq_true_eq] at both
          exact both.2
        cases found : (Attributes.of content).list.find? (·.name = locationName) with
        | none =>
          have absent : ∀ a ∈ (Attributes.of content).list, a.name ≠ locationName := by
            simpa using List.find?_eq_none.1 found
          simpa [schema, sound, found] using fun a member named => absurd named (absent a member)
        | some location =>
          have named : location.name = locationName := by simpa using List.find?_some found
          have only : ∀ a ∈ (Attributes.of content).list, a.name = locationName → a = location :=
            fun a member same => List.inj_on_of_nodup_map distinct member
              (List.mem_of_find?_eq_some found) (same.trans named.symm)
          have readable : (∀ a ∈ (Attributes.of content).list, a.name = locationName →
              (expand? d.entities a.value).isSome) ↔ (expand? d.entities location.value).isSome :=
            ⟨fun all => all location (List.mem_of_find?_eq_some found) named,
              fun one a member same => only a member same ▸ one⟩
          rw [readable]
          cases expanded : expand? d.entities location.value <;>
            simp [schema, sound, expanded]
      · simp [schema, sound]
  · simp [schema]

theorem readTag_eq_ok_iff (d d' : Draft) (token : Token) (content : Bytes) (isEmpty : Bool)
    (part : Part) :
    d.readTag token content isEmpty = .ok (d', part) ↔
      (scopeInside? d.scope (Attributes.of content)).isSome ∧
      (d.rootSeen = false →
        isSchemaName (d.inside content) (tagName content) ∧
          localName (tagName content) = ascii "schema" ∧ d.HasReadableTarget content) ∧
      (d.afterRoot content).readPart (d.inside content) token (tagName content)
        (Attributes.of content) isEmpty = .ok part ∧
      d' = if isEmpty then d.afterRoot content
        else { d.afterRoot content with
          openElements := (tagName content, d.inside content) :: d.openElements } := by
  have elements : (d.afterRoot content).openElements = d.openElements := by
    unfold afterRoot; split <;> rfl
  cases bound : scopeInside? d.scope (Attributes.of content) with
  | none => simp [readTag, bound]
  | some scope =>
    have same : d.inside content = scope := by simp [inside, bound]
    simp only [readTag, bound, Option.isSome_some, true_and, ← same, bind_eq_ok_iff,
      readRoot_eq_ok_iff]
    constructor
    · rintro ⟨_, ⟨fits, rfl⟩, part', made, rest⟩
      cases isEmpty with
      | true =>
        obtain ⟨rfl, rfl⟩ := Prod.mk.inj (Except.ok.inj rest)
        exact ⟨fits, made, rfl⟩
      | false =>
        obtain ⟨rfl, rfl⟩ := Prod.mk.inj (Except.ok.inj rest)
        exact ⟨fits, made, by simp [elements]⟩
    · rintro ⟨fits, made, rfl⟩
      refine ⟨_, ⟨fits, rfl⟩, part, made, ?_⟩
      cases isEmpty with
      | true => rfl
      | false => simp [elements, pure, Except.pure]

/-! ## Tokens -/

theorem eq_after_of_step {d d' : Draft} {token : Token} {part : Part}
    (read : d.step token = .ok (d', part)) : d' = d.after token := by
  cases token with
  | opening content => exact ((readTag_eq_ok_iff d d' _ content false part).1 read).2.2.2
  | emptyTag content => exact ((readTag_eq_ok_iff d d' _ content true part).1 read).2.2.2
  | closing name space =>
    unfold step at read
    cases opened : d.openElements with
    | nil => simp [opened] at read
    | cons element outer =>
      by_cases same : element.1 = name
      · simp only [opened, same, ↓reduceIte, Except.ok.injEq, Prod.mk.injEq] at read
        simp [after, ← read.1, opened]
      · simp [opened, same] at read
  | documentType keyword space content => exact (Prod.mk.inj (Except.ok.inj read)).1.symm
  | text _ | comment _ | literal _ | instruction _ => exact (Prod.mk.inj (Except.ok.inj read)).1.symm

private theorem readTag_succeeds_iff (d : Draft) (token : Token) (content : Bytes) (isEmpty : Bool)
    (tag : token = .opening content ∨ token = .emptyTag content) :
    (∃ d' part, d.readTag token content isEmpty = .ok (d', part)) ↔ d.Reads token := by
  have entities : (d.afterRoot content).entities = d.entities := by
    unfold afterRoot; split <;> rfl
  have part := readPart_succeeds_iff d (d.afterRoot content) token content isEmpty entities
  simp only [readTag_eq_ok_iff]
  constructor
  · rintro ⟨_, made, nests, root, read, -⟩
    have reference := part.1 ⟨made, read⟩
    obtain rfl | rfl := tag <;> exact ⟨nests, root, reference⟩
  · intro reads
    obtain ⟨made, read⟩ : ∃ made, (d.afterRoot content).readPart (d.inside content) token
        (tagName content) (Attributes.of content) isEmpty = .ok made := by
      refine part.2 ?_
      obtain rfl | rfl := tag <;> exact reads.reference
    refine ⟨_, made, ?_, ?_, read, rfl⟩
    · obtain rfl | rfl := tag <;> exact reads.nests
    · obtain rfl | rfl := tag <;> exact reads.root

/-- The tokens that can be read are those that meet all three conditions. -/
theorem step_succeeds_iff (d : Draft) (token : Token) :
    (∃ d' part, d.step token = .ok (d', part)) ↔ d.Reads token := by
  cases token with
  | opening content => exact readTag_succeeds_iff d _ content false (.inl rfl)
  | emptyTag content => exact readTag_succeeds_iff d _ content true (.inr rfl)
  | closing name space =>
    have reads : d.Reads (.closing name space) ↔ d.Nests (.closing name space) :=
      ⟨fun reads => reads.nests, fun nests => ⟨nests, trivial, trivial⟩⟩
    rw [reads, Nests, step]
    cases opened : d.openElements with
    | nil => simp
    | cons element outer =>
      by_cases same : element.1 = name <;> simp [same]
  | documentType _ _ _ => exact iff_of_true ⟨_, _, rfl⟩ ⟨trivial, trivial, trivial⟩
  | text _ | comment _ | literal _ | instruction _ =>
    exact iff_of_true ⟨_, _, rfl⟩ ⟨trivial, trivial, trivial⟩

/-! ## Documents -/

/-- The tokens of a document, each with what is known before it. -/
def contexts (d : Draft) : List Token → List (Draft × Token)
  | [] => []
  | token :: tokens => (d, token) :: contexts (d.after token) tokens

/-- Some tokens are read when each of them is where it stands. -/
theorem read_eq_ok_iff (d d' : Draft) (tokens : List Token) :
    (d.read tokens).2 = .ok d' ↔
      (∀ p ∈ d.contexts tokens, p.1.Reads p.2) ∧ d' = tokens.foldl after d := by
  induction tokens generalizing d with
  | nil => simp [read, contexts, eq_comm (a := d')]
  | cons token tokens ih =>
    have first := step_succeeds_iff d token
    simp only [read, contexts, List.mem_cons, forall_eq_or_imp, List.foldl_cons]
    rw [← first]
    cases stepped : d.step token with
    | error fault => simp
    | ok made =>
      obtain ⟨next, part⟩ := made
      obtain rfl := eq_after_of_step stepped
      simp [ih]

theorem rootSeen_foldl (d : Draft) (tokens : List Token) :
    (tokens.foldl after d).rootSeen = true ↔
      d.rootSeen = true ∨ ∃ token ∈ tokens, token.isTag = true := by
  induction tokens generalizing d with
  | nil => simp
  | cons token tokens ih =>
    rw [List.foldl_cons, ih]
    have step : (d.after token).rootSeen = true ↔ d.rootSeen = true ∨ token.isTag = true := by
      cases token <;> simp [after, afterRoot, Token.isTag] <;> split <;> simp_all
    simp [step, or_assoc]

end Draft

/-- The markup of a document is in order to its end. -/
def Tokenizes (content : Bytes) : Prop :=
  (Scan.of content).isWhole ∧
    ∀ p ∈ Draft.contexts {} (Scan.of content).tokens, p.1.Nests p.2

/-- A document has a root element, which is that of a schema with a readable target namespace if
    any. -/
def HasSchemaRoot (content : Bytes) : Prop :=
  (∃ token ∈ (Scan.of content).tokens, token.isTag) ∧
    ∀ p ∈ Draft.contexts {} (Scan.of content).tokens, p.1.FitsRoot p.2

/-- The attributes of all elements that refer to other schemas are readable. -/
def HasReadableReferences (content : Bytes) : Prop :=
  ∀ p ∈ Draft.contexts {} (Scan.of content).tokens, p.1.FitsReference p.2

/-- An outline comes to a target namespace or to none, and not to a fault, when the document is in
    order. -/
theorem targetNamespace_eq_ok_iff (content : Bytes) (targetNamespace : Option String) :
    (Outline.of content).targetNamespace = .ok targetNamespace ↔
      (Tokenizes content ∧ HasSchemaRoot content ∧ HasReadableReferences content) ∧
        targetNamespace = ((Scan.of content).tokens.foldl Draft.after {}).targetNamespace := by
  have seen := Draft.rootSeen_foldl {} (Scan.of content).tokens
  have reads : (∀ p ∈ Draft.contexts {} (Scan.of content).tokens, p.1.Reads p.2) ↔
      (∀ p ∈ Draft.contexts {} (Scan.of content).tokens, p.1.Nests p.2) ∧
      (∀ p ∈ Draft.contexts {} (Scan.of content).tokens, p.1.FitsRoot p.2) ∧
      ∀ p ∈ Draft.contexts {} (Scan.of content).tokens, p.1.FitsReference p.2 :=
    ⟨fun all => ⟨fun p member => (all p member).nests, fun p member => (all p member).root,
      fun p member => (all p member).reference⟩,
      fun ⟨nests, root, reference⟩ p member =>
        ⟨nests p member, root p member, reference p member⟩⟩
  have concluded : (Outline.of content).targetNamespace = .ok targetNamespace ↔
      (∀ p ∈ Draft.contexts {} (Scan.of content).tokens, p.1.Reads p.2) ∧
        conclude (Scan.of content).isWhole ((Scan.of content).tokens.foldl Draft.after {}) =
          .ok targetNamespace := by
    refine (bind_eq_ok_iff (x := (Draft.read {} (Scan.of content).tokens).2)).trans ?_
    simp only [Draft.read_eq_ok_iff]
    constructor
    · rintro ⟨_, ⟨reads, rfl⟩, made⟩; exact ⟨reads, made⟩
    · rintro ⟨reads, made⟩; exact ⟨_, ⟨reads, rfl⟩, made⟩
  have whole (d : Draft) : conclude (Scan.of content).isWhole d = .ok targetNamespace ↔
      (Scan.of content).isWhole = true ∧ d.rootSeen = true ∧ targetNamespace = d.targetNamespace := by
    unfold conclude
    cases (Scan.of content).isWhole <;> cases d.rootSeen <;> simp [eq_comm (a := targetNamespace)]
  rw [concluded, whole, seen, reads]
  unfold Tokenizes HasSchemaRoot HasReadableReferences
  simp only [Bool.false_eq_true, false_or]
  constructor
  · rintro ⟨⟨nests, root, reference⟩, all, tag, same⟩
    exact ⟨⟨⟨all, nests⟩, ⟨tag, root⟩, reference⟩, same⟩
  · rintro ⟨⟨⟨all, nests⟩, ⟨tag, root⟩, reference⟩, same⟩
    exact ⟨⟨nests, root, reference⟩, all, tag, same⟩

end MessageConformance.Schema
