import MessageConformance.Proofs.Schema.Stored
import MessageConformance.Proofs.Schema.NulFree
import MessageConformance.Proofs.Schema.WrittenTags

/-!
# Relocated references

A stored document has the tokens of the document, but for the tags of its references
(`IsReadable.stored_eq_sources`). These have another location, and all other attributes again
(`Relocates`); they are read so if the reference is sturdy (`Reference.IsSturdy`).
-/

namespace MessageConformance.Schema

open Bytes

/-! ## Tags that hold a location -/

/-- The tag of an element that refers to other schemas holds a location, which the document means
    as this one. -/
def Draft.Locates (d : Draft) (content : Bytes) (target : String) : Prop :=
  d.IsReferenceTag content ∧
    ∃ a ∈ (Attributes.of content).list, a.name = locationName ∧
      expand? d.entities a.value = some target

/-- The location that a reference of a document stands for. -/
def foundFor (store : Store) (base : Location) (target : String) : Option Location :=
  (Resolver.resolve store target (some base)).value.map (·.location)

/-- A tag has the name and the attributes of another one, but for the location: this is the address
    of what was found, and missing if nothing was. -/
structure Relocates (found : Option Location) (content again : Bytes) : Prop where
  name : tagName again = tagName content
  sound : (Attributes.of again).areSound = true
  others : (Attributes.of again).list.filter (·.name ≠ locationName) =
    (Attributes.of content).list.filter (·.name ≠ locationName)
  location : ((Attributes.of again).list.filter (·.name = locationName)).map
      (fun a => expand? predefinedEntities a.value) =
    found.toList.map fun l => some (address l)

/-- A token does not hold a location. -/
def Draft.LocatesNothing (d : Draft) (token : Token) : Prop :=
  ∀ content isEmpty target, token = .tag content isEmpty → ¬ d.Locates content target

/-- The written tag of a reference is read back. -/
structure Reference.IsSturdy (r : Reference) : Prop where
  encoded : r.name.text?.isSome = true
  unquoted : ∀ a ∈ r.attributes, byte '"' ∉ a.value
  closed : Scanner.quoteAfterAll? none (tagContent r.name r.attributes) = some none

/-! ## Parts of a document -/

namespace Draft

/-- The part that a token is read as. -/
def partOf (d : Draft) (token : Token) : Part :=
  match d.step token with
  | .ok (_, part) => part
  | .error _ => .copied token

variable {d : Draft}

theorem entities_afterRoot (d : Draft) (content : Bytes) :
    (d.afterRoot content).entities = d.entities := by
  unfold afterRoot
  split <;> rfl

/-- How a tag is read. -/
inductive ReadsTag (d : Draft) (content : Bytes) (isEmpty : Bool) : Part → Prop
  | copied (elsewhere : ∀ target, ¬ d.Locates content target) :
      ReadsTag d content isEmpty (.copied (.tag content isEmpty))
  | reference {kind : ReferenceKind} {target : String} (located : d.Locates content target)
      (seen : d.rootSeen = true) (sound : (Attributes.of content).areSound = true)
      (named : referenceKind? (localName (tagName content)) = some kind) :
      ReadsTag d content isEmpty (.reference ⟨kind, tagName content,
        (Attributes.of content).list.filter (·.name ≠ locationName), target, isEmpty⟩)

theorem readsTag_of_readPart {content : Bytes} {isEmpty : Bool} {part : Part}
    (made : (d.afterRoot content).readPart (d.inside content) (.tag content isEmpty)
      (tagName content) (Attributes.of content) isEmpty = .ok part)
    (seen : ∀ r, part = .reference r → d.rootSeen = true) : d.ReadsTag content isEmpty part := by
  unfold readPart at made
  rw [entities_afterRoot] at made
  by_cases schema : isSchemaName (d.inside content) (tagName content) = true
  · simp only [schema, ↓reduceIte] at made
    cases named : referenceKind? (localName (tagName content)) with
    | none =>
      simp only [named, Except.ok.injEq] at made
      subst made
      refine .copied fun target located => ?_
      have kind := located.1.2
      simp [named] at kind
    | some kind =>
      simp only [named] at made
      split at made
      · simp at made
      · next sound =>
        have sound : (Attributes.of content).areSound = true := by simpa using sound
        split at made
        · next absent =>
          obtain rfl := Except.ok.inj made
          refine .copied fun target located => ?_
          obtain ⟨-, a, listed, location, -⟩ := located
          exact absurd location (by simpa using List.find?_eq_none.1 absent a listed)
        · next location found =>
          split at made
          · simp at made
          · next target expanded =>
            obtain rfl := Except.ok.inj made
            have isLocation : location.name = locationName := by simpa using List.find?_some found
            have located : d.Locates content target := ⟨⟨schema, by simp [named]⟩, location,
              List.mem_of_find?_eq_some found, isLocation, expanded⟩
            exact .reference located (seen _ rfl) sound named
  · simp only [schema, Bool.false_eq_true, ↓reduceIte, Except.ok.injEq] at made
    subst made
    exact .copied fun target located => schema located.1.1

theorem readsTag_partOf {content : Bytes} {isEmpty : Bool}
    (reads : d.Reads (.tag content isEmpty)) :
    d.ReadsTag content isEmpty (d.partOf (.tag content isEmpty)) := by
  obtain ⟨d', part, made⟩ := (step_succeeds_iff d _).2 reads
  have read : d.readTag (.tag content isEmpty) content isEmpty = .ok (d', part) := by
    cases isEmpty <;> exact made
  have same : d.partOf (.tag content isEmpty) = part := by simp [partOf, made]
  rw [same]
  refine readsTag_of_readPart ((readTag_eq_ok_iff d d' _ content isEmpty part).1 read).2.2.1 ?_
  rintro r rfl
  cases seen : d.rootSeen with
  | true => rfl
  | false => exact absurd (eq_copied_of_root read seen) (by simp)

theorem partOf_of_not_isTag {token : Token} (other : token.isTag = false) :
    d.partOf token = .copied token := by
  cases token with
  | opening content => simp [Token.isTag] at other
  | emptyTag content => simp [Token.isTag] at other
  | closing name space =>
    cases opened : d.openElements with
    | nil => simp [partOf, step, opened]
    | cons element outer =>
      by_cases same : element.1 = name <;> simp [partOf, step, opened, same]
  | _ => rfl

/-- The parts of some tokens that can be read. -/
theorem read_eq_map {tokens : List Token} (reads : ∀ p ∈ d.contexts tokens, p.1.Reads p.2) :
    (d.read tokens).1 = (d.contexts tokens).map fun p => p.1.partOf p.2 := by
  induction tokens generalizing d with
  | nil => rfl
  | cons token tokens ih =>
    rw [contexts, List.forall_mem_cons] at reads
    obtain ⟨d', part, made⟩ := (step_succeeds_iff d token).2 reads.1
    obtain rfl := eq_after_of_step made
    have here : d.partOf token = part := by simp [partOf, made]
    simp only [read, made, contexts, List.map_cons, here, ih reads.2]

end Draft

/-! ## What is stored -/

/-- The attribute of a location, if there is one. -/
def locationOf (found : Option Location) : List Attribute :=
  found.toList.map fun l => .ofText locationName (address l)

/-- What is written in the tag of a reference, given the location it leads to. -/
def Reference.content (r : Reference) (found : Option Location) : Bytes :=
  tagContent (ofText (lossyText r.name)) (r.attributes ++ locationOf found)

/-- The token that a part is stored as. -/
def Part.token (store : Store) (base : Location) : Part → Token
  | .copied token => token.copy
  | .reference r => .tag (r.content (foundFor store base r.target)) r.isEmpty

theorem Part.source_token (store : Store) (base : Location) (part : Part) :
    (part.token store base).source = part.stored store base := by
  cases part with
  | copied token => exact token.source_copy
  | reference r => exact (writeTag_eq _ _ _).symm

/-- The tokens that a document is stored as. -/
def storedTokens (store : Store) (d : Resource) : List Token :=
  (Draft.contexts {} (Scan.of d.content).tokens).map fun p =>
    (p.1.partOf p.2).token store d.location

variable {store : Store} {d : Resource}

/-- A document is scanned to its end, and all its tokens can be read where they stand. -/
structure IsReadable (content : Bytes) : Prop where
  isWhole : (Scan.of content).isWhole = true
  reads : ∀ p ∈ Draft.contexts {} (Scan.of content).tokens, p.1.Reads p.2

theorem Scans.isReadable (scans : Scans store d) : IsReadable d.content where
  isWhole := scans.tokenizes.1
  reads p member :=
    ⟨scans.tokenizes.2 p member, scans.root.2 p member, scans.references p member⟩

theorem isReadable_of_outcome_rewrite {rewritten : Rewritten}
    (made : (rewrite store d).outcome = .ok rewritten) : IsReadable d.content := by
  obtain ⟨⟨⟨tokenizes, root, references⟩, -⟩, -⟩ := (outcome_rewrite_eq_ok_iff d rewritten).1 made
  exact ⟨tokenizes.1, fun p member =>
    ⟨tokenizes.2 p member, root.2 p member, references p member⟩⟩

theorem IsReadable.parts (readable : IsReadable d.content) :
    (Outline.of d.content).parts =
      (Draft.contexts {} (Scan.of d.content).tokens).map fun p => p.1.partOf p.2 :=
  Draft.read_eq_map readable.reads

theorem IsReadable.stored_eq_sources (readable : IsReadable d.content) :
    stored store d = (storedTokens store d).flatMap Token.source := by
  rw [stored, readable.parts, storedTokens, ← List.flatMap_def, List.flatMap_map,
    List.flatMap_map]
  simp only [Part.source_token]

/-! ## References that are read back -/

section

variable {content : Bytes} {r : Reference}

/-- The name of an element that refers to other schemas ends with a letter. -/
theorem last_of_referenceKind? {name : Bytes} {kind : ReferenceKind}
    (named : referenceKind? (localName name) = some kind) :
    name ≠ [] ∧ ∀ b ∈ name.getLast?, b ≠ byte '/' := by
  have local_ : localName name ∈ [ascii "import", ascii "include", ascii "redefine"] := by
    unfold referenceKind? at named
    split_ifs at named <;> simp_all
  have suffix : localName name <:+ name := by
    unfold localName
    split
    · exact (List.drop_suffix 1 _).trans (List.dropWhile_suffix _)
    · exact List.suffix_refl _
  obtain ⟨before, shape⟩ := suffix
  rw [← shape]
  simp only [List.mem_cons, List.not_mem_nil, or_false] at local_
  obtain same | same | same := local_ <;> rw [same] <;>
    refine ⟨by simp [ascii], fun b last => ?_⟩ <;>
    simp [ascii, List.getLast?_append] at last <;> subst last <;> decide

theorem ofText_lossyText {name : Bytes} (encoded : name.text?.isSome = true) :
    ofText (lossyText name) = name := by
  obtain ⟨text, read⟩ := Option.isSome_iff_exists.1 encoded
  rw [lossyText, read]
  exact ofText_of_text? read

theorem solid_tagName (content : Bytes) : ∀ b ∈ tagName content, isSpace b = false := by
  intro b member
  simpa using List.all_eq_true.1 List.all_takeWhile b member

theorem beginsTag_tagName {content after : Bytes} (begins : BeginsTag (content ++ after))
    (nonempty : tagName content ≠ []) : BeginsTag (tagName content) := by
  intro b head
  refine begins b ?_
  cases content with
  | nil => exact absurd rfl nonempty
  | cons c content =>
    unfold tagName at head nonempty
    by_cases space : isSpace c = true
    · simp [space] at nonempty
    · simpa [space] using head

/-- Bindings do not depend on locations. -/
theorem foldlM_bind?_filter (scope : Scope) (attributes : List Attribute) :
    (attributes.filter (·.name ≠ locationName)).foldlM bind? scope =
      attributes.foldlM bind? scope := by
  induction attributes generalizing scope with
  | nil => rfl
  | cons a attributes ih =>
    by_cases location : a.name = locationName
    · have unbound : bind? scope a = some scope := by
        have free : boundLabel? locationName = none := by decide
        simp [bind?, location, free]
      simpa [location, unbound] using ih scope
    · rw [List.filter_cons_of_pos (by simpa using location), List.foldlM_cons, List.foldlM_cons]
      cases bind? scope a with
      | none => rfl
      | some scope => exact ih scope

/-- A reference is made of a tag. -/
structure Reference.IsFrom (r : Reference) (content : Bytes) : Prop where
  name : r.name = tagName content
  attributes : r.attributes = (Attributes.of content).list.filter (·.name ≠ locationName)
  sound : (Attributes.of content).areSound = true
  named : (referenceKind? (localName r.name)).isSome = true

theorem Draft.ReadsTag.isFrom {d : Draft} {isEmpty : Bool}
    (read : d.ReadsTag content isEmpty (.reference r)) : r.IsFrom content := by
  cases read with
  | reference located seen sound named => exact ⟨rfl, rfl, sound, by simp [named]⟩

theorem name_of_mem_locationOf {found : Option Location} {a : Attribute}
    (member : a ∈ locationOf found) :
    a.name = locationName ∧ byte '"' ∉ a.value ∧
      ∃ l, found = some l ∧ expand? predefinedEntities a.value = some (address l) := by
  obtain ⟨l, listed, rfl⟩ := List.mem_map.1 member
  refine ⟨rfl, not_mem_ofText_escapeText (by simp) _, l, ?_, expand?_escapeText _⟩
  simpa using listed

namespace Reference.IsFrom

variable {found : Option Location}

theorem location_not_mem (from_ : r.IsFrom content) :
    ∀ a ∈ r.attributes, a.name ≠ locationName := by
  rw [from_.attributes]
  intro a member
  simpa using (List.mem_filter.1 member).2

theorem named_attributes (from_ : r.IsFrom content) :
    ∀ a ∈ r.attributes ++ locationOf found, IsAttributeName a.name := by
  intro a member
  obtain kept | location := List.mem_append.1 member
  · rw [from_.attributes] at kept
    exact isAttributeName_of_mem (List.mem_filter.1 kept).1
  · rw [(name_of_mem_locationOf location).1]
    exact isAttributeName_locationName

theorem nodup (from_ : r.IsFrom content) :
    ((r.attributes ++ locationOf found).map (·.name)).Nodup := by
  have kept : (r.attributes.map (·.name)).Nodup := by
    have both := from_.sound
    simp only [Attributes.areSound, Bool.and_eq_true, decide_eq_true_eq] at both
    rw [from_.attributes]
    exact both.2.sublist (List.filter_sublist.map _)
  rw [List.map_append, List.nodup_append]
  refine ⟨kept, ?_, ?_⟩
  · cases found <;> simp [locationOf]
  · intro name first name' second
    obtain ⟨a, member, rfl⟩ := List.mem_map.1 first
    obtain ⟨a', member', rfl⟩ := List.mem_map.1 second
    rw [(name_of_mem_locationOf member').1]
    exact from_.location_not_mem a member

theorem filter_others (from_ : r.IsFrom content) :
    (r.attributes ++ locationOf found).filter (·.name ≠ locationName) = r.attributes := by
  rw [List.filter_append, List.filter_eq_self.2, List.filter_eq_nil_iff.2, List.append_nil]
  · intro a member
    simpa using (name_of_mem_locationOf member).1
  · intro a member
    simpa using from_.location_not_mem a member

theorem filter_location (from_ : r.IsFrom content) :
    (r.attributes ++ locationOf found).filter (·.name = locationName) = locationOf found := by
  rw [List.filter_append, List.filter_eq_nil_iff.2, List.filter_eq_self.2, List.nil_append]
  · intro a member
    simpa using (name_of_mem_locationOf member).1
  · intro a member
    simpa using from_.location_not_mem a member

/-- The tag of a sturdy reference is read back. -/
theorem of_content (from_ : r.IsFrom content) (sturdy : r.IsSturdy) :
    tagName (r.content found) = r.name ∧
      Attributes.of (r.content found) = ⟨r.attributes ++ locationOf found, true⟩ := by
  have solid : ∀ b ∈ r.name, isSpace b = false := by
    rw [from_.name]
    exact solid_tagName content
  rw [Reference.content, ofText_lossyText sturdy.encoded]
  refine ⟨tagName_tagContent solid _, of_tagContent solid from_.named_attributes fun a member => ?_⟩
  obtain kept | location := List.mem_append.1 member
  · exact sturdy.unquoted a kept
  · exact (name_of_mem_locationOf location).2.1

theorem relocates (from_ : r.IsFrom content) (sturdy : r.IsSturdy) :
    Relocates found content (r.content found) := by
  obtain ⟨name, read⟩ : tagName (r.content found) = r.name ∧ _ := from_.of_content sturdy
  constructor
  · rw [name, from_.name]
  · rw [read]
    simpa [Attributes.areSound] using from_.nodup
  · rw [read, from_.filter_others, from_.attributes]
  · rw [read, from_.filter_location]
    simp [locationOf, Attribute.ofText, expand?_escapeText]

theorem closed_iff (name : Bytes) (attributes : List Attribute) (found : Option Location) :
    Scanner.quoteAfterAll? none (tagContent name (attributes ++ locationOf found)) = some none ↔
      Scanner.quoteAfterAll? none (tagContent name attributes) = some none := by
  rw [quoteAfterAll?_tagContent_append fun a member => ?_]
  obtain ⟨l, -, rfl⟩ := List.mem_map.1 member
  exact Attribute.isPlain_ofText (forall_mem_of_all (by decide)) (address l)

theorem beginsTag_of_isSound {isEmpty : Bool} (sound : (Token.tag content isEmpty).IsSound) :
    ∃ after, BeginsTag (content ++ after) := by
  cases isEmpty with
  | true => exact ⟨_, sound.1⟩
  | false => exact ⟨[], by simpa using sound.1⟩

/-- The tag of a sturdy reference is scanned to itself. -/
theorem isSound_content (from_ : r.IsFrom content) (sturdy : r.IsSturdy) {isEmpty : Bool}
    (sound : (Token.tag content isEmpty).IsSound) :
    (Token.tag (r.content found) isEmpty).IsSound := by
  obtain ⟨kind, named⟩ := Option.isSome_iff_exists.1 from_.named
  obtain ⟨nonempty, unslashed⟩ := last_of_referenceKind? named
  obtain ⟨after, begins⟩ := beginsTag_of_isSound sound
  rw [Reference.content, ofText_lossyText sturdy.encoded]
  refine isSound_tagContent nonempty ?_ unslashed ((closed_iff _ _ _).2 sturdy.closed)
  rw [from_.name] at nonempty ⊢
  exact beginsTag_tagName begins nonempty

end Reference.IsFrom

end

/-! ## How tokens are stored -/

theorem Draft.map_contexts (d : Draft) (tokens : List Token) :
    (d.contexts tokens).map (·.2) = tokens := by
  induction tokens generalizing d with
  | nil => rfl
  | cons token tokens ih => rw [contexts, List.map_cons, ih]

theorem Token.eq_tag_of_isTag {token : Token} (tag : token.isTag = true) :
    ∃ content isEmpty, token = .tag content isEmpty := by
  cases token with
  | opening content => exact ⟨content, false, rfl⟩
  | emptyTag content => exact ⟨content, true, rfl⟩
  | _ => simp [isTag] at tag

/-- How a token is read and stored. -/
inductive Draft.Stores (d : Draft) (token : Token) : Part → Prop
  | copied (elsewhere : d.LocatesNothing token) : Stores d token (.copied token)
  | reference {content : Bytes} {r : Reference} (shape : token = .tag content r.isEmpty)
      (located : d.Locates content r.target) (from_ : r.IsFrom content) :
      Stores d token (.reference r)

theorem Draft.stores_partOf {d : Draft} {token : Token} (reads : d.Reads token) :
    d.Stores token (d.partOf token) := by
  cases tag : token.isTag with
  | false =>
    rw [partOf_of_not_isTag tag]
    refine .copied fun content isEmpty target shape => ?_
    subst shape
    cases isEmpty <;> simp [Token.tag, Token.isTag] at tag
  | true =>
    obtain ⟨content, isEmpty, rfl⟩ := Token.eq_tag_of_isTag tag
    have read := readsTag_partOf reads
    generalize d.partOf (.tag content isEmpty) = part at read
    cases read with
    | copied elsewhere =>
      refine .copied fun content' isEmpty' target same => ?_
      obtain ⟨rfl, rfl⟩ := Token.tag_inj same
      exact elsewhere target
    | reference located seen sound named =>
      exact .reference rfl located (ReadsTag.reference located seen sound named).isFrom

variable {base : Location}

theorem Draft.Stores.isText_token {d : Draft} {token : Token} {part : Part}
    (stores : d.Stores token part) : (part.token store base).isText = token.isText := by
  cases stores with
  | copied => exact token.isText_copy
  | @reference content r shape located from_ =>
    subst shape
    cases empty : r.isEmpty <;> simp [Part.token, Token.tag, empty, Token.isText]

theorem Draft.Stores.isSound_token {d : Draft} {token : Token} {part : Part}
    (stores : d.Stores token part) (sound : token.IsSound)
    (sturdy : ∀ r, part = .reference r → r.IsSturdy) : (part.token store base).IsSound := by
  cases stores with
  | copied => exact sound.copy
  | reference shape located from_ =>
    subst shape
    exact from_.isSound_content (sturdy _ rfl) sound

theorem IsReadable.stores (readable : IsReadable d.content) :
    ∀ p ∈ Draft.contexts {} (Scan.of d.content).tokens, p.1.Stores p.2 (p.1.partOf p.2) :=
  fun p member => Draft.stores_partOf (readable.reads p member)

/-- Texts stand apart in what is stored, as they did. -/
theorem IsReadable.isChain_storedTokens (readable : IsReadable d.content) (store : Store)
    (apart : (Scan.of d.content).tokens.IsChain Token.Apart) :
    (storedTokens store d).IsChain Token.Apart := by
  have onTexts (tokens : List Token) : tokens.IsChain Token.Apart ↔
      (tokens.map Token.isText).IsChain fun text text' => ¬ (text = true ∧ text' = true) := by
    rw [List.isChain_map]
    rfl
  have same : (storedTokens store d).map Token.isText =
      (Scan.of d.content).tokens.map Token.isText := by
    conv_rhs => rw [← Draft.map_contexts {} (Scan.of d.content).tokens]
    rw [storedTokens, List.map_map, List.map_map]
    exact List.map_congr_left fun p member => (readable.stores p member).isText_token
  rw [onTexts, same, ← onTexts]
  exact apart

theorem IsReadable.head?_storedTokens_eq_text_iff (readable : IsReadable d.content)
    (content : Bytes) :
    (storedTokens store d).head? = some (.text content) ↔
      (Scan.of d.content).tokens.head? = some (.text content) := by
  have stores := readable.stores
  unfold storedTokens
  cases all : (Scan.of d.content).tokens with
  | nil => simp [Draft.contexts]
  | cons token tokens =>
    rw [all, Draft.contexts, List.forall_mem_cons] at stores
    replace stores := stores.1
    simp only [Draft.contexts, List.map_cons, List.head?_cons, Option.some.injEq]
    generalize Draft.partOf {} token = part at stores
    cases stores with
    | copied => cases token <;> simp [Part.token, Token.copy]
    | @reference content r shape located from_ =>
      subst shape
      cases empty : r.isEmpty <;> simp [Part.token, Token.tag, empty]

end MessageConformance.Schema
