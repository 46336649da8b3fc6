import MessageConformance.Proofs.Results
import MessageConformance.Proofs.Schema.Bundles
import MessageConformance.Proofs.Schema.GeneratedSchemas
import MessageConformance.Proofs.Schema.Rereading

/-!
# Catalogs that refer to themselves

Once a document is read back, the locations that its references hold are addresses of catalog
documents (`holdsAddresses_of_readsBack`). Those of a wrapper document always are
(`holdsAddresses_writeSchema`). So a catalog refers to nothing outside if all documents it is made
of are sturdy, and a document is read back exactly if it is (`readsBack_iff_isSturdy`).
-/

namespace MessageConformance.Schema

open Bytes

/-- The locations that the references of a text hold are addresses of catalog documents. -/
def HoldsAddresses (text : Bytes) : Prop :=
  ∀ p ∈ Draft.contexts {} (Scan.of text).tokens, ∀ content isEmpty,
    p.2 = .tag content isEmpty → p.1.IsReferenceTag content →
      ∀ a ∈ (Attributes.of content).list, a.name = locationName →
        ∃ l, expand? predefinedEntities a.value = some (address l)

/-! ## Stored documents -/

variable {store : Store} {d : Resource}

theorem Token.eq_tag_of_copy {token : Token} {content : Bytes} {isEmpty : Bool}
    (same : token.copy = tag content isEmpty) : token = tag content isEmpty := by
  cases token <;> cases isEmpty <;> simp_all [copy, tag]

/-- In a readable tag that refers to other schemas each location is one the document means. -/
theorem Draft.Reads.locates {d : Draft} {content : Bytes} {isEmpty : Bool}
    (reads : d.Reads (.tag content isEmpty)) (refers : d.IsReferenceTag content) {a : Attribute}
    (listed : a ∈ (Attributes.of content).list) (named : a.name = locationName) :
    ∃ target, d.Locates content target := by
  have readable : (expand? d.entities a.value).isSome := by
    have fits := reads.reference
    cases isEmpty <;> exact (fits refers).2 a listed named
  obtain ⟨target, expanded⟩ := Option.isSome_iff_exists.1 readable
  exact ⟨target, refers, a, listed, named, expanded⟩

theorem holdsAddresses_of_readsBack {text : Bytes} (readable : IsReadable d.content)
    (back : ReadsBack store d text) : HoldsAddresses text := by
  intro q member content isEmpty shape refers a listed named
  obtain ⟨p, place, here, as⟩ :=
    exists_of_forall₂ (contexts_of_readsAs readable.reads back.tokens) member
  rw [shape] at as
  rw [here] at refers
  have reads := readable.reads p place
  generalize again : Token.tag content isEmpty = token at as
  cases as with
  | @copied d token elsewhere =>
    obtain rfl := Token.eq_tag_of_copy again.symm
    obtain ⟨target, located⟩ := reads.locates refers listed named
    exact absurd located (elsewhere _ _ _ rfl)
  | relocated located relocates =>
    obtain ⟨rfl, rfl⟩ := Token.tag_inj again
    have held : expand? predefinedEntities a.value ∈
        ((Attributes.of content).list.filter (·.name = locationName)).map
          fun a => expand? predefinedEntities a.value :=
      List.mem_map_of_mem (List.mem_filter.2 ⟨listed, by simpa using named⟩)
    rw [relocates.location] at held
    obtain ⟨l, -, same⟩ := List.mem_map.1 held
    exact ⟨l, same.symm⟩

/-! ## Catalogs -/

theorem holdsAddresses_writeSchema (targetNamespace : Option String) (links : List Link) :
    HoldsAddresses (writeSchema targetNamespace links) := by
  intro p member content isEmpty shape refers a listed named
  have place : p.2 ∈ schemaTokens targetNamespace links := by
    have places := List.mem_map_of_mem (f := (·.2)) member
    rwa [Draft.map_contexts, scan_writeSchema] at places
  rw [shape] at place
  obtain root | ⟨link, -, same⟩ | closing := mem_schemaTokens_iff.1 place
  · -- A root tag refers to nothing.
    obtain ⟨rfl, rfl⟩ := Token.tag_inj root
    have kind := refers.2
    rw [tagName_tagContent (forall_mem_of_all (by decide))] at kind
    simp [show referenceKind? (localName (ascii "xs:schema")) = none by decide] at kind
  · obtain ⟨rfl, rfl⟩ := Token.tag_inj same
    rw [Link.attributes_tagContent] at listed
    obtain ⟨uri, rfl⟩ | ⟨l, rfl⟩ := Link.mem_attributes listed
    · exact absurd named (show ascii "namespace" ≠ locationName by decide)
    · exact ⟨l, expand?_escapeText _⟩
  · cases isEmpty <;> simp [Token.tag] at closing

theorem mem_put {α β : Type} [DecidableEq α] {key : α} {value : β} {entries : List (α × β)}
    {entry : α × β} (member : entry ∈ Store.put key value entries) :
    entry = (key, value) ∨ entry ∈ entries := by
  induction entries with
  | nil => exact .inl (List.mem_singleton.1 member)
  | cons first rest ih =>
    rw [Store.put] at member
    split at member
    · exact (List.mem_cons.1 member).imp_right (List.mem_cons_of_mem _)
    · obtain rfl | later := List.mem_cons.1 member
      · exact .inr (List.mem_cons_self ..)
      · exact (ih later).imp_right (List.mem_cons_of_mem _)

theorem mem_documents_withWrappers {catalog : Catalog} {position : Nat} {groups : List Group}
    {entry : Location × Bytes} (member : entry ∈ (catalog.withWrappers position groups).documents) :
    entry ∈ catalog.documents ∨ ∃ group ∈ groups, group.wrapper? = some entry.2 := by
  induction groups generalizing catalog position with
  | nil => exact .inl member
  | cons group groups ih =>
    obtain earlier | ⟨group', listed, wrapped⟩ := ih member
    · rw [Catalog.withWrapper] at earlier
      cases wrapped : group.wrapper? with
      | none =>
        rw [wrapped] at earlier
        exact .inl earlier
      | some content =>
        rw [wrapped] at earlier
        obtain rfl | earlier := mem_put earlier
        · exact .inr ⟨group, List.mem_cons_self .., wrapped⟩
        · exact .inl earlier
    · exact .inr ⟨group', List.mem_cons_of_mem _ listed, wrapped⟩

/-- The catalog of a group holds what is stored of the closure, and wrapper documents. -/
theorem stored_or_wrapper {paths : List String} {bundle : Bundle}
    (made : (Bundle.load store paths).outcome = .ok bundle) {entry : Location × Bytes}
    (member : entry ∈ bundle.catalog.documents) :
    (∃ d : Resource, d.IsIn store ∧ InClosure store paths d.location ∧ Scans store d ∧
      entry.2 = stored store d) ∨
    ∃ targetNamespace links, entry.2 = writeSchema targetNamespace links := by
  obtain ⟨-, loaded, members, scans, -, rfl⟩ := (outcome_load_eq_ok_iff store paths bundle).1 made
  obtain closure | ⟨group, -, wrapped⟩ := mem_documents_withWrappers member
  · obtain ⟨d, listed, rfl⟩ := List.mem_map.1 closure
    obtain ⟨isIn, inside⟩ := (mem_order_start_iff members d).1 listed
    exact .inl ⟨d, isIn, inside, scans d listed, rfl⟩
  · obtain ⟨-, uri, -, written⟩ := (group.wrapper?_eq_some_iff entry.2).1 wrapped
    exact .inr ⟨_, _, written⟩

/-- An accepted document is read back exactly if it is sturdy. If all documents of a group are,
    then no reference in its catalog holds a location that is not a catalog address. -/
theorem readsBack_iff_isSturdy (store : Store) :
    (∀ d rewritten, (rewrite store d).outcome = .ok rewritten →
      (ReadsBack store d rewritten.content ↔ IsSturdy d.content)) ∧
    ∀ paths bundle, (Bundle.load store paths).outcome = .ok bundle →
      (∀ d : Resource, d.IsIn store → InClosure store paths d.location → IsSturdy d.content) →
      ∀ entry ∈ bundle.catalog.documents, HoldsAddresses entry.2 := by
  constructor
  · intro d rewritten made
    have readable := isReadable_of_outcome_rewrite made
    obtain ⟨-, rfl⟩ := (outcome_rewrite_eq_ok_iff d rewritten).1 made
    exact ⟨isSturdy_of_readsBack readable, readsBack_of_isSturdy readable⟩
  · intro paths bundle made sturdy entry member
    obtain ⟨d, isIn, inside, scans, same⟩ | ⟨targetNamespace, links, same⟩ :=
      stored_or_wrapper made member
    · rw [same]
      exact holdsAddresses_of_readsBack scans.isReadable
        (readsBack_of_isSturdy scans.isReadable (sturdy d isIn inside))
    · rw [same]
      exact holdsAddresses_writeSchema targetNamespace links

/-! ## Two documents -/

instance (r : Reference) : Decidable r.IsSturdy :=
  decidable_of_iff (r.name.text?.isSome = true ∧ (∀ a ∈ r.attributes, byte '"' ∉ a.value) ∧
      Scanner.quoteAfterAll? none (tagContent r.name r.attributes) = some none)
    ⟨fun ⟨encoded, unquoted, closed⟩ => ⟨encoded, unquoted, closed⟩,
      fun sturdy => ⟨sturdy.encoded, sturdy.unquoted, sturdy.closed⟩⟩

/-- The reference that a part is. -/
def Part.reference? : Part → Option Reference
  | .copied _ => none
  | .reference r => some r

theorem Part.reference?_eq_some_iff (part : Part) (r : Reference) :
    part.reference? = some r ↔ part = .reference r := by
  cases part <;> simp [reference?]

instance (content : Bytes) : Decidable (IsSturdy content) :=
  decidable_of_iff (dropMark (dropMark content) = dropMark content ∧
      ∀ part ∈ (Outline.of content).parts, ∀ r ∈ part.reference?, r.IsSturdy)
    ⟨fun ⟨unmarked, references⟩ => ⟨unmarked, fun r listed => references _ listed r rfl⟩,
      fun ⟨unmarked, references⟩ => ⟨unmarked, fun part listed r read =>
        references r ((part.reference?_eq_some_iff r).1 read ▸ listed)⟩⟩

/-- A schema with an include that is found and an import that is not, their attributes in single
    quotation marks. -/
def apostropheDocument : Resource where
  location := ⟨["outer.xsd"], by decide, by decide⟩
  content :=
    ascii "<xs:schema xmlns:xs='http://www.w3.org/2001/XMLSchema'><!-- <> -->" ++
      ascii "<xs:include id='x' schemaLocation='inner.xsd' />" ++
      ascii "<xs:import schemaLocation='&#x61;'/></xs:schema >"

/-- A schema that holds nothing. -/
def includedDocument : Resource := ⟨⟨["inner.xsd"], by decide, by decide⟩, writeSchema none []⟩

def apostropheStore : Store where
  documents := [apostropheDocument, includedDocument].map fun d => (d.location, d.content)
  distinct := by decide

theorem isSturdy_apostropheDocument : IsSturdy apostropheDocument.content := by decide +kernel

theorem isSturdy_of_isIn_apostropheStore {d : Resource} (isIn : d.IsIn apostropheStore) :
    IsSturdy d.content := by
  have place : d.location = apostropheDocument.location ∨
      d.location = includedDocument.location := by
    simpa [apostropheStore] using Store.mem_documents_of_document? isIn
  obtain first | second := place
  · obtain rfl := isIn.eq_of_location (s := apostropheDocument) rfl first
    exact isSturdy_apostropheDocument
  · obtain rfl := isIn.eq_of_location (s := includedDocument) rfl second
    decide +kernel

/-- Documents in single quotation marks are read back, and their catalog refers to itself. -/
theorem readsBack_apostropheDocument :
    (∃ rewritten, (rewrite apostropheStore apostropheDocument).outcome = .ok rewritten ∧
      ReadsBack apostropheStore apostropheDocument rewritten.content) ∧
    ∃ bundle, (Bundle.load apostropheStore ["outer.xsd"]).outcome = .ok bundle ∧
      ∀ entry ∈ bundle.catalog.documents, HoldsAddresses entry.2 := by
  have rewrites : (rewrite apostropheStore apostropheDocument).outcome.isOk = true := by
    decide +kernel
  have loads : (Bundle.load apostropheStore ["outer.xsd"]).outcome.isOk = true := by decide +kernel
  obtain ⟨rewritten, made⟩ := isOk_iff.1 rewrites
  obtain ⟨bundle, loaded⟩ := isOk_iff.1 loads
  obtain ⟨reads, refers⟩ := readsBack_iff_isSturdy apostropheStore
  refine ⟨⟨rewritten, made, ?_⟩, bundle, loaded, ?_⟩
  · exact (reads _ rewritten made).2 isSturdy_apostropheDocument
  · exact refers _ bundle loaded fun d isIn _ => isSturdy_of_isIn_apostropheStore isIn

/-- A schema with an import of a namespace that has a quotation mark. -/
def quotedDocument : Resource where
  location := ⟨["quoted.xsd"], by decide, by decide⟩
  content :=
    ascii "<xs:schema xmlns:xs=\"http://www.w3.org/2001/XMLSchema\">" ++
      ascii "<xs:import namespace='x\" schemaLocation=\"/outside.xsd'" ++
      ascii " schemaLocation='nowhere.xsd'/></xs:schema>"

def quotedStore : Store where
  documents := [(quotedDocument.location, quotedDocument.content)]
  distinct := by decide

/-- The content of the tag that the import is stored as. -/
def quotedImport : Bytes :=
  ascii "xs:import namespace=\"x\" schemaLocation=\"/outside.xsd\""

/-- What is stored of the schema. -/
def quotedContent : Bytes :=
  ascii "<xs:schema xmlns:xs=\"http://www.w3.org/2001/XMLSchema\"><" ++ quotedImport ++
    ascii "/></xs:schema>"

theorem not_holdsAddresses_quotedContent : ¬ HoldsAddresses quotedContent := by
  intro holds
  have scanned : (Scan.of quotedContent).tokens =
      [.opening (ascii "xs:schema xmlns:xs=\"http://www.w3.org/2001/XMLSchema\""),
        .emptyTag quotedImport, .closing (ascii "xs:schema") []] := by decide +kernel
  rw [HoldsAddresses, scanned] at holds
  obtain ⟨l, held⟩ := holds _ (List.mem_cons_of_mem _ (List.mem_cons_self ..)) quotedImport true rfl
    ⟨by decide +kernel, by decide +kernel⟩ ⟨locationName, ascii "/outside.xsd"⟩ (by decide +kernel)
    rfl
  have expanded : expand? predefinedEntities (ascii "/outside.xsd") =
      some "/outside.xsd" := by decide +kernel
  rw [expanded] at held
  have same := congrArg String.toList (Option.some.inj held)
  simp [address, addressStart, String.toList_append] at same

/-- A quotation mark in the namespace of an unresolved import gives it another location: it is
    accepted, but not read back, and its catalog refers to a location outside. -/
theorem stores_another_location :
    (∃ rewritten, (rewrite quotedStore quotedDocument).outcome = .ok rewritten ∧
      rewritten.content = quotedContent ∧
      ¬ ReadsBack quotedStore quotedDocument rewritten.content) ∧
    ∃ bundle, (Bundle.load quotedStore ["quoted.xsd"]).outcome = .ok bundle ∧
      bundle.catalog.documents = [(quotedDocument.location, quotedContent)] ∧
      ¬ HoldsAddresses quotedContent := by
  have rewrites : (rewrite quotedStore quotedDocument).outcome.map (·.content) =
      .ok quotedContent := by decide +kernel
  have loads : (Bundle.load quotedStore ["quoted.xsd"]).outcome.map (·.catalog.documents) =
      .ok [(quotedDocument.location, quotedContent)] := by decide +kernel
  obtain ⟨rewritten, made, content⟩ := map_eq_ok_iff.1 rewrites
  obtain ⟨bundle, loaded, documents⟩ := map_eq_ok_iff.1 loads
  refine ⟨⟨rewritten, made, content, fun back => not_holdsAddresses_quotedContent ?_⟩,
    bundle, loaded, documents, not_holdsAddresses_quotedContent⟩
  rw [← content]
  exact holdsAddresses_of_readsBack (isReadable_of_outcome_rewrite made) back

end MessageConformance.Schema
