import MessageConformance.Proofs.Schema.SelfContained

/-!
# What is copied of a document

A stored document is made of one piece for each token of the document, in order. Most pieces are
the bytes of the token (`Draft.Leaves`); `IsStoredAs` lists the three edits that there are. So what
is stored is the document itself if there is nothing to edit (`rewrite_copies`).
-/

namespace MessageConformance.Schema

open Bytes

/-! ## Edits -/

/-- The tag of a reference holds a location. -/
def Draft.Carries (d : Draft) (content : Bytes) : Prop :=
  d.IsReferenceTag content ∧ ∃ a ∈ (Attributes.of content).list, a.name = locationName

/-- There is nothing to edit in a token. -/
def Draft.Leaves (d : Draft) : Token → Prop
  | .opening content | .emptyTag content => ¬ d.Carries content
  | .closing _ space => space = []
  | .documentType keyword space _ => keyword = ascii "DOCTYPE" ∧ space = [byte ' ']
  | _ => True

/-- The bytes that a token of the document at `base` is stored as. -/
inductive IsStoredAs (store : Store) (base : Location) : Draft × Token → Bytes → Prop
  | same {d : Draft} {token : Token} (leaves : d.Leaves token) :
      IsStoredAs store base (d, token) token.source
  /-- An end tag loses the spaces after its name. -/
  | closing {d : Draft} {name space : Bytes} (solid : ∀ b ∈ name, isSpace b = false)
      (spaces : ∀ b ∈ space, isSpace b = true) :
      IsStoredAs store base (d, .closing name space) (ascii "</" ++ name ++ ascii ">")
  /-- A document type gets its keyword in capitals, and one space before its content. -/
  | documentType {d : Draft} {keyword space content : Bytes}
      (word : keyword.map Scanner.capital = ascii "DOCTYPE")
      (spaces : ∀ b ∈ space, isSpace b = true) (solid : ∀ b ∈ content.head?, isSpace b = false) :
      IsStoredAs store base (d, .documentType keyword space content)
        (ascii "<!DOCTYPE " ++ content ++ ascii ">")
  /-- The tag of a reference is written with the location it leads to. -/
  | reference {d : Draft} {content : Bytes} {target : String} {isEmpty : Bool}
      (located : d.Locates content target) :
      IsStoredAs store base (d, .tag content isEmpty)
        (writeTag (ofText (lossyText (tagName content)))
          ((Attributes.of content).list.filter (·.name ≠ locationName) ++
            locationOf (foundFor store base target)) isEmpty)

variable {store : Store} {base : Location}

theorem Draft.Locates.carries {d : Draft} {content : Bytes} {target : String}
    (located : d.Locates content target) : d.Carries content := by
  obtain ⟨refers, a, listed, named, -⟩ := located
  exact ⟨refers, a, listed, named⟩

/-- A token without edits is stored as it is, whichever rule it is stored by. -/
theorem IsStoredAs.eq_source {d : Draft} {token : Token} {piece : Bytes}
    (as : IsStoredAs store base (d, token) piece) (leaves : d.Leaves token) :
    piece = token.source := by
  generalize pair : (d, token) = p at as
  cases as with
  | same =>
    obtain ⟨rfl, rfl⟩ := Prod.mk.inj pair
    rfl
  | closing =>
    obtain ⟨rfl, rfl⟩ := Prod.mk.inj pair
    obtain rfl : _ = [] := leaves
    simp [Token.source, ascii]
  | documentType =>
    obtain ⟨rfl, rfl⟩ := Prod.mk.inj pair
    obtain ⟨rfl, rfl⟩ : _ = _ ∧ _ = _ := leaves
    rfl
  | @reference d content target isEmpty located =>
    obtain ⟨rfl, rfl⟩ := Prod.mk.inj pair
    have carries := located.carries
    cases isEmpty <;> exact absurd carries leaves

/-! ## Names of open elements -/

/-- The names of open elements have no spaces. -/
def Draft.IsSolid (d : Draft) : Prop :=
  ∀ element ∈ d.openElements, ∀ b ∈ element.1, isSpace b = false

theorem Draft.IsSolid.after {d : Draft} (solid : d.IsSolid) (token : Token) :
    (d.after token).IsSolid := by
  have root (content : Bytes) : (d.afterRoot content).IsSolid := by
    unfold afterRoot
    split <;> exact solid
  cases token with
  | opening content =>
    intro element opened
    obtain rfl | opened := List.mem_cons.1 opened
    · exact solid_tagName content
    · exact solid element opened
  | emptyTag content => exact root content
  | closing name space => exact fun element opened => solid element (List.mem_of_mem_tail opened)
  | _ => exact solid

theorem Draft.IsSolid.contexts {d : Draft} (solid : d.IsSolid) (tokens : List Token) :
    ∀ p ∈ d.contexts tokens, p.1.IsSolid := by
  induction tokens generalizing d with
  | nil => simp [Draft.contexts]
  | cons token tokens ih =>
    rw [Draft.contexts, List.forall_mem_cons]
    exact ⟨solid, ih (solid.after token)⟩

/-- The name in an end tag that can be read is that of an open element. -/
theorem Draft.IsSolid.name {d : Draft} (solid : d.IsSolid) {name space : Bytes}
    (nests : d.Nests (.closing name space)) : ∀ b ∈ name, isSpace b = false := by
  obtain ⟨element, opened, rfl⟩ := Option.map_eq_some_iff.1 nests
  exact solid element (List.mem_of_mem_head? opened)

/-! ## Pieces -/

theorem Draft.not_carries_of_locatesNothing {d : Draft} {content : Bytes} (isEmpty : Bool)
    (reads : d.Reads (.tag content isEmpty)) (elsewhere : d.LocatesNothing (.tag content isEmpty)) :
    ¬ d.Carries content := by
  rintro ⟨refers, a, listed, named⟩
  obtain ⟨target, located⟩ := reads.locates refers listed named
  exact elsewhere content isEmpty target rfl located

theorem Draft.Stores.isStoredAs {d : Draft} {token : Token} {part : Part}
    (stores : d.Stores token part) (reads : d.Reads token) (sound : token.IsSound)
    (solid : d.IsSolid) : IsStoredAs store base (d, token) (part.stored store base) := by
  cases stores with
  | copied elsewhere =>
    cases token with
    | opening content => exact .same (not_carries_of_locatesNothing false reads elsewhere)
    | emptyTag content => exact .same (not_carries_of_locatesNothing true reads elsewhere)
    | closing name space => exact .closing (solid.name reads.nests) sound.closing
    | documentType keyword space content =>
      obtain ⟨word, spaces, b, rest, rfl, first⟩ := sound.documentType
      exact .documentType word spaces (by simpa using first)
    | _ => exact .same trivial
  | @reference content r shape located from_ =>
    subst shape
    have written : (Part.reference r).stored store base =
        writeTag (ofText (lossyText (tagName content)))
          ((Attributes.of content).list.filter (·.name ≠ locationName) ++
            locationOf (foundFor store base r.target)) r.isEmpty := by
      rw [← from_.name, ← from_.attributes]
      rfl
    rw [written]
    exact .reference located

/-- The byte order mark of a document, if it has one. -/
def markOf (content : Bytes) : Bytes := if mark <+: content then mark else []

theorem markOf_append_dropMark (content : Bytes) :
    markOf content ++ dropMark content = content := by
  unfold markOf
  split
  · next begins =>
    obtain ⟨rest, rfl⟩ := begins
    rfl
  · next unmarked => exact (dropMark_eq_self_iff content).2 unmarked

theorem IsReadable.forall₂_isStoredAs {d : Resource} (readable : IsReadable d.content)
    (store : Store) :
    List.Forall₂ (IsStoredAs store d.location) (Draft.contexts {} (Scan.of d.content).tokens)
      ((Outline.of d.content).parts.map (Part.stored store d.location)) := by
  obtain ⟨sound, -, -⟩ := fits_scan readable.isWhole
  have start : Draft.IsSolid {} := by simp [Draft.IsSolid]
  rw [readable.parts, List.map_map, List.forall₂_map_right_iff, List.forall₂_same]
  intro p listed
  refine (readable.stores p listed).isStoredAs (readable.reads p listed) (sound p.2 ?_)
    (start.contexts _ p listed)
  rw [← Draft.map_contexts {} (Scan.of d.content).tokens]
  exact List.mem_map_of_mem listed

theorem flatten_eq_sources {ps : List (Draft × Token)} {pieces : List Bytes}
    (all : List.Forall₂ (IsStoredAs store base) ps pieces) (leaves : ∀ p ∈ ps, p.1.Leaves p.2) :
    pieces.flatten = (ps.map (·.2)).flatMap Token.source := by
  induction all with
  | nil => rfl
  | @cons p piece ps pieces here later ih =>
    rw [List.forall_mem_cons] at leaves
    rw [List.flatten_cons, List.map_cons, List.flatMap_cons, here.eq_source leaves.1, ih leaves.2]

/-- What is stored of a document are its tokens in order, some of them edited, and without its byte
    order mark. It is the document itself if there is neither a mark nor an edit. -/
theorem rewrite_copies (store : Store) (d : Resource) (rewritten : Rewritten)
    (made : (rewrite store d).outcome = .ok rewritten) :
    d.content = markOf d.content ++ (Scan.of d.content).tokens.flatMap Token.source ∧
    (∃ pieces, List.Forall₂ (IsStoredAs store d.location)
        (Draft.contexts {} (Scan.of d.content).tokens) pieces ∧
      rewritten.content = pieces.flatten) ∧
    (¬ mark <+: d.content →
      (∀ p ∈ Draft.contexts {} (Scan.of d.content).tokens, p.1.Leaves p.2) →
        rewritten.content = d.content) := by
  have readable := isReadable_of_outcome_rewrite made
  obtain ⟨-, rfl⟩ := (outcome_rewrite_eq_ok_iff d rewritten).1 made
  obtain ⟨-, -, sources⟩ := fits_scan readable.isWhole
  have pieces := readable.forall₂_isStoredAs store
  refine ⟨?_, ⟨_, pieces, rfl⟩, fun unmarked leaves => ?_⟩
  · rw [sources, markOf_append_dropMark]
  · calc stored store d
        = ((Draft.contexts {} (Scan.of d.content).tokens).map (·.2)).flatMap Token.source :=
          flatten_eq_sources pieces leaves
      _ = (Scan.of d.content).tokens.flatMap Token.source := by rw [Draft.map_contexts]
      _ = d.content := by rw [sources, (dropMark_eq_self_iff d.content).2 unmarked]

/-! ## Two documents -/

instance (d : Draft) (content : Bytes) : Decidable (d.IsReferenceTag content) :=
  inferInstanceAs (Decidable (_ ∧ _))

instance (d : Draft) (content : Bytes) : Decidable (d.Carries content) :=
  inferInstanceAs (Decidable (_ ∧ _))

instance (d : Draft) : DecidablePred d.Leaves
  | .opening content | .emptyTag content => inferInstanceAs (Decidable (¬ d.Carries content))
  | .closing _ space => inferInstanceAs (Decidable (space = []))
  | .documentType keyword space _ =>
    inferInstanceAs (Decidable (keyword = ascii "DOCTYPE" ∧ space = [byte ' ']))
  | .text _ | .comment _ | .literal _ | .instruction _ => .isTrue trivial

/-- What looks like references but is none: in a comment, a literal, an instruction and another
    namespace, and without a location. A byte of it is no UTF-8. -/
def lookalikes : Bytes :=
  ascii "<!-- <xs:include schemaLocation='b.xsd'/> -->" ++ [0xFF] ++
    ascii "<![CDATA[<xs:import schemaLocation=\"b.xsd\"/>]]>" ++
    ascii "<?p <xs:import schemaLocation='b.xsd'/>?>" ++
    ascii "<y:include xmlns:y = 'urn:y'  schemaLocation='b.xsd'/><xs:import namespace='urn:z' />"

/-- A schema with something to edit of each kind. -/
def editedDocument : Resource where
  location := ⟨["edited.xsd"], by decide, by decide⟩
  content :=
    mark ++ ascii "<!doctype\n xs:schema [<!ENTITY b \"inner\">]>" ++
      ascii "<xs:schema xmlns:xs='http://www.w3.org/2001/XMLSchema'>" ++ lookalikes ++
      ascii "<xs:include  id='x' schemaLocation='&b;.xsd'></xs:include\t></xs:schema >"

/-- A schema with nothing to edit. -/
def unchangedDocument : Resource where
  location := ⟨["unchanged.xsd"], by decide, by decide⟩
  content :=
    ascii "<!DOCTYPE xs:schema><xs:schema  xmlns:xs = 'http://www.w3.org/2001/XMLSchema' >" ++
      lookalikes ++ ascii "</xs:schema>\n"

def innerStore : Store where
  documents := [(includedDocument.location, includedDocument.content)]
  distinct := by decide

/-- What is stored of the schema with something to edit. -/
def editedContent : Bytes :=
  ascii "<!DOCTYPE xs:schema [<!ENTITY b \"inner\">]>" ++
    ascii "<xs:schema xmlns:xs='http://www.w3.org/2001/XMLSchema'>" ++ lookalikes ++
    ascii "<xs:include id=\"x\" schemaLocation=\"schema-store:///inner.xsd\"></xs:include>" ++
    ascii "</xs:schema>"

/-- A schema is stored with all its edits, and one without any is stored as it is. -/
theorem rewrite_copies_lookalikes :
    (∃ rewritten, (rewrite innerStore editedDocument).outcome = .ok rewritten ∧
      rewritten.content = editedContent ∧
      ∃ pieces, List.Forall₂ (IsStoredAs innerStore editedDocument.location)
        (Draft.contexts {} (Scan.of editedDocument.content).tokens) pieces ∧
        rewritten.content = pieces.flatten) ∧
    ∃ rewritten, (rewrite innerStore unchangedDocument).outcome = .ok rewritten ∧
      rewritten.content = unchangedDocument.content := by
  have edited : (rewrite innerStore editedDocument).outcome.map (·.content) =
      .ok editedContent := by decide +kernel
  have unchanged : (rewrite innerStore unchangedDocument).outcome.isOk = true := by decide +kernel
  obtain ⟨rewritten, made, content⟩ := map_eq_ok_iff.1 edited
  obtain ⟨rewritten', made'⟩ := isOk_iff.1 unchanged
  obtain ⟨-, pieces, -⟩ := rewrite_copies innerStore editedDocument rewritten made
  obtain ⟨-, -, same⟩ := rewrite_copies innerStore unchangedDocument rewritten' made'
  refine ⟨⟨rewritten, made, content, pieces⟩, rewritten', made', same ?_ ?_⟩
  · decide +kernel
  · decide +kernel

end MessageConformance.Schema
