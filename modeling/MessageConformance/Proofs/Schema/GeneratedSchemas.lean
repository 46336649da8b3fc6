import MessageConformance.Schema.Driver
import MessageConformance.Proofs.Schema.WrittenTags

/-!
# Generated schemas

The driver schema and the wrapper documents are scanned to the tokens that they are written from
(`scan_writeSchema`), whatever namespaces and locations they name.
-/

namespace MessageConformance.Schema

open Bytes

/-! ## References -/

namespace Link

/-- The name of the element that a reference is written as. -/
def name : Link → Bytes
  | includes _ => ascii "xs:include"
  | imports _ _ => ascii "xs:import"

def attributes : Link → List Attribute
  | includes l => [.ofText locationName (address l)]
  | imports uri l => [.ofText (ascii "namespace") uri, .ofText locationName (address l)]

def token (link : Link) : Token := .tag (tagContent link.name link.attributes) true

theorem source_token (link : Link) : link.token.source = link.written := by
  cases link <;> exact (writeTag_eq _ _ _).symm

theorem mem_attributes {link : Link} {a : Attribute} (member : a ∈ link.attributes) :
    (∃ uri, a = .ofText (ascii "namespace") uri) ∨ ∃ l, a = .ofText locationName (address l) := by
  cases link <;> simp only [attributes, List.mem_cons, List.not_mem_nil, or_false] at member
  · exact .inr ⟨_, member⟩
  · exact member.imp (⟨_, ·⟩) (⟨_, ·⟩)

end Link

/-! ## Tokens -/

/-- The attributes of the root tag of a generated schema. -/
def schemaAttributes (targetNamespace : Option String) : List Attribute :=
  ⟨ascii "xmlns:xs", schemaSpace⟩ :: targetNamespace.toList.map (Attribute.ofText targetName)

/-- The tokens of a generated schema. -/
def schemaTokens (targetNamespace : Option String) (links : List Link) : List Token :=
  .tag (tagContent (ascii "xs:schema") (schemaAttributes targetNamespace)) false ::
    (links.map Link.token ++ [.closing (ascii "xs:schema") []])

theorem writeSchema_eq_sources (targetNamespace : Option String) (links : List Link) :
    writeSchema targetNamespace links =
      (schemaTokens targetNamespace links).flatMap Token.source := by
  have closing : (Token.closing (ascii "xs:schema") []).source = ascii "</xs:schema>" := by decide
  simp [writeSchema, schemaTokens, schemaAttributes, writeTag_eq, List.flatMap_map,
    Link.source_token, closing]

/-- A name that neither ends a tag nor makes it another token. -/
structure IsPlainName (name : Bytes) : Prop where
  nonempty : name ≠ []
  begins : BeginsTag name
  unslashed : ∀ b ∈ name.getLast?, b ≠ byte '/'
  solid : ∀ b ∈ name, isSpace b = false
  plain : ∀ b ∈ name, IsPlainByte b

theorem isPlainName {name : Bytes}
    (generated : name ∈ [ascii "xs:schema", ascii "xs:include", ascii "xs:import"]) :
    IsPlainName name := by
  simp only [List.mem_cons, List.not_mem_nil, or_false] at generated
  obtain rfl | rfl | rfl := generated
  all_goals
    refine ⟨by decide, fun b head => ?_, fun b last => ?_, forall_mem_of_all (by decide),
      forall_mem_of_all (by decide)⟩
    · obtain rfl := Option.some.inj head
      decide
    · obtain rfl := Option.some.inj last
      decide

theorem Link.isPlainName_name (link : Link) : IsPlainName link.name :=
  isPlainName (by cases link <;> simp [name])

theorem IsPlainName.isSound_tagContent {name : Bytes} (plainName : IsPlainName name)
    {attributes : List Attribute} (plain : ∀ a ∈ attributes, a.IsPlain) {isEmpty : Bool} :
    (Token.tag (tagContent name attributes) isEmpty).IsSound := by
  refine Schema.isSound_tagContent plainName.nonempty plainName.begins plainName.unslashed ?_
  rw [← List.nil_append attributes, quoteAfterAll?_tagContent_append plain, tagContent,
    List.flatMap_nil, List.append_nil]
  exact Scanner.quoteAfterAll?_of_plain (by simp [Scanner.IsMark]) plainName.plain

theorem isPlain_schemaAttributes {targetNamespace : Option String} :
    ∀ a ∈ schemaAttributes targetNamespace, a.IsPlain := by
  rw [schemaAttributes, List.forall_mem_cons]
  refine ⟨⟨forall_mem_of_all (by decide), forall_mem_of_all (by decide)⟩, fun a member => ?_⟩
  obtain ⟨uri, -, rfl⟩ := List.mem_map.1 member
  exact Attribute.isPlain_ofText (forall_mem_of_all (by decide)) uri

theorem Link.isPlain_attributes (link : Link) : ∀ a ∈ link.attributes, a.IsPlain := by
  intro a member
  obtain ⟨uri, rfl⟩ | ⟨l, rfl⟩ := mem_attributes member
  · exact Attribute.isPlain_ofText (forall_mem_of_all (by decide)) uri
  · exact Attribute.isPlain_ofText (forall_mem_of_all (by decide)) (address l)

/-- The attributes that a reference is written with are read back. -/
theorem Link.attributes_tagContent (link : Link) :
    (Attributes.of (tagContent link.name link.attributes)).list = link.attributes := by
  rw [of_tagContent link.isPlainName_name.solid]
  · intro a member
    obtain ⟨uri, rfl⟩ | ⟨l, rfl⟩ := mem_attributes member
    · exact ⟨byte 'n', ascii "amespace", rfl, by decide, forall_mem_of_all (by decide)⟩
    · exact isAttributeName_locationName
  · exact fun a member inside => (link.isPlain_attributes a member).value _ inside |>.1 rfl

theorem mem_schemaTokens_iff {targetNamespace : Option String} {links : List Link} {t : Token} :
    t ∈ schemaTokens targetNamespace links ↔
      t = .tag (tagContent (ascii "xs:schema") (schemaAttributes targetNamespace)) false ∨
        (∃ link ∈ links, t = link.token) ∨ t = .closing (ascii "xs:schema") [] := by
  simp [schemaTokens, eq_comm (a := t)]

/-- A generated schema is scanned to its tokens. -/
theorem scan_writeSchema (targetNamespace : Option String) (links : List Link) :
    Scan.of (writeSchema targetNamespace links) = ⟨schemaTokens targetNamespace links, true⟩ := by
  have markup : ∀ t ∈ schemaTokens targetNamespace links, t.isText = false := by
    intro t member
    obtain rfl | ⟨link, -, rfl⟩ | rfl := mem_schemaTokens_iff.1 member <;> rfl
  have apart : (schemaTokens targetNamespace links).IsChain Token.Apart := by
    refine (List.pairwise_of_forall_mem_list fun t member t' _ both => ?_).isChain
    simp [markup t member] at both
  rw [writeSchema_eq_sources]
  refine (scan_sources_iff apart).2 ⟨?_, ?_⟩
  · intro t member
    obtain rfl | ⟨link, -, rfl⟩ | rfl := mem_schemaTokens_iff.1 member
    · exact (isPlainName (by simp)).isSound_tagContent isPlain_schemaAttributes
    · exact link.isPlainName_name.isSound_tagContent link.isPlain_attributes
    · exact ⟨by decide, by decide⟩
  · rw [dropMark_eq_self_iff, mark_prefix_sources_iff apart]
    rintro ⟨content, head, -⟩
    simp [schemaTokens, Token.tag] at head

end MessageConformance.Schema
