import MessageConformance.Proofs.Schema.Drafts
import MessageConformance.Proofs.Schema.GeneratedSchemas

/-!
# References that are read back

The references of a schema text are read off its tags (`mentions`): the kind of each, and its
namespace and location with the predefined entities expanded. A generated schema is read as it was
meant, whatever characters there are in its namespaces and locations (`refersTo_writeSchema`).
-/

namespace MessageConformance.Schema

open Bytes

/-! ## Reading references -/

/-- What stands in a start tag or an empty one. -/
def Token.content? : Token → Option Bytes
  | .opening content | .emptyTag content => some content
  | _ => none

/-- The start tags and empty tags of a text, each with what is known before it. -/
def tags (text : Bytes) : List (Draft × Bytes) :=
  (Draft.contexts {} (Scan.of text).tokens).filterMap fun (d, token) => token.content?.map (d, ·)

/-- The value of an attribute in a tag, with the predefined entities expanded. -/
def valueOf? (name content : Bytes) : Option String :=
  ((Attributes.of content).list.find? (·.name = name)).bind fun a =>
    expand? predefinedEntities a.value

/-- The local name in a tag of an element of schemas. -/
def Draft.schemaElement? (d : Draft) (content : Bytes) : Option Bytes :=
  if isSchemaName (d.inside content) (tagName content) then some (localName (tagName content))
  else none

/-- A reference as it is read in a text. -/
structure Mention where
  kind : ReferenceKind
  uri? : Option String
  location? : Option String
  deriving DecidableEq

/-- The reference that is made in a tag. -/
def Draft.mention? (d : Draft) (content : Bytes) : Option Mention :=
  ((d.schemaElement? content).bind referenceKind?).map fun kind =>
    ⟨kind, valueOf? (ascii "namespace") content, valueOf? locationName content⟩

/-- The references that are made in a text, in order. -/
def mentions (text : Bytes) : List Mention :=
  (tags text).filterMap fun (d, content) => d.mention? content

/-- The target namespace in the first tag of a text, if that is the tag of a schema. -/
def rootTarget? (text : Bytes) : Option (Option String) :=
  (tags text).head?.bind fun (d, content) =>
    if d.schemaElement? content = some (ascii "schema") then some (valueOf? targetName content)
    else none

/-- A text is that of a schema, its markup in order to the end, with a target namespace or without
    one, and makes some references and no others. -/
structure RefersTo (text : Bytes) (targetNamespace : Option String) (made : List Mention) :
    Prop where
  tokenizes : Tokenizes text
  root : rootTarget? text = some targetNamespace
  mentions : mentions text = made

/-- A reference of a generated schema as it is meant. -/
def Link.mention : Link → Mention
  | includes l => ⟨.includes, none, some (address l)⟩
  | imports uri l => ⟨.imports, some uri, some (address l)⟩

/-! ## Generated schemas -/

/-- Where no attribute binds a label, the namespaces in scope stay. -/
theorem scopeInside?_of_unbound {outer : Scope} {attributes : Attributes}
    (unbound : ∀ a ∈ attributes.list, boundLabel? a.name = none) :
    scopeInside? outer attributes = some outer := by
  obtain ⟨list, isWhole⟩ := attributes
  have stays (a : Attribute) (none : boundLabel? a.name = none) : bind? outer a = some outer := by
    simp [bind?, none]
  unfold scopeInside?
  induction list with
  | nil => rfl
  | cons a list ih =>
    rw [List.forall_mem_cons] at unbound
    rw [List.foldlM_cons, stays a unbound.1]
    exact ih unbound.2

/-- The namespaces in scope in a generated schema. -/
def generatedScope : Scope := [(ascii "xs", schemaSpace)]

/-- The tag of the root of a generated schema. -/
def rootContent (targetNamespace : Option String) : Bytes :=
  tagContent (ascii "xs:schema") (schemaAttributes targetNamespace)

section

variable (targetNamespace : Option String)

theorem of_rootContent :
    Attributes.of (rootContent targetNamespace) = ⟨schemaAttributes targetNamespace, true⟩ := by
  refine of_tagContent (forall_mem_of_all (by decide)) (fun a member => ?_) fun a member inside =>
    (isPlain_schemaAttributes a member).value _ inside |>.1 rfl
  obtain rfl | member := List.mem_cons.1 member
  · exact ⟨byte 'x', ascii "mlns:xs", rfl, by decide, forall_mem_of_all (by decide)⟩
  · obtain ⟨uri, -, rfl⟩ := List.mem_map.1 member
    exact ⟨byte 't', ascii "argetNamespace", rfl, by decide, forall_mem_of_all (by decide)⟩

theorem tagName_rootContent : tagName (rootContent targetNamespace) = ascii "xs:schema" :=
  tagName_tagContent (forall_mem_of_all (by decide)) _

/-- The root tag binds the label of schemas and nothing else. -/
theorem scopeInside?_rootContent :
    scopeInside? [] (Attributes.of (rootContent targetNamespace)) = some generatedScope := by
  have bound : bind? [] ⟨ascii "xmlns:xs", schemaSpace⟩ = some generatedScope := by decide +kernel
  have target : boundLabel? targetName = none := by decide
  have rest : scopeInside? generatedScope
      ⟨targetNamespace.toList.map (Attribute.ofText targetName), true⟩ = some generatedScope := by
    refine scopeInside?_of_unbound fun a member => ?_
    obtain ⟨uri, -, rfl⟩ := List.mem_map.1 member
    exact target
  rw [of_rootContent, scopeInside?, schemaAttributes, List.foldlM_cons, bound]
  exact rest

/-- What is known after the root tag of a generated schema. -/
def rootDraft : Draft := Draft.after {} (.opening (rootContent targetNamespace))

theorem openElements_rootDraft :
    (rootDraft targetNamespace).openElements = [(ascii "xs:schema", generatedScope)] := by
  simp [rootDraft, Draft.after, tagName_rootContent, Draft.inside, Draft.scope,
    scopeInside?_rootContent]

theorem scope_rootDraft : (rootDraft targetNamespace).scope = generatedScope := by
  simp [Draft.scope, openElements_rootDraft]

theorem rootSeen_rootDraft : (rootDraft targetNamespace).rootSeen = true := rfl

end

namespace Link

variable (targetNamespace : Option String) (link : Link)

/-- The tag of a reference. -/
def content : Bytes := tagContent link.name link.attributes

theorem scopeInside?_content (outer : Scope) :
    scopeInside? outer (Attributes.of link.content) = some outer := by
  refine scopeInside?_of_unbound fun a member => ?_
  rw [content, attributes_tagContent] at member
  obtain ⟨uri, rfl⟩ | ⟨l, rfl⟩ := mem_attributes member
  · exact show boundLabel? (ascii "namespace") = none by decide
  · exact show boundLabel? locationName = none by decide

theorem after_token :
    (rootDraft targetNamespace).after link.token = rootDraft targetNamespace := by
  change (rootDraft targetNamespace).afterRoot _ = _
  rw [Draft.afterRoot, if_pos (rootSeen_rootDraft targetNamespace)]

/-- The reference that is read is the one that was meant. -/
theorem mention?_content :
    (rootDraft targetNamespace).mention? link.content = some link.mention := by
  have inside : (rootDraft targetNamespace).inside link.content = generatedScope := by
    rw [Draft.inside, scopeInside?_content, scope_rootDraft, Option.getD_some]
  have named : tagName link.content = link.name :=
    tagName_tagContent link.isPlainName_name.solid _
  have attributes : (Attributes.of link.content).list = link.attributes :=
    link.attributes_tagContent
  have other : ascii "namespace" ≠ locationName := by decide
  cases link with
  | includes l =>
    have element : isSchemaName generatedScope (ascii "xs:include") = true := by decide +kernel
    have kind : referenceKind? (localName (ascii "xs:include")) = some .includes := by decide
    simp [Draft.mention?, Draft.schemaElement?, inside, named, name, element, kind, valueOf?,
      attributes, Link.attributes, Attribute.ofText, other.symm, expand?_escapeText, mention]
  | imports uri l =>
    have element : isSchemaName generatedScope (ascii "xs:import") = true := by decide +kernel
    have kind : referenceKind? (localName (ascii "xs:import")) = some .imports := by decide
    simp [Draft.mention?, Draft.schemaElement?, inside, named, name, element, kind, valueOf?,
      attributes, Link.attributes, Attribute.ofText, other, expand?_escapeText, mention]

end Link

section

variable (targetNamespace : Option String) (links : List Link)

/-- Each reference of a generated schema stands directly in the root. -/
theorem contexts_schemaTokens :
    Draft.contexts {} (schemaTokens targetNamespace links) =
      ({}, .opening (rootContent targetNamespace)) ::
        (links.map fun link => (rootDraft targetNamespace, link.token)) ++
          [(rootDraft targetNamespace, .closing (ascii "xs:schema") [])] := by
  change _ :: Draft.contexts (rootDraft targetNamespace) _ = _
  rw [List.cons_append]
  refine congrArg (_ :: ·) ?_
  induction links with
  | nil => rfl
  | cons link links ih =>
    rw [List.map_cons, List.cons_append, Draft.contexts, Link.after_token, ih]
    rfl

theorem tags_writeSchema :
    tags (writeSchema targetNamespace links) =
      ({}, rootContent targetNamespace) ::
        links.map fun link => (rootDraft targetNamespace, link.content) := by
  rw [tags, scan_writeSchema, contexts_schemaTokens, List.cons_append, List.filterMap_cons,
    List.filterMap_append, List.filterMap_map]
  simp [Token.content?, Link.token, Token.tag, Link.content]

theorem tokenizes_writeSchema : Tokenizes (writeSchema targetNamespace links) := by
  rw [Tokenizes, scan_writeSchema, contexts_schemaTokens]
  refine ⟨rfl, fun p member => ?_⟩
  simp only [List.cons_append, List.mem_cons, List.mem_append, List.mem_map, List.not_mem_nil,
    or_false] at member
  obtain rfl | ⟨link, -, rfl⟩ | rfl := member
  · exact Option.isSome_of_eq_some (scopeInside?_rootContent targetNamespace)
  · exact Option.isSome_of_eq_some (link.scopeInside?_content _)
  · simp [Draft.Nests, openElements_rootDraft]

theorem schemaElement?_rootContent :
    Draft.schemaElement? {} (rootContent targetNamespace) = some (ascii "schema") := by
  have inside : Draft.inside {} (rootContent targetNamespace) = generatedScope := by
    simp [Draft.inside, Draft.scope, scopeInside?_rootContent]
  have element : isSchemaName generatedScope (ascii "xs:schema") = true := by decide +kernel
  have named : localName (ascii "xs:schema") = ascii "schema" := by decide
  simp [Draft.schemaElement?, inside, tagName_rootContent, element, named]

/-- The target namespace of a generated schema is read back. -/
theorem rootTarget?_writeSchema :
    rootTarget? (writeSchema targetNamespace links) = some targetNamespace := by
  have other : ascii "xmlns:xs" ≠ targetName := by decide
  have target : valueOf? targetName (rootContent targetNamespace) = targetNamespace := by
    rw [valueOf?, of_rootContent, schemaAttributes, List.find?_cons_of_neg (by simpa using other)]
    cases targetNamespace with
    | none => rfl
    | some uri => simp [Attribute.ofText, expand?_escapeText]
  simp [rootTarget?, tags_writeSchema, schemaElement?_rootContent, target]

/-- A generated schema makes the references that it was generated for. -/
theorem refersTo_writeSchema :
    RefersTo (writeSchema targetNamespace links) targetNamespace (links.map Link.mention) := by
  have kind : referenceKind? (ascii "schema") = none := by decide
  have none : Draft.mention? {} (rootContent targetNamespace) = none := by
    simp [Draft.mention?, schemaElement?_rootContent, kind]
  refine ⟨tokenizes_writeSchema _ _, rootTarget?_writeSchema _ _, ?_⟩
  have made : links.filterMap (fun link => (rootDraft targetNamespace).mention? link.content) =
      links.map Link.mention := by
    simp [Link.mention?_content]
  simpa [mentions, tags_writeSchema, none, List.filterMap_map, Function.comp_def] using made

end

end MessageConformance.Schema
