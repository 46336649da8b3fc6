import MessageConformance.Markup.Escape
import MessageConformance.Resolver
import MessageConformance.Schema.Catalog
import MessageConformance.Schema.Outline

/-!
# Rewriting references

A document as it is stored in a catalog: its references lead to catalog addresses and
everything else is copied. An import that leads nowhere loses its location; an include or
redefinition that leads nowhere is an error.
-/

namespace MessageConformance.Schema

open Bytes

/-- An attribute whose value is a text. -/
def Attribute.ofText (name : Bytes) (value : String) : Attribute :=
  ⟨name, Bytes.ofText (Markup.escapeText value)⟩

def writeTag (name : Bytes) (attributes : List Attribute) (isEmpty : Bool) : Bytes :=
  byte '<' :: name ++ attributes.flatMap Attribute.written ++
    (if isEmpty then ascii "/>" else [byte '>'])

/-- A reference as it is stored, given the location it leads to. The location comes last. -/
def Reference.written (r : Reference) (found : Option Location) : Bytes :=
  let location := found.toList.map fun l => Attribute.ofText locationName (address l)
  writeTag (ofText (lossyText r.name)) (r.attributes ++ location) r.isEmpty

/-- A document as it is stored, its target namespace, and the documents that its
    references lead to, in order. -/
structure Rewritten where
  content : Bytes
  targetNamespace : Option String
  discovered : List Resource

/-- The stored form of a part of the document at `base`, and the document it leads to. -/
def rewritePart (store : Store) (base : Location) :
    Part → Loading SchemaFailure (Bytes × Option Resource)
  | .copied token => return (token.written, none)
  | .reference r => do
    let found ← (Resolver.resolve store r.target (some base) : Reading (Option Resource))
    if found.isNone && r.kind != .imports then throw (.unresolved r.kind r.target base.text)
    return (r.written (found.map (·.location)), found)

/-- Rewrites the references of a document in order, up to its fault if it has one. -/
def rewrite (store : Store) (document : Resource) : Loading SchemaFailure Rewritten := do
  let outline := Outline.of document.content
  let parts ← outline.parts.mapM (rewritePart store document.location)
  match outline.targetNamespace with
  | .error fault => throw (.invalid document.location.text fault.text)
  | .ok targetNamespace =>
    return ⟨(parts.map (·.1)).flatten, targetNamespace, parts.filterMap (·.2)⟩

end MessageConformance.Schema
