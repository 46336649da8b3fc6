import MessageConformance.Failure
import MessageConformance.Store

/-!
# Catalogs

The documents that a schema engine may ask for while it compiles a group, by location.
They are served under addresses of their own, so that nothing outside the catalog has
one.
-/

namespace MessageConformance.Schema

/-- Documents by location, each location once. -/
structure Catalog where
  documents : List (Location × Bytes) := []
  deriving DecidableEq

/-- What the address of a catalog document begins with. -/
def addressStart : String := "schema-store:///"

/-- The address of a catalog document. -/
def address (l : Location) : String := addressStart ++ l.text

namespace Catalog

def empty : Catalog := {}

/-- Adds a document in the place of an earlier one. A document with a NUL byte cannot be
    served. -/
def insert (c : Catalog) (l : Location) (content : Bytes) : Except SchemaFailure Catalog :=
  if content.contains 0 then .error (.invalid l.text "document contains a NUL byte")
  else .ok ⟨Store.put l content c.documents⟩

/-- The document at a location. -/
def document? (c : Catalog) (l : Location) : Option Bytes := c.documents.lookup l

def contains (c : Catalog) (l : Location) : Bool := (c.document? l).isSome

/-- The document at a location as it is written, which must be normalised. -/
def get? (c : Catalog) (path : String) : Option Bytes :=
  (c.documents.find? (·.1.text = path)).map (·.2)

def size (c : Catalog) : Nat := c.documents.length

/-- The documents by ascending location. -/
def listing (c : Catalog) : List (String × Bytes) :=
  (c.documents.map fun (l, content) => (l.text, content)).mergeSort fun a b => a.1 ≤ b.1

/-- What is served for an address: the document at the location that follows the start of
    every address, as it is written. -/
def serve? (c : Catalog) (url : String) : Option Bytes :=
  if addressStart.toList.isPrefixOf url.toList then
    c.get? (String.ofList (url.toList.drop addressStart.length))
  else none

end Catalog
end MessageConformance.Schema
