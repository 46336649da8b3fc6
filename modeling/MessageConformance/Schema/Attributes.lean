import MessageConformance.Schema.Token

/-!
# Attributes of a schema element

Attributes are read as they are written: the name runs to an equals sign or space, the
value is quoted, and nothing is expanded. A list of attributes that breaks off in a
malformed one keeps those before it.
-/

namespace MessageConformance.Schema

open Bytes

/-- An attribute with its value as written. -/
structure Attribute where
  name : Bytes
  value : Bytes
  deriving DecidableEq, Repr

/-- The attributes of a tag in order, up to the first malformed one. -/
structure Attributes where
  list : List Attribute
  isWhole : Bool
  deriving DecidableEq, Repr

/-- A place among attributes. Bytes of an unfinished part are held latest first. -/
inductive AttributePlace where
  | gap
  | name (raw : Bytes)
  | equals (name : Bytes)
  | quote (name : Bytes)
  | value (name : Bytes) (mark : UInt8) (raw : Bytes)
  | failed

/-- The attributes read so far, latest first, and the place after them. -/
structure AttributeScanner where
  attributes : List Attribute := []
  place : AttributePlace := .gap

namespace AttributeScanner

/-- Stays with the attributes read and moves on. -/
def go (s : AttributeScanner) (place : AttributePlace) : AttributeScanner := { s with place }

def step (s : AttributeScanner) (b : UInt8) : AttributeScanner :=
  match s.place with
  | .gap => if isSpace b then s else s.go (.name [b])
  | .name raw =>
    if b = byte '=' then s.go (.quote raw.reverse)
    else if isSpace b then s.go (.equals raw.reverse)
    else s.go (.name (b :: raw))
  | .equals name =>
    if isSpace b then s
    else if b = byte '=' then s.go (.quote name)
    else s.go .failed
  | .quote name =>
    if isSpace b then s
    else if b = byte '"' ∨ b = byte '\'' then s.go (.value name b [])
    else s.go .failed
  | .value name mark raw =>
    if b = mark then ⟨⟨name, raw.reverse⟩ :: s.attributes, .gap⟩
    else s.go (.value name mark (b :: raw))
  | .failed => s

/-- The attributes at the end of a tag. -/
def finish (s : AttributeScanner) : Attributes :=
  match s.place with
  | .gap => ⟨s.attributes.reverse, true⟩
  | _ => ⟨s.attributes.reverse, false⟩

end AttributeScanner

/-- The name in a tag. -/
def tagName (content : Bytes) : Bytes := content.takeWhile fun b => !isSpace b

/-- The attributes in a tag. -/
def Attributes.of (content : Bytes) : Attributes :=
  ((content.dropWhile fun b => !isSpace b).foldl AttributeScanner.step {}).finish

namespace Attributes

/-- Whether every attribute is well formed and no two have one name. -/
def areSound (attributes : Attributes) : Bool :=
  attributes.isWhole && (attributes.list.map (·.name)).Nodup

/-- The value of the first attribute of a name, which is sought among those before the
    first malformed one; `none` if it is not there and the list breaks off. -/
def find? (attributes : Attributes) (name : Bytes) : Option (Option Bytes) :=
  match attributes.list.find? (·.name = name) with
  | some found => some (some found.value)
  | none => if attributes.isWhole then some none else none

end Attributes

/-- An attribute as it is written, after a space. -/
def Attribute.written (a : Attribute) : Bytes :=
  byte ' ' :: a.name ++ ascii "=\"" ++ a.value ++ [byte '"']

/-- The label in a qualified name: what stands before the first colon. -/
def label? (name : Bytes) : Option Bytes :=
  if name.contains (byte ':') then some (name.takeWhile (· != byte ':')) else none

/-- The local name in a qualified name: what stands after the first colon. -/
def localName (name : Bytes) : Bytes :=
  if name.contains (byte ':') then (name.dropWhile (· != byte ':')).drop 1 else name

end MessageConformance.Schema
