import MessageConformance.Text.Blank
import MessageConformance.Text.Bytes
import MessageConformance.Text.Number
import MessageConformance.Text.Split

/-!
# Entities

The general entities that a document type declares with a quoted value, and the
expansion of references to them. The replacement of a reference is not expanded again,
and no entity is predefined.
-/

namespace MessageConformance.Schema

/-- The values of entities by name. -/
abbrev Entities := List (String × String)

/-- What begins the declaration of an entity. -/
def entityMarker : List Char := ['<', '!', 'E', 'N', 'T', 'I', 'T', 'Y']

/-- The value that begins with a quotation mark. -/
def quoted? : List Char → Option (List Char)
  | mark :: rest =>
    if mark = '"' ∨ mark = '\'' then (Text.cutOnce (· == mark) rest).map (·.1) else none
  | [] => none

/-- The entity that a declaration names with a value, given what follows the marker.
    Parameter entities and external ones have none. -/
def declaration? (cs : List Char) : Option (String × String) :=
  let cs := Text.dropStart cs
  if cs.head? = some '%' then none
  else do
    let (name, rest) ← Text.cutOnce Text.isBlank cs
    let value ← quoted? (Text.dropStart rest)
    return (String.ofList name, String.ofList value)

/-- The entities that a document type declares, in order. The first declaration of a name
    counts. -/
def Entities.of (documentType : List Char) : Entities :=
  ((Text.piecesBetween entityMarker documentType).drop 1).filterMap declaration?

/-- The number that the digits of a character reference denote. -/
def codePoint? : List Char → Option Nat
  | 'x' :: digits => Text.digits? 16 digits
  | digits => Text.digits? 10 digits

/-- The characters that a reference stands for, given what is written between the
    ampersand and the semicolon. -/
def reference? (entities : Entities) : List Char → Option (List Char)
  | '#' :: number =>
    (codePoint? number).bind fun n =>
      if n ≠ 0 ∧ n.isValidChar then some [Char.ofNat n] else none
  | name => (entities.lookup (String.ofList name)).map String.toList

/-- Expands references. `name?` holds what has been read of one, latest character
    first; an ampersand inside a reference is an error. -/
def expandFrom (entities : Entities) (name? : Option (List Char)) :
    List Char → Option (List Char)
  | [] => if name?.isSome then none else some []
  | c :: cs =>
    match name? with
    | none =>
      if c = '&' then expandFrom entities (some []) cs
      else (expandFrom entities none cs).map (c :: ·)
    | some name =>
      if c = ';' then
        (reference? entities name.reverse).bind fun value =>
          (expandFrom entities none cs).map (value ++ ·)
      else if c = '&' then none
      else expandFrom entities (some (c :: name)) cs

/-- The text of an attribute value as written: valid UTF-8 with its references expanded. -/
def expand? (entities : Entities) (value : Bytes) : Option String :=
  value.text?.bind fun s => (expandFrom entities none s.toList).map String.ofList

end MessageConformance.Schema
