import MessageConformance.Markup.Escape
import MessageConformance.Markup.Characters
import MessageConformance.Text.Number

/-!
# Character data of a message

The values that attribute values and text stand for: references are expanded, and
line ends and spaces that are written literally are normalised. A character that is
written as a reference is kept as it is.
-/

namespace MessageConformance.Message

open Markup

/-- One character of a value, and whether it was written literally. -/
inductive Written where
  | plain (c : Char)
  | reference (c : Char)
  deriving DecidableEq, Repr

namespace Written

/-- The character of a code point, U+FFFD for a number that is none. -/
def ofCodePoint (n : Nat) : Char := if n.isValidChar then Char.ofNat n else '\uFFFD'

/-- The number that the digits of a character reference denote. -/
def codePoint? : List Char → Option Nat
  | 'x' :: digits => Text.digits? 16 digits
  | digits => Text.digits? 10 digits

/-- The character that a reference stands for, given what is written between the
    ampersand and the semicolon. -/
def reference? : List Char → Option Char
  | '#' :: number =>
    (codePoint? number).bind fun n =>
      let c := ofCodePoint n
      if n < Nat.pow 2 32 ∧ isCharacter c then some c else none
  | name => predefined? name

/-- Reads the characters of a value. `name?` holds what has been read of a reference, latest
    character first. -/
def readFrom (name? : Option (List Char)) : List Char → Option (List Written)
  | [] => if name?.isSome then none else some []
  | c :: cs =>
    match name? with
    | none =>
      if c = '&' then readFrom (some []) cs else (readFrom none cs).map (plain c :: ·)
    | some name =>
      if c = ';' then
        (reference? name.reverse).bind fun r => (readFrom none cs).map (reference r :: ·)
      else readFrom (some (c :: name)) cs

def read? (raw : List Char) : Option (List Written) := readFrom none raw

end Written

/-- The characters of text. A carriage return, with the line feed after it if there is
    one, is a line end and becomes a line feed; it stays when a reference follows, and
    when it stands between a reference and the end. -/
def textFrom (afterReference : Bool) : List Written → List Char
  | [] => []
  | .reference c :: us => c :: textFrom true us
  | .plain '\r' :: .plain '\n' :: us => '\n' :: textFrom false us
  | .plain '\r' :: .reference c :: us => '\r' :: c :: textFrom true us
  | [.plain '\r'] => [if afterReference then '\r' else '\n']
  | .plain '\r' :: us => '\n' :: textFrom false us
  | .plain c :: us => c :: textFrom false us

/-- The text that a run of character data stands for. -/
def textValue? (raw : List Char) : Option String :=
  (Written.read? raw).map fun us => String.ofList (textFrom false us)

/-- The text of a section in which references are not read. -/
def literalValue (content : List Char) : String :=
  String.ofList (textFrom false (content.map .plain))

/-- The characters of an attribute value: a literal line end or tab becomes a space, a
    carriage return before a line feed disappears. -/
def attributeFrom : List Written → List Char
  | [] => []
  | .reference c :: us => c :: attributeFrom us
  | .plain '\r' :: .plain '\n' :: us => ' ' :: attributeFrom us
  | .plain c :: us => (if isSpace c then ' ' else c) :: attributeFrom us

/-- The value of an attribute as written. -/
def attributeValue? (raw : List Char) : Option String :=
  (Written.read? raw).map fun us => String.ofList (attributeFrom us)

end MessageConformance.Message
