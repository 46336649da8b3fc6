import MessageConformance.Data.Value

/-!
# Writing JSON

Values on several lines, indented by two spaces a level. Characters are written as they
are, but for the quotation mark, the backslash and the ASCII controls.
-/

namespace MessageConformance.Data.Json

/-- A digit in base sixteen. -/
def hexDigit (n : Nat) : Char := if n < 10 then Char.ofNat (0x30 + n) else Char.ofNat (0x57 + n)

/-- A character inside a text. -/
def escapeChar : Char → List Char
  | '"' => ['\\', '"']
  | '\\' => ['\\', '\\']
  | '\n' => ['\\', 'n']
  | '\r' => ['\\', 'r']
  | '\t' => ['\\', 't']
  | c =>
    if c.toNat = 8 then ['\\', 'b']
    else if c.toNat = 12 then ['\\', 'f']
    else if c.toNat < 0x20 then
      ['\\', 'u', '0', '0', hexDigit (c.toNat / 16), hexDigit (c.toNat % 16)]
    else [c]

/-- A text in quotation marks. -/
def quote (s : String) : String := "\"" ++ String.ofList (s.toList.flatMap escapeChar) ++ "\""

/-- The start of a line at a level. -/
def lineStart (level : Nat) : String := "\n" ++ String.ofList (List.replicate (2 * level) ' ')

mutual

/-- A value that begins on a line of some level. -/
def write (level : Nat) : Value → String
  | .null => "null"
  | .boolean b => if b then "true" else "false"
  | .integer n => toString n
  | .text s => quote s
  | .foreign => "null"
  | .list items =>
    if items.isEmpty then "[]"
    else "[" ++ ",".intercalate (writeItems (level + 1) items) ++ lineStart level ++ "]"
  | .record fields =>
    if fields.isEmpty then "\x7b\x7d"
    else "\x7b" ++ ",".intercalate (writeFields (level + 1) fields) ++ lineStart level ++ "\x7d"

/-- The lines of the items of a list. -/
def writeItems (level : Nat) : List Value → List String
  | [] => []
  | v :: vs => (lineStart level ++ write level v) :: writeItems level vs

/-- The lines of the fields of a record. -/
def writeFields (level : Nat) : List (String × Value) → List String
  | [] => []
  | (name, v) :: fields =>
    (lineStart level ++ quote name ++ ": " ++ write level v) :: writeFields level fields

end

/-- A value as a text. -/
def pretty (v : Value) : String := write 0 v

end MessageConformance.Data.Json
