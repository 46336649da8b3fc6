/-!
# Writing markup

The five characters that are written as predefined entities, in text and in
attribute values alike.
-/

namespace MessageConformance.Markup

/-- A character as it is written in text and in attribute values. -/
def escapeChar : Char → List Char
  | '<' => ['&', 'l', 't', ';']
  | '>' => ['&', 'g', 't', ';']
  | '&' => ['&', 'a', 'm', 'p', ';']
  | '\'' => ['&', 'a', 'p', 'o', 's', ';']
  | '"' => ['&', 'q', 'u', 'o', 't', ';']
  | c => [c]

/-- Characters as they are written in text and in attribute values. -/
def escape (cs : List Char) : List Char := cs.flatMap escapeChar

/-- A text as it is written in text and in attribute values. -/
def escapeText (s : String) : String := String.ofList (escape s.toList)

/-- The character that a predefined entity stands for. -/
def predefined? : List Char → Option Char
  | ['l', 't'] => some '<'
  | ['g', 't'] => some '>'
  | ['a', 'm', 'p'] => some '&'
  | ['a', 'p', 'o', 's'] => some '\''
  | ['q', 'u', 'o', 't'] => some '"'
  | _ => none

end MessageConformance.Markup
