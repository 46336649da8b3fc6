import MessageConformance.Text.Bytes

/-!
# Tokens of a schema document

Schema documents are cut into tokens byte by byte and mostly copied. A token keeps
its source (`Token.source`): the sources of the tokens, followed by the part that could
not be read, are the document. `Token.written` is what is copied: it differs from the
source only in the space before the end of an end tag and in the opening of a document
type.
-/

namespace MessageConformance.Schema

open Bytes

/-- A part of a schema document. Tags hold what stands between their brackets. -/
inductive Token where
  | text (content : Bytes)
  | opening (content : Bytes)
  | emptyTag (content : Bytes)
  | closing (name space : Bytes)
  | comment (content : Bytes)
  | literal (content : Bytes)
  | instruction (content : Bytes)
  | documentType (keyword space content : Bytes)
  deriving DecidableEq, Repr

namespace Token

def source : Token → Bytes
  | text content => content
  | opening content => byte '<' :: content ++ [byte '>']
  | emptyTag content => byte '<' :: content ++ ascii "/>"
  | closing name space => ascii "</" ++ name ++ space ++ [byte '>']
  | comment content => ascii "<!--" ++ content ++ ascii "-->"
  | literal content => ascii "<![CDATA[" ++ content ++ ascii "]]>"
  | instruction content => ascii "<?" ++ content ++ ascii "?>"
  | documentType keyword space content =>
    ascii "<!" ++ keyword ++ space ++ content ++ [byte '>']

/-- A token as it is copied. -/
def written : Token → Bytes
  | closing name _ => ascii "</" ++ name ++ [byte '>']
  | documentType _ _ content => ascii "<!DOCTYPE " ++ content ++ [byte '>']
  | token => token.source

end Token

def isSpace (b : UInt8) : Bool :=
  b == byte ' ' || b == byte '\t' || b == byte '\n' || b == byte '\r'

/-- A place in a schema document. Bytes of an unfinished part are held latest first. -/
inductive Place where
  | text (raw : Bytes)
  | opened
  | tag (quote : Option UInt8) (raw : Bytes)
  | closing (quote : Option UInt8) (raw : Bytes)
  | bang
  | comment (raw : Bytes)
  | literal (raw : Bytes)
  | documentType (depth : Nat) (raw : Bytes)
  | instruction (raw : Bytes)
  | failed

/-- The tokens read so far, latest first, and the place after them. -/
structure Scanner where
  tokens : List Token := []
  place : Place := .text []

/-- What a scan gives: the tokens in order, and whether they are all of the document. -/
structure Scan where
  tokens : List Token
  isWhole : Bool
  deriving DecidableEq, Repr

namespace Scanner

/-- Stays with the tokens read and moves on. -/
def go (s : Scanner) (place : Place) : Scanner := { s with place }

/-- Ends a token; text follows. -/
def emit (s : Scanner) (token : Token) : Scanner := ⟨token :: s.tokens, .text []⟩

/-- Ends the text before a tag. -/
def endText (s : Scanner) (raw : Bytes) : List Token :=
  if raw.isEmpty then s.tokens else .text raw.reverse :: s.tokens

/-- The quotation mark that is open after a byte in a tag. -/
def quoteAfter (quote : Option UInt8) (b : UInt8) : Option UInt8 :=
  match quote with
  | none => if b = byte '"' ∨ b = byte '\'' then some b else none
  | some mark => if b = mark then none else quote

/-- The token of a start tag, its bytes latest first: a slash at the end makes it empty. -/
def tagToken (raw : Bytes) : Token :=
  match raw with
  | [] => .opening []
  | b :: rest => if b = byte '/' then .emptyTag rest.reverse else .opening raw.reverse

/-- The token of an end tag, its bytes latest first: spaces at its end belong to no name,
    unless there is nothing else. -/
def closingToken (raw : Bytes) : Token :=
  match raw.dropWhile isSpace with
  | [] => .closing raw.reverse []
  | name => .closing name.reverse (raw.takeWhile isSpace).reverse

/-- An ASCII capital for a small letter. -/
def capital (b : UInt8) : UInt8 := if byte 'a' ≤ b ∧ b ≤ byte 'z' then b - 32 else b

/-- The token of a document type, given what stands between `<!` and the end: the keyword
    in any case, and content that is not all spaces. -/
def documentType? (content : Bytes) : Option Token :=
  let keyword := content.take 7
  let rest := content.drop 7
  if keyword.map capital = ascii "DOCTYPE" ∧ rest.any (fun b => !isSpace b) then
    some (.documentType keyword (rest.takeWhile isSpace) (rest.dropWhile isSpace))
  else none

/-- Ends a token that may turn out to be none. -/
def emit? (s : Scanner) : Option Token → Scanner
  | some token => s.emit token
  | none => s.go .failed

/-- The token between `<!` and `>` that must begin and end as given, if it does. -/
def between? (start stop content : Bytes) (token : Bytes → Token) : Option Token :=
  if start.isPrefixOf content then
    some (token ((content.drop start.length).take (content.length - start.length - stop.length)))
  else none

def stepTag (s : Scanner) (quote : Option UInt8) (raw : Bytes) (b : UInt8) : Scanner :=
  if b = byte '>' ∧ quote = none then s.emit (tagToken raw)
  else s.go (.tag (quoteAfter quote b) (b :: raw))

def step (s : Scanner) (b : UInt8) : Scanner :=
  match s.place with
  | .text raw => if b = byte '<' then ⟨s.endText raw, .opened⟩ else s.go (.text (b :: raw))
  | .opened =>
    if b = byte '!' then s.go .bang
    else if b = byte '?' then s.go (.instruction [])
    else if b = byte '/' then s.go (.closing none [])
    else s.stepTag none [] b
  | .tag quote raw => s.stepTag quote raw b
  | .closing quote raw =>
    if b = byte '>' ∧ quote = none then s.emit (closingToken raw)
    else s.go (.closing (quoteAfter quote b) (b :: raw))
  | .bang =>
    if b = byte '-' then s.go (.comment [b])
    else if b = byte '[' then s.go (.literal [b])
    else if b = byte 'D' ∨ b = byte 'd' then s.go (.documentType 0 [b])
    else s.go .failed
  | .comment raw =>
    if b = byte '>' ∧ 4 ≤ raw.length ∧ (ascii "--").isPrefixOf raw then
      s.emit? (between? (ascii "--") (ascii "--") raw.reverse .comment)
    else s.go (.comment (b :: raw))
  | .literal raw =>
    if b = byte '>' ∧ (ascii "]]").isPrefixOf raw then
      s.emit? (between? (ascii "[CDATA[") (ascii "]]") raw.reverse .literal)
    else s.go (.literal (b :: raw))
  | .documentType depth raw =>
    if b = byte '<' then s.go (.documentType (depth + 1) (b :: raw))
    else if b = byte '>' then
      match depth with
      | 0 => s.emit? (documentType? raw.reverse)
      | depth + 1 => s.go (.documentType depth (b :: raw))
    else s.go (.documentType depth (b :: raw))
  | .instruction raw =>
    if b = byte '>' then
      match raw with
      | [] => s.go .failed
      | c :: rest =>
        if c = byte '?' then s.emit (.instruction rest.reverse)
        else s.go (.instruction (b :: raw))
    else s.go (.instruction (b :: raw))
  | .failed => s

/-- The scan at the end of a document; a part that is still open is not read. -/
def finish (s : Scanner) : Scan :=
  match s.place with
  | .text raw => ⟨(s.endText raw).reverse, true⟩
  | _ => ⟨s.tokens.reverse, false⟩

end Scanner

/-- The bytes without a byte order mark. -/
def dropMark (content : Bytes) : Bytes :=
  if [0xEF, 0xBB, 0xBF].isPrefixOf content then content.drop 3 else content

/-- Scans a document, a byte order mark aside. -/
def Scan.of (content : Bytes) : Scan := ((dropMark content).foldl Scanner.step {}).finish

end MessageConformance.Schema
