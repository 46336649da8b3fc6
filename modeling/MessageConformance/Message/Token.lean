import MessageConformance.Markup.Characters

/-!
# Tokens of a message

`Token.scan` cuts the text of a message into tags, character data, comments and
instructions. It reads one character at a time: the scanner keeps the tokens read so
far and the place inside the current one.
-/

namespace MessageConformance.Message

open Markup

/-- An attribute as written, its value not yet expanded. -/
structure RawAttribute where
  name : QualifiedName
  value : List Char
  deriving DecidableEq, Repr

/-- A part of a message. The characters of `text` may hold references, those of
    `literal` stand for themselves. -/
inductive Token where
  | opening (name : QualifiedName) (attributes : List RawAttribute) (isEmpty : Bool)
  | closing (name : QualifiedName)
  | text (raw : List Char)
  | literal (content : List Char)
  | comment (content : List Char)
  | instruction (content : List Char)
  deriving DecidableEq, Repr

/-- The part of a start tag that has been read, its attributes latest first. -/
structure Heading where
  name : QualifiedName
  attributes : List RawAttribute := []

/-- A place in a message. Characters of an unfinished part are held latest first. -/
inductive Place where
  | text (raw : List Char)
  | opened
  | elementName (raw : List Char)
  | gap (tag : Heading) (spaced : Bool)
  | attributeName (tag : Heading) (raw : List Char)
  | equals (tag : Heading) (name : QualifiedName)
  | quote (tag : Heading) (name : QualifiedName)
  | value (tag : Heading) (name : QualifiedName) (mark : Char) (raw : List Char)
  | slash (tag : Heading)
  | closingName (raw : List Char)
  | closed (name : QualifiedName)
  | bang (seen : List Char)
  | comment (raw : List Char)
  | literal (raw : List Char)
  | instruction (raw : List Char)
  | failed

/-- The tokens read so far, latest first, and the place after them. -/
structure Scanner where
  tokens : List Token := []
  place : Place := .text []

namespace Scanner

/-- Stays with the tokens read and moves on. -/
def go (s : Scanner) (place : Place) : Scanner := { s with place }

/-- Ends a token; character data follows. -/
def emit (s : Scanner) (token : Token) : Scanner := ⟨token :: s.tokens, .text []⟩

/-- Ends the run of character data before a tag. -/
def endText (s : Scanner) (raw : List Char) : List Token :=
  if raw.isEmpty then s.tokens else .text raw.reverse :: s.tokens

def afterPart (s : Scanner) (tag : Heading) (spaced : Bool) (c : Char) : Scanner :=
  if isSpace c then s.go (.gap tag true)
  else if c = '/' then s.go (.slash tag)
  else if c = '>' then s.emit (.opening tag.name tag.attributes.reverse false)
  else if spaced && isNameChar c then s.go (.attributeName tag [c])
  else s.go .failed

def afterName (s : Scanner) (tag : Heading) (name : QualifiedName) (c : Char) : Scanner :=
  if isSpace c then s.go (.equals tag name)
  else if c = '=' then s.go (.quote tag name)
  else s.go .failed

def afterClosing (s : Scanner) (name : QualifiedName) (c : Char) : Scanner :=
  if isSpace c then s.go (.closed name)
  else if c = '>' then s.emit (.closing name)
  else s.go .failed

/-- Ends a name, reads `c` after it as `next` does, and fails if it is no name. -/
def endName (s : Scanner) (raw : List Char) (next : QualifiedName → Scanner) : Scanner :=
  match QualifiedName.ofChars? raw.reverse with
  | some name => next name
  | none => s.go .failed

def step (s : Scanner) (c : Char) : Scanner :=
  match s.place with
  | .text raw =>
    if c = '<' then ⟨s.endText raw, .opened⟩
    else if c = '>' && [']', ']'].isPrefixOf raw then s.go .failed
    else s.go (.text (c :: raw))
  | .opened =>
    if c = '!' then s.go (.bang [])
    else if c = '?' then s.go (.instruction [])
    else if c = '/' then s.go (.closingName [])
    else if isNameChar c then s.go (.elementName [c])
    else s.go .failed
  | .elementName raw =>
    if isNameChar c then s.go (.elementName (c :: raw))
    else s.endName raw fun name => s.afterPart ⟨name, []⟩ false c
  | .gap tag spaced => s.afterPart tag spaced c
  | .attributeName tag raw =>
    if isNameChar c then s.go (.attributeName tag (c :: raw))
    else s.endName raw fun name => s.afterName tag name c
  | .equals tag name => s.afterName tag name c
  | .quote tag name =>
    if isSpace c then s
    else if c = '"' ∨ c = '\'' then s.go (.value tag name c [])
    else s.go .failed
  | .value tag name mark raw =>
    if c = mark then
      s.go (.gap { tag with attributes := ⟨name, raw.reverse⟩ :: tag.attributes } false)
    else if c = '<' then s.go .failed
    else s.go (.value tag name mark (c :: raw))
  | .slash tag =>
    if c = '>' then s.emit (.opening tag.name tag.attributes.reverse true) else s.go .failed
  | .closingName raw =>
    if isNameChar c then s.go (.closingName (c :: raw))
    else s.endName raw fun name => s.afterClosing name c
  | .closed name => s.afterClosing name c
  | .bang seen =>
    if c = '-' ∧ seen = ['-'] then s.go (.comment [])
    else if c = '[' ∧ seen = ['[', 'C', 'D', 'A', 'T', 'A'] then s.go (.literal [])
    else if (seen ++ [c]).isPrefixOf ['-', '-'] ||
        (seen ++ [c]).isPrefixOf ['[', 'C', 'D', 'A', 'T', 'A', '['] then
      s.go (.bang (seen ++ [c]))
    else s.go .failed
  | .comment raw =>
    if ['-', '-'].isPrefixOf raw then
      if c = '>' then s.emit (.comment (raw.drop 2).reverse) else s.go .failed
    else s.go (.comment (c :: raw))
  | .literal raw =>
    if c = '>' && [']', ']'].isPrefixOf raw then s.emit (.literal (raw.drop 2).reverse)
    else s.go (.literal (c :: raw))
  | .instruction raw =>
    if c = '>' && ['?'].isPrefixOf raw then s.emit (.instruction (raw.drop 1).reverse)
    else s.go (.instruction (c :: raw))
  | .failed => s

/-- The tokens at the end of the text; a part that is still open is an error. -/
def finish? (s : Scanner) : Option (List Token) :=
  match s.place with
  | .text raw => some (s.endText raw).reverse
  | _ => none

end Scanner

/-- The tokens of a text, in order. -/
def Token.scan (cs : List Char) : Option (List Token) := (cs.foldl Scanner.step {}).finish?

end MessageConformance.Message
