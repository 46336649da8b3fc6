import MessageConformance.Failure
import MessageConformance.Message.Scope

/-!
# Reading messages

`Document.parse` reads a message: an optional declaration, and then the tokens,
which are put together into a tree. Adjacent pieces of text form one node. A message
with a document type is refused.
-/

namespace MessageConformance.Message

open Markup

/-! ## The declaration -/

/-- The rest after some characters that must come first. -/
def expect? (word : List Char) (cs : List Char) : Option (List Char) :=
  if word.isPrefixOf cs then some (cs.drop word.length) else none

def skipSpaces (cs : List Char) : List Char := cs.dropWhile isSpace

/-- The rest after an attribute of the declaration. -/
def skipAttribute? (cs : List Char) : Option (List Char) := do
  let _ ← QualifiedName.ofChars? (cs.takeWhile isNameChar)
  let rest ← expect? ['='] (skipSpaces (cs.dropWhile isNameChar))
  match skipSpaces rest with
  | mark :: rest =>
    if mark = '"' ∨ mark = '\'' then
      expect? [mark] (rest.dropWhile fun c => c != mark && c != '<')
    else none
  | [] => none

/-- The rest after the spaces that part the attributes of the declaration, which may be
    missing before its end. -/
def skipGap? (cs : List Char) : Option (List Char) :=
  match cs with
  | c :: _ => if isSpace c then some (skipSpaces cs)
    else if ['?', '>'].isPrefixOf cs then some cs else none
  | [] => none

/-- The rest after an attribute of the declaration and the gap after it, if the
    attribute is there. -/
def skipOptional? (word : String) (cs : List Char) : Option (List Char) :=
  if word.toList.isPrefixOf cs then skipAttribute? cs >>= skipGap? else some cs

/-- What every declaration begins with inside its marks. -/
def declarationWord : List Char := ['x', 'm', 'l', ' ']

/-- What every declaration begins with. -/
def declarationStart : List Char := '<' :: '?' :: declarationWord

/-- The rest of a text after its declaration, if it begins with one. -/
def skipDeclaration? (cs : List Char) : Option (List Char) :=
  if declarationStart.isPrefixOf cs then do
    let cs := skipSpaces (cs.drop declarationStart.length)
    let cs ← expect? "version".toList cs *> (skipAttribute? cs >>= skipGap?)
    let cs ← skipOptional? "encoding" cs
    let cs ← skipOptional? "standalone" cs
    expect? ['?', '>'] (skipSpaces cs)
  else some cs

/-! ## The tree -/

/-- An element that is being read: its name as written, its tag, and the nodes read so
    far, latest first. -/
structure OpenElement where
  label : QualifiedName
  tag : Tag
  nodes : List Node

/-- What has been read of a message: the nodes outside every element, latest first, and
    the elements that are still open, innermost first. -/
structure Builder where
  outside : List Node := []
  openElements : List OpenElement := []

namespace Builder

/-- The bindings in scope. -/
def scope (b : Builder) : List Binding := (b.openElements.head?.map (·.tag.scope)).getD []

/-- Adds a node to the element being read. -/
def add (b : Builder) (n : Node) : Builder :=
  match b.openElements with
  | [] => { b with outside := n :: b.outside }
  | e :: es => { b with openElements := { e with nodes := n :: e.nodes } :: es }

/-- Adds text after the latest node of an element, to that node if it is text. -/
def joinText (content : String) : List Node → List Node
  | .text before :: nodes => .text (before ++ content) :: nodes
  | nodes => .text content :: nodes

/-- Adds text to the element being read; there is none outside. -/
def addText? (b : Builder) (content : String) : Option Builder :=
  match b.openElements with
  | [] => none
  | e :: es => some { b with openElements := { e with nodes := joinText content e.nodes } :: es }

/-- Whether the characters of an instruction begin with its target, and not with the
    declaration. -/
def isInstruction (content : List Char) : Bool :=
  beginsAsTarget content && !declarationWord.isPrefixOf content

def step? (b : Builder) : Token → Option Builder
  | .opening label raw isEmpty => do
    let tag ← Tag.read? b.scope label raw
    if isEmpty then some (b.add (.element tag []))
    else some { b with openElements := ⟨label, tag, []⟩ :: b.openElements }
  | .closing label =>
    match b.openElements with
    | [] => none
    | e :: es =>
      if e.label = label then
        some ({ b with openElements := es }.add (.element e.tag e.nodes.reverse))
      else none
  | .text raw =>
    if b.openElements.isEmpty then (if raw.all isSpace then some b else none)
    else textValue? raw >>= b.addText?
  | .literal content => b.addText? (literalValue content)
  | .comment content => some (b.add (.comment (String.ofList content)))
  | .instruction content =>
    if isInstruction content then some (b.add (.instruction (String.ofList content))) else none

end Builder

/-- The message of some nodes outside every element: exactly one is an element. -/
def Document.ofNodes? (nodes : List Node) : Option Document :=
  match nodes.dropWhile fun n => !n.isElement with
  | .element tag content :: after =>
    if after.any (·.isElement) then none
    else some ⟨nodes.takeWhile fun n => !n.isElement, tag, content, after⟩
  | _ => none

/-- The message of some tokens. -/
def Document.ofTokens? (tokens : List Token) : Option Document := do
  let built ← tokens.foldlM Builder.step? {}
  if built.openElements.isEmpty then Document.ofNodes? built.outside.reverse else none

/-- The text without a byte order mark. -/
def dropMark : List Char → List Char
  | '\uFEFF' :: cs => cs
  | cs => cs

/-- The message of some characters. -/
def Document.ofChars? (cs : List Char) : Option Document := do
  let cs := dropMark cs
  if cs.all isCharacter then
    Document.ofTokens? (← Token.scan (← skipDeclaration? cs))
  else none

def Document.parse (s : String) : Except MessageFailure Document :=
  match Document.ofChars? s.toList with
  | some d => .ok d
  | none => .error (.malformed "the text is no well-formed message")

end MessageConformance.Message
