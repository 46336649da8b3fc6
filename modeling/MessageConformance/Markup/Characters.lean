/-!
# Characters of markup

The character classes of XML 1.0, fifth edition: what may occur in a document at
all, its four spaces, and the characters of names.
-/

namespace MessageConformance.Markup

def isCharacter (c : Char) : Bool :=
  if c.toNat < 0x20 then c == '\t' || c == '\n' || c == '\r'
  else c.toNat != 0xFFFE && c.toNat != 0xFFFF

def isSpace (c : Char) : Bool := c == ' ' || c == '\t' || c == '\n' || c == '\r'

/-- Whether a number lies in one of some ranges. -/
def within (ranges : List (Nat × Nat)) (n : Nat) : Bool :=
  ranges.any fun (first, last) => first ≤ n && n ≤ last

/-- The characters that begin a name, the colon aside. -/
def nameStartRanges : List (Nat × Nat) := [
  (0x41, 0x5A), (0x5F, 0x5F), (0x61, 0x7A), (0xC0, 0xD6), (0xD8, 0xF6), (0xF8, 0x2FF),
  (0x370, 0x37D), (0x37F, 0x1FFF), (0x200C, 0x200D), (0x2070, 0x218F), (0x2C00, 0x2FEF),
  (0x3001, 0xD7FF), (0xF900, 0xFDCF), (0xFDF0, 0xFFFD), (0x10000, 0xEFFFF)]

/-- The further characters that continue a name. -/
def nameExtraRanges : List (Nat × Nat) := [
  (0x2D, 0x2E), (0x30, 0x39), (0xB7, 0xB7), (0x300, 0x36F), (0x203F, 0x2040)]

/-- Whether a character begins a name, the colon aside. -/
def isNameStart (c : Char) : Bool := within nameStartRanges c.toNat

/-- Whether a character continues a name, the colon aside. -/
def isNamePart (c : Char) : Bool := isNameStart c || within nameExtraRanges c.toNat

def isNameChar (c : Char) : Bool := c == ':' || isNamePart c

/-- A name as it is written: a label before the colon, empty if there is none, and a
    local name. -/
structure QualifiedName where
  label : String
  localName : String
  deriving DecidableEq, Repr

/-- Whether characters without a colon are empty or begin as a name does. -/
def beginsAsName (cs : List Char) : Bool := (cs.head?.map isNameStart).getD true

/-- Reads a run of name characters as a qualified name: at most one colon, and each
    part begins as a name does; the label may be empty even when there is a colon. -/
def QualifiedName.ofChars? (cs : List Char) : Option QualifiedName :=
  let label := cs.takeWhile (· != ':')
  let after := (cs.dropWhile (· != ':')).drop 1
  let (label, localName) := if cs.contains ':' then (label, after) else ([], cs)
  if localName.contains ':' || localName.isEmpty || !beginsAsName label ||
      !beginsAsName localName then none
  else some ⟨String.ofList label, String.ofList localName⟩

/-- Whether a run of name characters begins as the target of an instruction does. -/
def beginsAsTarget (cs : List Char) : Bool :=
  (cs.head?.map fun c => c == ':' || isNameStart c).getD false

end MessageConformance.Markup
