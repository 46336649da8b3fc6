import MessageConformance.Data.Value
import MessageConformance.Text.Number

/-!
# Reading JSON

Texts are read as lists of code points, surrogates included, and joined afterwards, so
that a text that stands for no characters is known and can be passed over. A reader gives
the value and the rest after it.
-/

namespace MessageConformance.Data.Json

def isSpace (c : Char) : Bool := c == ' ' || c == '\t' || c == '\n' || c == '\r'

def skipSpaces (cs : List Char) : List Char := cs.dropWhile isSpace

/-! ## Texts -/

/-- What a character after a backslash stands for. -/
def escaped? : Char → Option Nat
  | '"' => some 0x22
  | '\\' => some 0x5C
  | '/' => some 0x2F
  | 'b' => some 0x8
  | 'f' => some 0xC
  | 'n' => some 0xA
  | 'r' => some 0xD
  | 't' => some 0x9
  | _ => none

/-- The code points of a text after its opening quotation mark, and the rest after its
    closing one. -/
def codePoints : List Char → Option (List Nat × List Char)
  | [] => none
  | '"' :: cs => some ([], cs)
  | '\\' :: 'u' :: a :: b :: c :: d :: cs => do
    let n ← Text.digits? 16 [a, b, c, d]
    let (ns, rest) ← codePoints cs
    return (n :: ns, rest)
  | '\\' :: c :: cs => do
    let n ← escaped? c
    let (ns, rest) ← codePoints cs
    return (n :: ns, rest)
  | c :: cs =>
    if c.toNat < 0x20 then none
    else do
      let (ns, rest) ← codePoints cs
      return (c.toNat :: ns, rest)

/-- Whether a code point is the first half of a pair. -/
def isHigh (n : Nat) : Bool := 0xD800 ≤ n && n < 0xDC00

/-- Whether a code point is the second half of a pair. -/
def isLow (n : Nat) : Bool := 0xDC00 ≤ n && n < 0xE000

/-- Joins pairs; `none` if a half stands alone. -/
def join? : List Nat → Option (List Char)
  | [] => some []
  | [n] => if n.isValidChar then some [Char.ofNat n] else none
  | n :: m :: ns =>
    if isHigh n && isLow m then
      (join? ns).map (Char.ofNat (0x10000 + (n - 0xD800) * 0x400 + (m - 0xDC00)) :: ·)
    else if n.isValidChar then (join? (m :: ns)).map (Char.ofNat n :: ·)
    else none

/-- The text of some code points, if they stand for one. -/
def text? (ns : List Nat) : Option String := (join? ns).map String.ofList

/-! ## Numbers -/

/-- Splits off the digits that some characters begin with, of which there is one at
    least. -/
def digits? (cs : List Char) : Option (List Char × List Char) :=
  match cs.takeWhile Char.isDigit with
  | [] => none
  | digits => some (digits, cs.dropWhile Char.isDigit)

/-- The rest after a fraction, if there is one. -/
def skipFraction? : List Char → Option (List Char)
  | '.' :: cs => (digits? cs).map (·.2)
  | cs => some cs

/-- The rest after an exponent, if there is one. -/
def skipExponent? : List Char → Option (List Char)
  | c :: cs =>
    if c = 'e' ∨ c = 'E' then
      let cs := match cs with
        | '+' :: rest => rest
        | '-' :: rest => rest
        | rest => rest
      (digits? cs).map (·.2)
    else some (c :: cs)
  | [] => some []

/-- The value of a whole number as written. Minus zero is no integer. -/
def whole (isNegative : Bool) (digits : List Char) : Value :=
  let n := (Text.digits? 10 digits).getD 0
  if !isNegative then .integer n else if n = 0 then .foreign else .integer (-(n : Int))

def number? (cs : List Char) : Option (Value × List Char) := do
  let (isNegative, cs) := match cs with
    | '-' :: rest => (true, rest)
    | rest => (false, rest)
  let (digits, rest) ← digits? cs
  if digits.length > 1 && digits.head? = some '0' then none
  else
    let after ← skipFraction? rest >>= skipExponent?
    return (if after.length = rest.length then whole isNegative digits else .foreign, after)

/-! ## Values -/

/-- The rest after a word that must come first. -/
def expect? (word : List Char) (cs : List Char) : Option (List Char) :=
  if word.isPrefixOf cs then some (cs.drop word.length) else none

/-- A record, foreign when a name in it stands for no characters. -/
def recordOf (fields : List (Option String × Value)) : Value :=
  match fields.mapM fun (name?, v) => name?.map (·, v) with
  | some fields => .record fields
  | none => .foreign

mutual

/-- Reads a value. `fuel` bounds the steps. -/
def value? (fuel : Nat) (cs : List Char) : Option (Value × List Char) :=
  match fuel with
  | 0 => none
  | fuel + 1 =>
    match skipSpaces cs with
    | '[' :: cs =>
      match skipSpaces cs with
      | ']' :: cs => some (.list [], cs)
      | cs => (items? fuel cs).map fun (items, rest) => (.list items, rest)
    | '{' :: cs =>
      match skipSpaces cs with
      | '}' :: cs => some (.record [], cs)
      | cs => (members? fuel cs).map fun (fields, rest) => (recordOf fields, rest)
    | '"' :: cs =>
      (codePoints cs).map fun (ns, rest) => (((text? ns).map Value.text).getD .foreign, rest)
    | 'n' :: cs => (expect? ['u', 'l', 'l'] cs).map (.null, ·)
    | 't' :: cs => (expect? ['r', 'u', 'e'] cs).map (.boolean true, ·)
    | 'f' :: cs => (expect? ['a', 'l', 's', 'e'] cs).map (.boolean false, ·)
    | cs => number? cs

/-- Reads the items of a list up to its closing bracket; there is one at least. -/
def items? (fuel : Nat) (cs : List Char) : Option (List Value × List Char) :=
  match fuel with
  | 0 => none
  | fuel + 1 => do
    let (item, cs) ← value? fuel cs
    match skipSpaces cs with
    | ']' :: cs => return ([item], cs)
    | ',' :: cs => (items? fuel cs).map fun (items, rest) => (item :: items, rest)
    | _ => none

/-- Reads the fields of a record up to its closing brace; there is one at least. -/
def members? (fuel : Nat) (cs : List Char) : Option (List (Option String × Value) × List Char) :=
  match fuel with
  | 0 => none
  | fuel + 1 => do
    let cs ← expect? ['"'] (skipSpaces cs)
    let (name, cs) ← codePoints cs
    let cs ← expect? [':'] (skipSpaces cs)
    let (v, cs) ← value? fuel cs
    match skipSpaces cs with
    | '}' :: cs => return ([(text? name, v)], cs)
    | ',' :: cs =>
      (members? fuel cs).map fun (fields, rest) => ((text? name, v) :: fields, rest)
    | _ => none

end

/-- Reads a text that holds one value. Every two steps pass over a character, so twice the
    length of the text is fuel enough. -/
def parse? (s : String) : Option Value := do
  let cs := s.toList
  let (v, rest) ← value? (2 * cs.length + 2) cs
  if (skipSpaces rest).isEmpty then some v else none

end MessageConformance.Data.Json
