import MessageConformance.Data.Toml.Quoted
import MessageConformance.Data.Toml.Scalar
import MessageConformance.Data.Toml.Tables

/-!
# Reading TOML

A document is a sequence of headers and assignments, one a line. The parts are read in
order and then put together (`ofStatements?`).
-/

namespace MessageConformance.Data.Toml

/-! ## Between tokens -/

def skipBlanks (cs : List Char) : List Char := cs.dropWhile fun c => c == ' ' || c == '\t'

/-- The rest after spaces, line ends and comments; `none` if a comment holds a character
    that it may not. -/
def skipGap (inComment : Bool) : List Char → Option (List Char)
  | [] => some []
  | '\n' :: cs => skipGap false cs
  | '\r' :: '\n' :: cs => skipGap false cs
  | c :: cs =>
    if inComment then (if isPlain c then skipGap true cs else none)
    else if c = ' ' ∨ c = '\t' then skipGap false cs
    else if c = '#' then skipGap true cs
    else some (c :: cs)

/-- The rest after the end of a line, with a comment before it or without. -/
def endLine? (cs : List Char) : Option (List Char) :=
  match skipBlanks cs with
  | [] => some []
  | '#' :: cs => skipGap true cs
  | cs => lineEnd? cs >>= skipGap false

/-- The rest after a character that must come first. -/
def expect? (c : Char) : List Char → Option (List Char)
  | d :: cs => if d = c then some cs else none
  | [] => none

/-! ## Keys -/

def isKeyChar (c : Char) : Bool := c.isAlphanum || c == '_' || c == '-'

def key? (cs : List Char) : Option (String × List Char) :=
  match cs with
  | '"' :: rest => basic? rest
  | '\'' :: rest => literal? rest
  | _ =>
    match cs.takeWhile isKeyChar with
    | [] => none
    | key => some (String.ofList key, cs.dropWhile isKeyChar)

/-- Reads keys with dots between them: the path and the last key. -/
def keys? (fuel : Nat) (cs : List Char) : Option ((List String × String) × List Char) :=
  match fuel with
  | 0 => none
  | fuel + 1 => do
    let (key, cs) ← key? (skipBlanks cs)
    match skipBlanks cs with
    | '.' :: cs => (keys? fuel cs).map fun ((path, last), rest) => ((key :: path, last), rest)
    | cs => return (([], key), cs)

/-- Reads a key, dotted or not, up to its equals sign. -/
def assigned? (cs : List Char) : Option ((List String × String) × List Char) := do
  let (keys, cs) ← keys? (cs.length + 1) cs
  return (keys, skipBlanks (← expect? '=' cs))

/-! ## Values -/

def endsScalar (c : Char) : Bool :=
  [' ', '\t', '\n', '\r', ',', ']', '}', '#', '"', '\'', '[', '{', '='].contains c

/-- Splits off a scalar without quotation marks. A date may be followed by a space and a
    time. -/
def cutScalar (cs : List Char) : List Char × List Char :=
  let first := cs.takeWhile fun c => !endsScalar c
  let rest := cs.drop first.length
  match rest with
  | ' ' :: d :: more =>
    if isDate first && d.isDigit then
      let time := (d :: more).takeWhile fun c => !endsScalar c
      (first ++ ' ' :: time, (d :: more).drop time.length)
    else (first, rest)
  | _ => (first, rest)

/-- How deep lists and tables may stand in each other on one line. -/
def depthLimit : Nat := 80

mutual

/-- Reads a value at some depth. `fuel` bounds the steps. -/
def value? (fuel depth : Nat) (cs : List Char) : Option (Value × List Char) :=
  match fuel with
  | 0 => none
  | fuel + 1 =>
    match cs with
    | '"' :: '"' :: '"' :: rest => (long? '"' rest).map fun (s, rest) => (.text s, rest)
    | '\'' :: '\'' :: '\'' :: rest => (long? '\'' rest).map fun (s, rest) => (.text s, rest)
    | '"' :: rest => (basic? rest).map fun (s, rest) => (.text s, rest)
    | '\'' :: rest => (literal? rest).map fun (s, rest) => (.text s, rest)
    | '[' :: rest =>
      if depth < depthLimit then
        (items? fuel (depth + 1) rest).map fun (items, rest) => (.list items, rest)
      else none
    | '{' :: rest =>
      if depth < depthLimit then
        (fields? fuel (depth + 1) [] rest).map fun (entries, rest) =>
          (.record (Item.entryValues entries), rest)
      else none
    | _ =>
      let (scalar, rest) := cutScalar cs
      (scalar? scalar).map (·, rest)

/-- Reads the items of a list up to its closing bracket. -/
def items? (fuel depth : Nat) (cs : List Char) : Option (List Value × List Char) :=
  match fuel with
  | 0 => none
  | fuel + 1 => do
    match ← skipGap false cs with
    | ']' :: rest => return ([], rest)
    | cs =>
      let (v, cs) ← value? fuel depth cs
      match ← skipGap false cs with
      | ']' :: rest => return ([v], rest)
      | ',' :: rest => (items? fuel depth rest).map fun (vs, rest) => (v :: vs, rest)
      | _ => none

/-- Reads the fields of an inline table up to its closing brace, adding to its entries. -/
def fields? (fuel depth : Nat) (entries : Entries) (cs : List Char) :
    Option (Entries × List Char) :=
  match fuel with
  | 0 => none
  | fuel + 1 => do
    match ← skipGap false cs with
    | '}' :: rest => return (entries, rest)
    | cs =>
      let ((path, key), cs) ← assigned? cs
      let (v, cs) ← value? fuel depth cs
      let entries ← Entries.assign? path key v entries
      match ← skipGap false cs with
      | '}' :: rest => return (entries, rest)
      | ',' :: rest => fields? fuel depth entries rest
      | _ => none

end

/-! ## Documents -/

/-- Reads a header after its first bracket, up to the end of its line. -/
def header? (cs : List Char) : Option (Statement × List Char) := do
  let (isElement, cs) := match cs with
    | '[' :: rest => (true, rest)
    | rest => (false, rest)
  let ((path, key), cs) ← keys? (cs.length + 1) cs
  let cs ← expect? ']' cs
  let cs ← if isElement then expect? ']' cs else some cs
  return (.header path key isElement, cs)

/-- Reads an assignment. Every two steps of a value pass over a character. -/
def assignment? (cs : List Char) : Option (Statement × List Char) := do
  let ((path, key), cs) ← assigned? cs
  let (v, cs) ← value? (2 * cs.length + 2) 0 cs
  return (.assignment path key v, cs)

/-- Reads the headers and assignments of a document. -/
def statements? (fuel : Nat) (cs : List Char) : Option (List Statement) :=
  match fuel with
  | 0 => none
  | fuel + 1 =>
    match cs with
    | [] => some []
    | c :: rest => do
      let (statement, cs) ← if c = '[' then header? rest else assignment? cs
      let statements ← statements? fuel (← endLine? cs)
      return statement :: statements

/-- Reads a document, a byte order mark aside. -/
def parse? (s : String) : Option Value := do
  let cs := match s.toList with
    | '\uFEFF' :: cs => cs
    | cs => cs
  let cs ← skipGap false cs
  ofStatements? (← statements? (cs.length + 1) cs)

end MessageConformance.Data.Toml
