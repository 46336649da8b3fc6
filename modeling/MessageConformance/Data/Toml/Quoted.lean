import MessageConformance.Text.Number

/-!
# TOML texts

Texts in one or three quotation marks of either kind. Backslashes have a meaning in double
marks only. Each reader takes what follows the opening marks, and gives the text and the
rest after the closing ones.
-/

namespace MessageConformance.Data.Toml

/-- Whether a character may be written as it is inside a text of one line. -/
def isPlain (c : Char) : Bool := (c.toNat ≥ 0x20 && c.toNat != 0x7F) || c == '\t'

/-- What a letter after a backslash stands for. -/
def escaped? : Char → Option Char
  | '"' => some '"'
  | '\\' => some '\\'
  | 'b' => some (Char.ofNat 8)
  | 't' => some '\t'
  | 'n' => some '\n'
  | 'f' => some (Char.ofNat 12)
  | 'r' => some '\r'
  | 'e' => some (Char.ofNat 27)
  | _ => none

/-- The character of a number in base sixteen. -/
def codePoint? (digits : List Char) : Option Char :=
  (Text.digits? 16 digits).bind fun n => if n.isValidChar then some (Char.ofNat n) else none

/-- The character that an escape after a backslash stands for, and the rest. -/
def escape? : List Char → Option (Char × List Char)
  | 'x' :: a :: b :: cs => (codePoint? [a, b]).map (·, cs)
  | 'u' :: a :: b :: c :: d :: cs => (codePoint? [a, b, c, d]).map (·, cs)
  | 'U' :: a :: b :: c :: d :: e :: f :: g :: h :: cs =>
    (codePoint? [a, b, c, d, e, f, g, h]).map (·, cs)
  | c :: cs => (escaped? c).map (·, cs)
  | [] => none

/-- A text of one line in single quotation marks. -/
def literal? (cs : List Char) : Option (String × List Char) :=
  let content := cs.takeWhile (· != '\'')
  match cs.drop content.length with
  | _ :: rest => if content.all isPlain then some (String.ofList content, rest) else none
  | [] => none

def basicFrom (fuel : Nat) (cs : List Char) : Option (List Char × List Char) :=
  match fuel with
  | 0 => none
  | fuel + 1 =>
    match cs with
    | [] => none
    | '"' :: rest => some ([], rest)
    | '\\' :: rest => do
      let (c, rest) ← escape? rest
      let (text, rest) ← basicFrom fuel rest
      return (c :: text, rest)
    | c :: rest =>
      if isPlain c then (basicFrom fuel rest).map fun (text, rest) => (c :: text, rest) else none

/-- A text of one line in double quotation marks. -/
def basic? (cs : List Char) : Option (String × List Char) :=
  (basicFrom (cs.length + 1) cs).map fun (text, rest) => (String.ofList text, rest)

/-- The rest after a line end, if there is one. -/
def lineEnd? : List Char → Option (List Char)
  | '\n' :: cs => some cs
  | '\r' :: '\n' :: cs => some cs
  | _ => none

/-- The rest after the line end that may follow the opening marks of a long text. -/
def skipFirstLineEnd (cs : List Char) : List Char := (lineEnd? cs).getD cs

def marks (mark : Char) (cs : List Char) : Nat := (cs.takeWhile (· == mark)).length

/-- The end of a long text: of three to five marks the last three close it. -/
def closing? (mark : Char) (cs : List Char) : Option (List Char × List Char) :=
  let count := marks mark cs
  if 3 ≤ count ∧ count ≤ 5 then some (List.replicate (count - 3) mark, cs.drop count) else none

/-- The rest after a backslash at the end of a line, together with the white space and
    line ends that follow; `none` if the line goes on. -/
def continued? (cs : List Char) : Option (List Char) :=
  let rest := cs.dropWhile fun c => c == ' ' || c == '\t'
  (lineEnd? rest).map fun rest =>
    rest.dropWhile fun c => c == ' ' || c == '\t' || c == '\n' || c == '\r'

/-- The characters of a text in three quotation marks. Only in double ones has a backslash
    a meaning. -/
def longFrom (mark : Char) (fuel : Nat) (cs : List Char) : Option (List Char × List Char) :=
  match fuel with
  | 0 => none
  | fuel + 1 =>
    match cs with
    | [] => none
    | '\r' :: '\n' :: rest =>
      (longFrom mark fuel rest).map fun (text, rest) => ('\r' :: '\n' :: text, rest)
    | c :: rest =>
      if c = mark then
        (closing? mark cs).or <|
          if marks mark cs < 3 then
            (longFrom mark fuel rest).map fun (text, rest) => (mark :: text, rest)
          else none
      else if c = '\\' ∧ mark = '"' then
        match continued? rest with
        | some rest => longFrom mark fuel rest
        | none => do
          let (c, rest) ← escape? rest
          let (text, rest) ← longFrom mark fuel rest
          return (c :: text, rest)
      else if isPlain c || c == '\n' then
        (longFrom mark fuel rest).map fun (text, rest) => (c :: text, rest)
      else none

/-- A text in three quotation marks. -/
def long? (mark : Char) (cs : List Char) : Option (String × List Char) :=
  (longFrom mark (cs.length + 1) (skipFirstLineEnd cs)).map fun (text, rest) =>
    (String.ofList text, rest)

end MessageConformance.Data.Toml
