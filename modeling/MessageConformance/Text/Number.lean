/-!
# Numbers in settings

Unsigned numbers of 64 bits as they are written in settings: an optional plus sign
and at least one decimal digit.
-/

namespace MessageConformance.Text

/-- The first number beyond 64 bits. -/
def wordLimit : Nat := Nat.pow 2 64

/-- The value of a digit in a base up to sixteen. -/
def digit? (base : Nat) (c : Char) : Option Nat :=
  let value :=
    if '0' ≤ c ∧ c ≤ '9' then c.toNat - '0'.toNat
    else if 'a' ≤ c ∧ c ≤ 'f' then c.toNat - 'a'.toNat + 10
    else if 'A' ≤ c ∧ c ≤ 'F' then c.toNat - 'A'.toNat + 10
    else base
  if value < base then some value else none

/-- The number that a run of digits continues, `value` being what was read so far. -/
def digitsFrom (base : Nat) (value : Nat) : List Char → Option Nat
  | [] => some value
  | c :: cs => (digit? base c).bind fun d => digitsFrom base (value * base + d) cs

/-- The number that a non-empty run of digits denotes. -/
def digits? (base : Nat) : List Char → Option Nat
  | [] => none
  | cs => digitsFrom base 0 cs

/-- A number of 64 bits: digits after an optional plus sign. -/
def unsigned? (s : String) : Option Nat :=
  let digits := match s.toList with
    | '+' :: cs => cs
    | cs => cs
  (digits? 10 digits).filter (· < wordLimit)

end MessageConformance.Text
