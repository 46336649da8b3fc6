import MessageConformance.Data.Value
import MessageConformance.Text.Number
import MessageConformance.Text.Split

/-!
# TOML scalars without quotation marks

Booleans, whole numbers, floating-point numbers, dates and times. What a fraction or a
date says is not kept, only that it is well formed.
-/

namespace MessageConformance.Data.Toml

/-- Whether every character is a digit of a base, single underscores between digits
    aside, and there is a digit. -/
def areDigits (base : Nat) (cs : List Char) : Bool :=
  (Text.pieces (· == '_') cs).all fun piece =>
    !piece.isEmpty && piece.all fun c => (Text.digit? base c).isSome

/-- The number that digits with underscores denote. -/
def digitsValue (base : Nat) (cs : List Char) : Nat :=
  (Text.digits? base (cs.filter (· != '_'))).getD 0

/-- Whether the digits of a whole number begin with a zero that is not all of them. -/
def hasLeadingZero (cs : List Char) : Bool := cs.head? = some '0' && cs.length > 1

/-- A sign and the rest after it. -/
def sign : List Char → Bool × List Char
  | '+' :: cs => (false, cs)
  | '-' :: cs => (true, cs)
  | cs => (false, cs)

/-- A whole number, if it lies between the bounds of 128 bits. -/
def bounded? (n : Int) : Option Value :=
  if -(Nat.pow 2 127 : Int) ≤ n ∧ n < (Nat.pow 2 128 : Int) then some (.integer n) else none

/-- A whole number in base ten. -/
def decimal? (cs : List Char) : Option Value :=
  let (isNegative, digits) := sign cs
  if areDigits 10 digits && !hasLeadingZero digits then
    let n : Int := digitsValue 10 digits
    bounded? (if isNegative then -n else n)
  else none

/-- A whole number whose base is written before it. -/
def based? : List Char → Option Value
  | '0' :: letter :: digits =>
    match (if letter = 'x' then some 16 else if letter = 'o' then some 8
      else if letter = 'b' then some 2 else none) with
    | some base => if areDigits base digits then bounded? (digitsValue base digits) else none
    | none => none
  | _ => none

/-! ## Fractions -/

/-- Whether `digits · 10^exponent` is too large for a double, that is, closer to `2^1024`
    than to the largest double, or beyond. -/
def overflows (digits : Nat) (exponent : Int) : Bool :=
  if digits = 0 then false
  else
    let order := (toString digits).length + exponent
    if order > 310 then true
    else if order < 300 then false
    else
      let bound := Nat.pow 2 1024 - Nat.pow 2 970
      if 0 ≤ exponent then digits * Nat.pow 10 exponent.toNat ≥ bound
      else digits ≥ bound * Nat.pow 10 (-exponent).toNat

/-- The parts of a number before and after its exponent mark, if it has one. -/
def cutExponent (cs : List Char) : List Char × Option (List Char) :=
  match Text.cutOnce (fun c => c == 'e' || c == 'E') cs with
  | some (before, after) => (before, some after)
  | none => (cs, none)

/-- A number with a fraction or an exponent, or one that is infinite or none. -/
def isFloat (cs : List Char) : Bool :=
  let unsigned := (sign cs).2
  if unsigned = ['i', 'n', 'f'] ∨ unsigned = ['n', 'a', 'n'] then true
  else
    let (significand, exponent?) := cutExponent unsigned
    let (whole, fraction?) := match Text.cutOnce (· == '.') significand with
      | some (whole, fraction) => (whole, some fraction)
      | none => (significand, none)
    let (isNegative, power) := sign (exponent?.getD [])
    let fraction := fraction?.getD []
    let places := (fraction.filter (· != '_')).length
    let magnitude : Int := digitsValue 10 power
    areDigits 10 whole && !hasLeadingZero whole && (fraction?.isNone || areDigits 10 fraction) &&
      (exponent?.isNone || areDigits 10 power) && (fraction?.isSome || exponent?.isSome) &&
      !overflows (digitsValue 10 (whole ++ fraction))
        ((if isNegative then -magnitude else magnitude) - places)

/-! ## Dates and times -/

/-- A number of a fixed count of digits, between bounds. -/
def numberIn? (count low high : Nat) (cs : List Char) : Option Nat :=
  if cs.length = count && cs.all Char.isDigit then
    (Text.digits? 10 cs).filter fun n => low ≤ n && n ≤ high
  else none

def daysIn (year month : Nat) : Nat :=
  if month = 2 then
    if year % 4 = 0 ∧ (year % 100 ≠ 0 ∨ year % 400 = 0) then 29 else 28
  else if month = 4 ∨ month = 6 ∨ month = 9 ∨ month = 11 then 30 else 31

/-- Whether characters are a date: year, month and day. -/
def isDate (cs : List Char) : Bool :=
  match Text.pieces (· == '-') cs with
  | [year, month, day] =>
    ((do
      let year ← numberIn? 4 0 9999 year
      let month ← numberIn? 2 1 12 month
      numberIn? 2 1 (daysIn year month) day) : Option Nat).isSome
  | _ => false

/-- Whether characters are seconds, with a fraction or without. -/
def areSeconds (cs : List Char) : Bool :=
  match Text.cutOnce (· == '.') cs with
  | some (whole, fraction) =>
    (numberIn? 2 0 60 whole).isSome && !fraction.isEmpty && fraction.all Char.isDigit
  | none => (numberIn? 2 0 60 cs).isSome

/-- Whether characters are a time of day: hours, minutes, and seconds, which may be left
    out. -/
def isTime (cs : List Char) : Bool :=
  match Text.pieces (· == ':') cs with
  | [hours, minutes] => (numberIn? 2 0 23 hours).isSome && (numberIn? 2 0 59 minutes).isSome
  | [hours, minutes, seconds] =>
    (numberIn? 2 0 23 hours).isSome && (numberIn? 2 0 59 minutes).isSome && areSeconds seconds
  | _ => false

/-- Whether characters are a time of day with a shift from universal time. -/
def isShiftedTime (cs : List Char) : Bool :=
  match cs.getLast? with
  | some 'Z' | some 'z' => isTime cs.dropLast
  | _ =>
    let shift := cs.drop (cs.length - 6)
    (shift.head? = some '+' || shift.head? = some '-') && isTime (cs.take (cs.length - 6)) &&
      match Text.pieces (· == ':') (shift.drop 1) with
      | [hours, minutes] =>
        (numberIn? 2 0 23 hours).isSome && (numberIn? 2 0 59 minutes).isSome
      | _ => false

/-- Whether characters are a date, a time, or both. -/
def isMoment (cs : List Char) : Bool :=
  isDate cs || isTime cs ||
    (isDate (cs.take 10) &&
      match cs.drop 10 with
      | c :: time => (c == 'T' || c == 't' || c == ' ') && (isTime time || isShiftedTime time)
      | [] => false)

/-- A date or time as settings see it: a record with no field that they know. -/
def moment (cs : List Char) : Value := .record [("moment", .text (String.ofList cs))]

/-! ## Scalars -/

/-- The value of a scalar without quotation marks. -/
def scalar? (cs : List Char) : Option Value :=
  if cs = ['t', 'r', 'u', 'e'] then some (.boolean true)
  else if cs = ['f', 'a', 'l', 's', 'e'] then some (.boolean false)
  else if isMoment cs then some (moment cs)
  else if isFloat cs then some .foreign
  else (decimal? cs).or (based? cs)

end MessageConformance.Data.Toml
