/-!
# Fixed decimals

Durations and rates are printed with a fixed number of decimals. A double stands
for the exact fraction its bits denote, and the fraction is rounded to the nearest
decimal, a tie to the even digit.
-/

namespace MessageConformance.Text

/-- The quotient of two numbers, rounded to the nearest whole number, a tie to the
    even one. -/
def roundHalfEven (num den : Nat) : Nat :=
  let quotient := num / den
  let twice := 2 * (num % den)
  if twice > den ∨ (twice = den ∧ quotient % 2 = 1) then quotient + 1 else quotient

/-- The fraction `num / den` with a number of decimals. -/
def fixedDecimals (places num den : Nat) : String :=
  let unit := Nat.pow 10 places
  let scaled := roundHalfEven (num * unit) den
  let whole := toString (scaled / unit)
  let digits := (toString (scaled % unit)).toList
  if places = 0 then whole
  else whole ++ "." ++ String.ofList (List.replicate (places - digits.length) '0' ++ digits)

/-- The exact value of a finite non-negative double, as a fraction. -/
def exactFraction (x : Float) : Nat × Nat :=
  let bits := x.toBits.toNat
  let hidden := Nat.pow 2 52
  let exponent := bits / hidden % Nat.pow 2 11
  let fraction := bits % hidden
  let significand := if exponent = 0 then fraction else fraction + hidden
  let power := if exponent = 0 then 1 else exponent
  if power ≥ 1075 then (significand * Nat.pow 2 (power - 1075), 1)
  else (significand, Nat.pow 2 (1075 - power))

end MessageConformance.Text
