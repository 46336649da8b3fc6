import MessageConformance.Text.Fixed

/-!
# Shortest decimals

The decimal with the fewest places that reads back as a given double.
-/

namespace MessageConformance.Text

/-- The whole number of units of the last place that is nearest to a double. -/
def nearestAt (places : Nat) (x : Float) : Nat :=
  let (num, den) := exactFraction x
  roundHalfEven (num * Nat.pow 10 places) den

/-- The most places that a search for a shortest decimal tries. -/
def placesLimit : Nat := 400

/-- The shortest decimal of a finite double that is not negative: a whole number of units,
    and the number of places. -/
def shortestDecimal (x : Float) : Nat × Nat :=
  let readsBack (places : Nat) : Bool :=
    Float.ofScientific (nearestAt places x) true places == x
  let places := ((List.range placesLimit).find? readsBack).getD placesLimit
  (nearestAt places x, places)

end MessageConformance.Text
