import MessageConformance.Text.Fixed

/-!
# Durations

A duration is a number of nanoseconds, of which there are at most as many as `limit`.
Sums beyond it and divisions by zero have no value.
-/

namespace MessageConformance

/-- A span of time in nanoseconds. -/
structure Duration where
  nanoseconds : Nat
  deriving DecidableEq, Repr

namespace Duration

def second : Nat := 1000000000

/-- The longest duration: all seconds that 64 bits count, and nearly one more. -/
def limit : Nat := (Nat.pow 2 64 - 1) * second + 999999999

def zero : Duration := ⟨0⟩

def of (seconds nanoseconds : Nat) : Duration := ⟨seconds * second + nanoseconds⟩

def seconds (d : Duration) : Nat := d.nanoseconds / second

/-- The nanoseconds of a duration beyond its whole seconds. -/
def subsecond (d : Duration) : Nat := d.nanoseconds % second

/-- Why a computation with durations has no value. -/
inductive Fault where
  | overflow
  | divideByZero
  deriving DecidableEq, Repr

def Fault.text : Fault → String
  | overflow => "overflow when adding durations"
  | divideByZero => "divide by zero error when dividing duration by scalar"

def add (a b : Duration) : Except Fault Duration :=
  if a.nanoseconds + b.nanoseconds ≤ limit then .ok ⟨a.nanoseconds + b.nanoseconds⟩
  else .error .overflow

/-- The sum of some durations, added in order. -/
def sum (ds : List Duration) : Except Fault Duration := ds.foldlM add zero

/-- A duration divided by a number, of which only 32 bits count, rounded down. -/
def divide (d : Duration) (divisor : Nat) : Except Fault Duration :=
  let divisor := divisor % Nat.pow 2 32
  if divisor = 0 then .error .divideByZero else .ok ⟨d.nanoseconds / divisor⟩

def asSeconds (d : Duration) : Float :=
  d.seconds.toUInt64.toFloat + d.subsecond.toUInt64.toFloat / 1000000000.0

/-- A duration in whole milliseconds, in seconds, or in minutes and seconds, whichever is
    the first to suit its size. -/
def text (d : Duration) : String :=
  let total := d.asSeconds
  if total < 1.0 then toString (d.nanoseconds / 1000000) ++ "ms"
  else
    let (num, den) := Text.exactFraction total
    if total < 60.0 then Text.fixedDecimals 2 num den ++ "s"
    else
      let minutes := (total / 60.0).toUInt64
      toString minutes ++ "m" ++ Text.fixedDecimals 1 (num % (60 * den)) den ++ "s"

end Duration
end MessageConformance
