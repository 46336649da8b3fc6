import MessageConformance.CommandLine.Arguments

/-!
# Reading command lines

Words are read from left to right. A value that stands in a word of its own is looked at
only when the next argument begins or the words end, so a word that is not known is
reported before a value that is wrong.
-/

namespace MessageConformance.CommandLine

/-- A command line that is being read: what was given, the argument whose value is not
    settled, whether that value is still to come, whether only the path can follow, and
    whether the path has been seen. -/
structure Reader where
  given : Given := {}
  pending : Option (Slot × Option String) := none
  awaits : Bool := false
  onlyPath : Bool := false
  pathSeen : Bool := false

namespace Reader

/-- Settles the pending value; a value that did not come is a fault. -/
def settle (r : Reader) : Except UsageFault Reader :=
  match r.pending with
  | none => .ok r
  | some (_, none) => .error .invalidValue
  | some (slot, some value) => do
    return { r with given := ← r.given.set slot value, pending := none }

def raise (r : Reader) (flag : Flag) : Except UsageFault Reader := do
  let r ← r.settle
  return { r with given := ← r.given.raise flag, awaits := false }

/-- Reads an argument together with its value. -/
def attach (r : Reader) (slot : Slot) (value : String) : Except UsageFault Reader := do
  let r ← r.settle
  return { r with given := ← r.given.set slot value, awaits := false }

/-- Reads an argument whose value is in the next word. -/
def await (r : Reader) (slot : Slot) : Except UsageFault Reader := do
  let r ← r.settle
  return { r with pending := some (slot, none), awaits := true }

/-- Reads a long name, and what follows the equals sign after it. -/
def long (r : Reader) (name : String) (value? : Option String) : Except UsageFault Reader :=
  match Switch.ofLong? name, value? with
  | none, _ => .error .unknownArgument
  | some (.flag _), some _ => .error .tooManyValues
  | some (.flag flag), none => r.raise flag
  | some (.slot slot), some value => r.attach slot value
  | some (.slot slot), none => r.await slot

/-- Reads letters. What follows the letter of an argument that takes a value is its value,
    without the equals sign that it may begin with. -/
def short (r : Reader) : List Char → Except UsageFault Reader
  | [] => .ok r
  | letter :: rest =>
    match Switch.ofShort? letter with
    | none => .error .unknownArgument
    | some (.flag flag) => r.raise flag >>= fun r => short r rest
    | some (.slot slot) =>
      match rest with
      | [] => r.await slot
      | '=' :: value => r.attach slot (String.ofList value)
      | value => r.attach slot (String.ofList value)

/-- Reads a word that is no name: the value that is awaited, or the path. -/
def plain (r : Reader) (word : String) : Except UsageFault Reader :=
  match r.awaits && !r.onlyPath, r.pending with
  | true, some (slot, _) => .ok { r with pending := some (slot, some word), awaits := false }
  | _, _ =>
    if r.pathSeen then .error .unknownArgument
    else do
      let r ← r.settle
      return { r with pending := some (.path, some word), awaits := false, pathSeen := true }

def step (r : Reader) (word : String) : Except UsageFault Reader :=
  if r.onlyPath then r.plain word
  else match word.toList with
    | ['-', '-'] => .ok { r with onlyPath := true }
    | '-' :: '-' :: rest =>
      match Text.cutOnce (· == '=') rest with
      | some (name, value) => r.long (String.ofList name) (some (String.ofList value))
      | none => r.long (String.ofList rest) none
    | '-' :: c :: rest => r.short (c :: rest)
    | _ => r.plain word

end Reader

/-- The arguments that words give. -/
def parse (words : List String) : Except UsageFault Arguments := do
  let r ← words.foldlM Reader.step {}
  let r ← r.settle
  r.given.finish

end MessageConformance.CommandLine
