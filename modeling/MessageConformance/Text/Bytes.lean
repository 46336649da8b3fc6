/-!
# Bytes and the text they encode

Schemas and messages arrive as bytes that need not be UTF-8. `text?` reads valid
UTF-8 only, and `firstFault` tells where other bytes stop being valid; `lossyText`
puts U+FFFD for every maximal ill-formed part, as the Unicode standard recommends.
-/

namespace MessageConformance

/-- The content of a document, byte by byte. -/
abbrev Bytes := List UInt8

namespace Bytes

def ofText (s : String) : Bytes := s.toUTF8.data.toList

/-- The byte of an ASCII character. -/
def byte (c : Char) : UInt8 := UInt8.ofNat c.toNat

/-- The bytes of an ASCII text. -/
def ascii (s : String) : Bytes := s.toList.map byte

/-- The text that the bytes encode, if they are well-formed UTF-8. -/
def text? (bytes : Bytes) : Option String := String.fromUTF8? ⟨bytes.toArray⟩

/-- An encoded character of which some bytes are still missing: the bits read so
    far, the number of bytes to come, and the bounds of the next one. -/
structure Pending where
  bits : Nat
  missing : Nat
  low : UInt8
  high : UInt8

/-- What a byte that begins a character leaves to be read; `none` if none begins
    with it. An ASCII byte leaves nothing missing. -/
def Pending.start? (b : UInt8) : Option Pending :=
  let bits (mask : UInt8) : Nat := (b &&& mask).toNat
  if b < 0x80 then some ⟨b.toNat, 0, 0, 0⟩
  else if b < 0xC2 then none
  else if b < 0xE0 then some ⟨bits 0x1F, 1, 0x80, 0xBF⟩
  else if b == 0xE0 then some ⟨bits 0x0F, 2, 0xA0, 0xBF⟩
  else if b == 0xED then some ⟨bits 0x0F, 2, 0x80, 0x9F⟩
  else if b < 0xF0 then some ⟨bits 0x0F, 2, 0x80, 0xBF⟩
  else if b == 0xF0 then some ⟨bits 0x07, 3, 0x90, 0xBF⟩
  else if b < 0xF4 then some ⟨bits 0x07, 3, 0x80, 0xBF⟩
  else if b == 0xF4 then some ⟨bits 0x07, 3, 0x80, 0x8F⟩
  else none

/-- The replacement for an ill-formed part. -/
def replacement : Char := '\uFFFD'

/-- Reads a byte where a character may begin. -/
def lossyStart (b : UInt8) : List Char × Option Pending :=
  match Pending.start? b with
  | none => ([replacement], none)
  | some p => if p.missing = 0 then ([Char.ofNat p.bits], none) else ([], some p)

/-- Reads one byte: the characters that are now complete or given up, and the one
    that is still being read. -/
def lossyStep : Option Pending → UInt8 → List Char × Option Pending
  | none, b => lossyStart b
  | some p, b =>
    if p.low ≤ b ∧ b ≤ p.high then
      let bits := p.bits * 64 + (b &&& 0x3F).toNat
      if p.missing = 1 then ([Char.ofNat bits], none)
      else ([], some ⟨bits, p.missing - 1, 0x80, 0xBF⟩)
    else
      let (cs, next) := lossyStart b
      (replacement :: cs, next)

/-- The characters of the bytes from a state of the reader on. -/
def lossyFrom : Option Pending → Bytes → List Char
  | none, [] => []
  | some _, [] => [replacement]
  | state, b :: bs =>
    let (cs, next) := lossyStep state b
    cs ++ lossyFrom next bs

/-- The text of the bytes, with U+FFFD for each maximal ill-formed part. -/
def lossyText (bytes : Bytes) : String :=
  match bytes.text? with
  | some s => s
  | none => String.ofList (lossyFrom none bytes)

/-- Where bytes stop being UTF-8: how many come before, and how many make up the
    ill-formed part, unless the bytes end within a character. -/
structure Fault where
  index : Nat
  length : Option Nat
  deriving DecidableEq, Repr

def Fault.text (f : Fault) : String :=
  match f.length with
  | some length =>
    "invalid utf-8 sequence of " ++ toString length ++ " bytes from index " ++ toString f.index
  | none => "incomplete utf-8 byte sequence from index " ++ toString f.index

/-- Whether a byte can stand where it is read. -/
def fits : Option Pending → UInt8 → Bool
  | none, b => (Pending.start? b).isSome
  | some p, b => p.low ≤ b ∧ b ≤ p.high

/-- The first fault from a state of the reader on, when whole characters take up the
    bytes before an index and some bytes of the next one have been read. -/
def faultFrom (index taken : Nat) : Option Pending → Bytes → Fault
  | _, [] => ⟨index, none⟩
  | state, b :: bs =>
    if fits state b then
      match (lossyStep state b).2 with
      | none => faultFrom (index + taken + 1) 0 none bs
      | some p => faultFrom index (taken + 1) (some p) bs
    -- A byte that begins no character is a part of its own.
    else ⟨index, some (max taken 1)⟩

/-- The first fault of bytes that are not UTF-8. -/
def firstFault (bytes : Bytes) : Fault := faultFrom 0 0 none bytes

end Bytes
end MessageConformance
