import MessageConformance.Settings.Basic
import MessageConformance.Text.Number

/-!
# Decoding settings

Settings are grouped in sections. A section is a record of fields, of which any may be
missing and unknown ones are passed over, or a list of its fields in order, of which the
last may be missing. What a missing field leaves is the default.
-/

namespace MessageConformance.Settings

open Data (Value)

/-- The two kinds of settings files. -/
inductive FileKind where
  | toml
  | json
  deriving DecidableEq, Repr

/-- A field of a section: its name, and how its value changes the settings. -/
structure Field where
  name : String
  set : FileKind → Value → Settings → Option Settings

/-! ## Values -/

/-- A number of 64 bits. -/
def word? : Value → Option Nat
  | .integer n => if 0 ≤ n ∧ n < Text.wordLimit then some n.toNat else none
  | _ => none

/-- A value that may be null. -/
def orNull {α : Type} (read : Value → Option α) : Value → Option (Option α)
  | .null => some none
  | v => (read v).map some

/-- Whether a value says nothing beyond the name that it stands under. -/
def isEmptyPayload (kind : FileKind) (v : Value) : Bool :=
  match kind, v with
  | .json, .null => true
  | .toml, .list [] => true
  | .toml, .record [] => true
  | _, _ => false

/-- One of some names: a text, or a record with that name and nothing under it. -/
def choice? {α : Type} (ofName? : String → Option α) (kind : FileKind) : Value → Option α
  | .text name => ofName? name
  | .record [(name, payload)] => if isEmptyPayload kind payload then ofName? name else none
  | _ => none

/-- A list of texts. -/
def texts? (v : Value) : Option (List String) := v.items?.bind fun items => items.mapM (·.text?)

/-! ## Sections -/

/-- Sets fields from a list of values in order. Only one kind of file may hold more values
    than there are fields. -/
def setInOrder (kind : FileKind) : List Field → List Value → Settings → Option Settings
  | _, [], s => some s
  | [], _ :: _, s => if kind = .toml then some s else none
  | field :: fields, v :: vs, s => field.set kind v s >>= setInOrder kind fields vs

/-- Sets fields by name; a known one may be there once. -/
def setByName (kind : FileKind) (fields : List Field) :
    List (String × Value) → Settings → Option Settings
  | [], s => some s
  | (name, v) :: rest, s =>
    match fields.find? (·.name = name) with
    | none => setByName kind fields rest s
    | some field =>
      if rest.any (·.1 = name) then none
      else field.set kind v s >>= setByName kind fields rest

/-- Sets the fields of a section. -/
def setSection (fields : List Field) (kind : FileKind) (v : Value) (s : Settings) :
    Option Settings :=
  match v with
  | .record entries => setByName kind fields entries s
  | .list items => setInOrder kind fields items s
  | _ => none

/-- The fields that say how messages are checked. -/
def validationFields : List Field := [
  ⟨"mode", fun _ v s => (orNull Value.text? v).map fun mode => { s with mode }⟩,
  ⟨"context", fun kind v s =>
    (choice? Context.ofName? kind v).map fun context => { s with context }⟩,
  ⟨"receipt", fun _ v s => v.boolean?.map fun isReceipt => { s with isReceipt }⟩,
  ⟨"threads", fun _ v s => (orNull word? v).map fun threads => { s with threads }⟩,
  ⟨"timeout_seconds", fun _ v s => (word? v).map fun timeout => { s with timeout }⟩]

/-- The fields that say where the schemas are. -/
def schemaFields : List Field := [
  ⟨"directory", fun _ v s => v.text?.map fun schemaDirectory => { s with schemaDirectory }⟩]

/-- The fields that say how results are printed. -/
def outputFields : List Field := [
  ⟨"format", fun kind v s =>
    (choice? OutputFormat.ofName? kind v).map fun format => { s with format }⟩,
  ⟨"verbose", fun _ v s => v.boolean?.map fun verbose => { s with verbose }⟩,
  ⟨"quiet", fun _ v s => v.boolean?.map fun quiet => { s with quiet }⟩]

/-- The fields that say which files are checked. -/
def fileFields : List Field := [
  ⟨"extensions", fun _ v s => (texts? v).map fun extensions => { s with extensions }⟩]

def sections : List Field := [
  ⟨"validation", setSection validationFields⟩,
  ⟨"schemas", setSection schemaFields⟩,
  ⟨"output", setSection outputFields⟩,
  ⟨"files", setSection fileFields⟩]

/-- The settings that a value says. -/
def decode? (kind : FileKind) (v : Value) : Option Settings :=
  setSection sections kind v .default

end MessageConformance.Settings
