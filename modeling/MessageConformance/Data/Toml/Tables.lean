import MessageConformance.Data.Value

/-!
# Tables of a TOML document

The table that a document builds up. How a table came about decides what may be added to
it: a header opens a table once, dotted keys extend only tables that dotted keys began,
and nothing extends a value.
-/

namespace MessageConformance.Data.Toml

/-- How a table came about: it was opened itself, a longer header implied it, or a dotted
    key did. -/
inductive Origin where
  | opened
  | implied
  | dotted
  deriving DecidableEq, Repr

/-- What stands under a key: a value, a table, or the elements of a list of tables. -/
inductive Item where
  | value (v : Value)
  | table (origin : Origin) (entries : List (String × Item))
  | elements (tables : List (List (String × Item)))

/-- The entries of a table, in order. -/
abbrev Entries := List (String × Item)

namespace Item

mutual

/-- The value that an item stands for. -/
def toValue : Item → Value
  | value v => v
  | table _ entries => .record (entryValues entries)
  | elements tables => .list (elementValues tables)

/-- The fields that entries stand for. -/
def entryValues : List (String × Item) → List (String × Value)
  | [] => []
  | (key, item) :: rest => (key, toValue item) :: entryValues rest

/-- The values that the elements of a list of tables stand for. -/
def elementValues : List (List (String × Item)) → List Value
  | [] => []
  | entries :: rest => .record (entryValues entries) :: elementValues rest

end

end Item

namespace Entries

/-- Changes what stands under a key, or adds it at the end; `none` if it may not. -/
def alter? (key : String) (change : Option Item → Option Item) : Entries → Option Entries
  | [] => (change none).map fun item => [(key, item)]
  | (k, item) :: rest =>
    if k = key then (change (some item)).map fun item => (key, item) :: rest
    else (alter? key change rest).map ((k, item) :: ·)

/-- Changes the last of some tables. -/
def alterLast? (change : Entries → Option Entries) : List Entries → Option (List Entries)
  | [] => none
  | [entries] => (change entries).map ([·])
  | entries :: rest => (alterLast? change rest).map (entries :: ·)

/-- Changes the table that the keys of a header lead to; a table that is missing is
    implied. -/
def within? (change : Entries → Option Entries) : List String → Entries → Option Entries
  | [], entries => change entries
  | key :: keys, entries =>
    alter? key (fun
      | none => (within? change keys []).map (.table .implied)
      | some (.table origin inner) => (within? change keys inner).map (.table origin)
      | some (.elements tables) => (alterLast? (within? change keys) tables).map .elements
      | some (.value _) => none) entries

/-- Opens the table of a header. It may have been implied before. -/
def openTable? (path : List String) (key : String) : Entries → Option Entries :=
  within? (alter? key fun
    | none => some (.table .opened [])
    | some (.table .implied inner) => some (.table .opened inner)
    | some _ => none) path

/-- Adds a table to a list of tables. -/
def openElement? (path : List String) (key : String) : Entries → Option Entries :=
  within? (alter? key fun
    | none => some (.elements [[]])
    | some (.elements tables) => some (.elements (tables ++ [[]]))
    | some _ => none) path

/-- Adds a value under a key that is not there yet. -/
def add? (key : String) (v : Value) (entries : Entries) : Option Entries :=
  alter? key (fun
    | none => some (.value v)
    | some _ => none) entries

/-- Adds a value under a dotted key to a table, which must itself be dotted once the path
    has led to it. Tables that were opened are not extended. -/
def addDotted? (key : String) (v : Value) : List String → Origin → Entries → Option Entries
  | [], origin, entries => if origin = .dotted then add? key v entries else none
  | step :: path, _, entries =>
    alter? step (fun
      | none => (addDotted? key v path .dotted []).map (.table .dotted)
      | some (.table .opened _) => none
      | some (.table origin inner) => (addDotted? key v path origin inner).map (.table origin)
      | some (.elements tables) =>
        (alterLast? (addDotted? key v path .opened) tables).map .elements
      | some (.value _) => none) entries

/-- Adds a value under a key, dotted or not. -/
def assign? (path : List String) (key : String) (v : Value) (entries : Entries) :
    Option Entries :=
  if path.isEmpty then add? key v entries else addDotted? key v path .opened entries

end Entries

/-- A part of a document. -/
inductive Statement where
  | header (path : List String) (key : String) (isElement : Bool)
  | assignment (path : List String) (key : String) (v : Value)

/-- A document that is being read: its table, and the keys that lead to the table which a
    header opened last. -/
structure Draft where
  entries : Entries := []
  here : List String := []

namespace Draft

/-- Adds a part of a document. -/
def step? (d : Draft) : Statement → Option Draft
  | .header path key isElement => do
    let entries ← if isElement then Entries.openElement? path key d.entries
      else Entries.openTable? path key d.entries
    return ⟨entries, path ++ [key]⟩
  | .assignment path key v => do
    let entries ← Entries.within? (Entries.assign? path key v) d.here d.entries
    return { d with entries }

end Draft

/-- The value of some parts of a document. -/
def ofStatements? (statements : List Statement) : Option Value :=
  (statements.foldlM Draft.step? {}).map fun d => .record (Item.entryValues d.entries)

end MessageConformance.Data.Toml
