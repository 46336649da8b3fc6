/-!
# Data values

What a settings file says and what a report prints: values without a schema. Records keep
their fields in order, repeated ones included.
-/

namespace MessageConformance.Data

/-- A value. `foreign` is one that no setting takes: a fraction, or a text or record in
    which a surrogate stands alone. -/
inductive Value where
  | null
  | boolean (b : Bool)
  | integer (n : Int)
  | text (s : String)
  | foreign
  | list (items : List Value)
  | record (fields : List (String × Value))
  deriving Repr

namespace Value

def fields? : Value → Option (List (String × Value))
  | record fields => some fields
  | _ => none

def field? (v : Value) (name : String) : Option Value := v.fields?.bind (·.lookup name)

def items? : Value → Option (List Value)
  | list items => some items
  | _ => none

def text? : Value → Option String
  | text s => some s
  | _ => none

def integer? : Value → Option Int
  | integer n => some n
  | _ => none

def boolean? : Value → Option Bool
  | boolean b => some b
  | _ => none

end Value
end MessageConformance.Data
