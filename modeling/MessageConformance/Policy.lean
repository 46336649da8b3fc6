import MessageConformance.Text.Blank
import MessageConformance.Text.Lowercase

/-!
# Outcome policy

How much a failure weighs for the surrounding pipeline.
-/

namespace MessageConformance

/-- Whether messages are checked, and whether a failure stops the pipeline. -/
inductive Mode where
  | disabled
  | advisory
  | enforcing
  deriving DecidableEq, Repr

namespace Mode

def name : Mode → String
  | disabled => "disabled"
  | advisory => "advisory"
  | enforcing => "enforcing"

/-- The mode of a setting, whatever its case and surrounding white space; a missing
    or unknown setting means advisory. -/
def ofSetting : Option String → Mode
  | none => advisory
  | some setting =>
    let word := Text.lowerAscii (Text.trim setting)
    if word = "disabled" ∨ word = "none" then disabled
    else if word = "enforcing" ∨ word = "strict" then enforcing
    else advisory

/-- Whether messages are looked at. -/
def checks (mode : Mode) : Bool := mode != disabled

end Mode

/-- What a finding means for the pipeline. -/
inductive Action where
  | proceed
  | abort
  deriving DecidableEq, Repr

/-- The name of an action in reports. -/
def Action.name : Action → String
  | proceed => "continue"
  | abort => "abort"

/-- The action on any failure. -/
def Mode.decide : Mode → Action
  | enforcing => .abort
  | disabled | advisory => .proceed

end MessageConformance
