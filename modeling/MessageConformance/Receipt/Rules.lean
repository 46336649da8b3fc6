import MessageConformance.Registry
import MessageConformance.Message.Node

/-!
# Rules for receipts

What the profile asks of a non-repudiation receipt. The rules are checked in a fixed
order and the first one broken is reported; among the message parts the first that
breaks a rule decides.
-/

namespace MessageConformance.Receipt

open Message

/-- Asks for receipts. -/
def receiptQuery (r : Registry) : Query := .named (r.uri "eb") "Receipt"

/-- Asks for non-repudiation information. -/
def informationQuery (r : Registry) : Query := .named (r.uri "ebbp") "NonRepudiationInformation"

/-- Asks for the parts of non-repudiation information. -/
def partQuery (r : Registry) : Query := .named (r.uri "ebbp") "MessagePartNRInformation"

/-- Asks for digest references. -/
def referenceQuery (r : Registry) : Query := .named (r.uri "ds") "Reference"

/-- Asks for part identifiers. -/
def identifierQuery (r : Registry) : Query := .named (r.uri "ebbp") "MessagePartIdentifier"

def Rule.message : ConformanceCode → String
  | .receiptAbsent => "Receipt not found in the response message"
  | .missingNonRepudiationInformation => "NonRepudiationInformation element not found"
  | .multipleNonRepudiationInformation => "Multiple NonRepudiationInformation elements found"
  | .missingMessagePart => "MessagePartNRInformation element(s) not found"
  | .referenceWithIdentifier =>
    "Both ds:Reference and ebbpsig:MessagePartIdentifier elements are not allowed together in Peppol AS4 receipts"
  | .missingDigestReference =>
    "Digest references are not found in the non-repudiation receipt"
  | .multipleReceipts => "Signal message contains multiple Receipt nodes"
  | .messagingHeader =>
    "Header contains zero or multiple eb:Messaging elements, should only contain one"

/-- A broken rule with its wording. -/
def broken (code : ConformanceCode) : Violation := ⟨code, Rule.message code⟩

/-- The rule that a message part breaks: it holds a reference and no identifier. -/
def partFault? (r : Registry) (part : Node) : Option ConformanceCode :=
  let hasReference := !((referenceQuery r).children part).isEmpty
  let hasIdentifier := !((identifierQuery r).children part).isEmpty
  if hasReference && hasIdentifier then some .referenceWithIdentifier
  else if !hasReference then some .missingDigestReference
  else none

/-- The first rule that some non-repudiation information breaks. -/
def informationFault? (r : Registry) (information : Node) : Option ConformanceCode :=
  match (partQuery r).children information with
  | [] => some .missingMessagePart
  | parts => parts.findSome? (partFault? r)

/-- The first rule that a receipt with this content breaks; the receipt itself may be of
    any name. -/
def contentFault? (r : Registry) (content : List Node) : Option ConformanceCode :=
  match (informationQuery r).among content with
  | [] => some .missingNonRepudiationInformation
  | [information] => informationFault? r information
  | _ => some .multipleNonRepudiationInformation

/-- The first rule that a receipt breaks, given what it holds if it is there. -/
def fault? (r : Registry) (content? : Option (List Node)) : Option ConformanceCode :=
  match content? with
  | none => some .receiptAbsent
  | some content => contentFault? r content

/-- Checks what a receipt holds against the profile. -/
def check (r : Registry) (content? : Option (List Node)) : Except Violation Unit :=
  match fault? r content? with
  | none => .ok ()
  | some code => .error (broken code)

end MessageConformance.Receipt
