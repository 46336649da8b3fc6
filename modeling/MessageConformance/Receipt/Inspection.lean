import MessageConformance.Cache
import MessageConformance.Message.Reader
import MessageConformance.Message.Writer
import MessageConformance.Policy
import MessageConformance.Receipt.Rules

/-!
# Inspecting messages

The way of a received message: it is read, its header is searched for a receipt, the one
messaging header is checked against the receipt schemas, and the receipt in it against
the profile. What is found wrong with the message is an outcome; anything else that goes
wrong is an error.
-/

namespace MessageConformance.Receipt

open Message

/-- What comes of a message. -/
inductive Outcome where
  | skipped
  | notReceipt
  | valid
  | failed (cause : Failure) (action : Action)
  deriving DecidableEq

/-- What an outcome means for the pipeline. -/
def Outcome.action : Outcome → Action
  | failed _ action => action
  | _ => .proceed

/-- The part of a message that is searched: the first header child of an envelope, and
    the whole of any other message. Local names alone decide. -/
def headerScope? (root : Node) : Option Node :=
  if root.localName? = some "Envelope" then
    root.children.find? fun n => n.localName? = some "Header"
  else some root

/-- Whether a receipt is in scope, the scope itself counted. -/
def holdsReceipt (r : Registry) (scope : Node) : Bool :=
  (scope :: scope.descendants).any (receiptQuery r).accepts

/-- The messaging headers in scope, the scope itself counted, in any namespace. -/
def messagingHeaders (scope : Node) : List Node :=
  (scope :: scope.descendants).filter (Query.anySpace "Messaging").accepts

/-- The one messaging header in scope. -/
def singleMessaging (scope : Node) : Except Failure Node :=
  match messagingHeaders scope with
  | [messaging] => .ok messaging
  | _ => .error (broken .messagingHeader).toFailure

/-- The one receipt below a messaging header, if there is any. -/
def singleReceipt? (r : Registry) (messaging : Node) : Except Failure (Option Node) :=
  match (receiptQuery r).descendants messaging with
  | [] => .ok none
  | [receipt] => .ok (some receipt)
  | _ => .error (broken .multipleReceipts).toFailure

/-- Checks a messaging header against the receipt schemas. -/
def checkStructure (engine : Engine) (store : Store) (messaging : Node) : Attempt Unit := do
  let session ← sessionFor engine store .nrrReceipt
  let text ← Attempt.ofExcept (messaging.serialize.mapError .document)
  discard (session.check engine (Bytes.ofText text))

/-- Judges a message: whether it holds a receipt, which is then in order. -/
def judge (engine : Engine) (store : Store) (r : Registry) (message : String) : Attempt Bool := do
  let document ← Attempt.ofExcept ((Document.parse message).mapError .document)
  match (headerScope? document.root).filter (holdsReceipt r) with
  | none => return false
  | some scope =>
    let messaging ← Attempt.ofExcept (singleMessaging scope)
    checkStructure engine store messaging
    let receipt ← Attempt.ofExcept (singleReceipt? r messaging)
    Attempt.ofExcept ((check r (receipt.map (·.children))).mapError Violation.toFailure)
    return true

/-- Whether a failure is something found wrong with the message. -/
def isFinding : Failure → Bool
  | .structural _ _ | .receiptAbsent | .conformance _ | .document _ => true
  | _ => false

/-- What comes of a message that has been judged. -/
def outcomeOf (mode : Mode) : Except Failure Bool → Except Failure Outcome
  | .ok true => .ok .valid
  | .ok false => .ok .notReceipt
  | .error cause => if isFinding cause then .ok (.failed cause mode.decide) else .error cause

/-- Inspects a message; nothing is looked at when messages are not checked. -/
def inspect (engine : Engine) (store : Store) (r : Registry) (mode : Mode) (message : String) :
    Attempt Outcome :=
  if mode.checks then
    ExceptT.mk do
      let result ← (judge engine store r message).run
      return outcomeOf mode result
  else return .skipped

end MessageConformance.Receipt
