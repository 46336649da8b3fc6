import MessageConformance.Receipt.Inspection
import MessageConformance.Proofs.Engine.Passes
import MessageConformance.Proofs.Results
import MessageConformance.Proofs.Receipt.Conformance

/-!
# The verdict on a message

Which messages are found valid. `IsScope` says which part of a message is searched, and
`Acceptable` what must hold of it: a receipt somewhere in scope, one messaging header in scope,
a clean structural pass over that header, one receipt below it, and that receipt conforms. When
the receipt schemas compile and the engine judges the header, an inspection always has an
outcome, and it is valid exactly for the acceptable messages (`inspect_verdict`).
-/

namespace MessageConformance.Receipt

open Message

/-- The part of a message that is searched: of an envelope its first header child, and any
    other message as a whole. -/
inductive IsScope : Node → Node → Prop
  | header {root scope : Node} {before after : List Node}
      (envelope : root.localName? = some "Envelope")
      (children : root.children = before ++ scope :: after)
      (name : scope.localName? = some "Header")
      (first : ∀ n ∈ before, n.localName? ≠ some "Header") : IsScope root scope
  | whole {root : Node} (other : root.localName? ≠ some "Envelope") : IsScope root root

/-- Asks for messaging headers, in any namespace. -/
def messagingQuery : Query := .anySpace "Messaging"

/-- A part of the message is searched, and there is a receipt in it. -/
def HoldsReceipt (r : Registry) (root : Node) : Prop :=
  ∃ scope, IsScope root scope ∧ (receiptQuery r).Within scope

/-- The one messaging header in the part of a message that is searched. -/
def IsHeader (root messaging : Node) : Prop :=
  ∃ scope, IsScope root scope ∧ messagingQuery.OnlyWithin scope messaging

/-- The receipt schemas compile and a session opens on them, and the engine takes the header and
    judges it. -/
structure IsReady (engine : Engine) (store : Store) (c : Cache) (schema : CompiledSchema)
    (messaging : Node) : Prop where
  session : (sessionFor engine store .nrrReceipt).outcome c = .ok ⟨schema⟩
  fits : ∀ text, messaging.serialize = .ok text → (Bytes.ofText text).length ≤ sizeLimit
  judged : ∀ text report code, messaging.serialize = .ok text →
    engine.pass schema.input (Bytes.ofText text) = .checked report code → 0 ≤ code

/-- The header can be written, and the engine finds nothing wrong with it. -/
def IsClean (engine : Engine) (schema : SchemaInput) (messaging : Node) : Prop :=
  ∃ text report code, messaging.serialize = .ok text ∧
    engine.pass schema (Bytes.ofText text) = .checked report code ∧ report.IsClean

/-- What a message must be like to be found valid: both tiers pass. -/
def Acceptable (engine : Engine) (schema : SchemaInput) (r : Registry) (root : Node) : Prop :=
  HoldsReceipt r root ∧
    ∃ messaging, IsHeader root messaging ∧ IsClean engine schema messaging ∧
      ∃ receipt, (receiptQuery r).OnlyBelow messaging receipt ∧ Conforms r receipt

theorem headerScope?_eq_some_iff (root scope : Node) :
    headerScope? root = some scope ↔ IsScope root scope := by
  unfold headerScope?
  constructor
  · intro found
    split at found
    · next envelope =>
      obtain ⟨name, before, after, children, first⟩ := List.find?_eq_some_iff_append.1 found
      exact .header envelope children (by simpa using name) (by simpa using first)
    · next other =>
      obtain rfl := Option.some.inj found
      exact .whole other
  · rintro (⟨envelope, children, name, first⟩ | other)
    · rw [if_pos envelope]
      exact List.find?_eq_some_iff_append.2
        ⟨by simpa using name, _, _, children, by simpa using first⟩
    · rw [if_neg other]

theorem isScope_unique {root scope scope' : Node} (here : IsScope root scope)
    (there : IsScope root scope') : scope = scope' := by
  have found := (headerScope?_eq_some_iff root scope).2 here
  exact Option.some.inj (found.symm.trans ((headerScope?_eq_some_iff root scope').2 there))

theorem holdsReceipt_iff (r : Registry) (scope : Node) :
    holdsReceipt r scope = true ↔ (receiptQuery r).Within scope :=
  Query.any_within_iff

/-- The part of a message that is searched and holds a receipt, if there is one. -/
theorem filter_headerScope?_eq_some_iff (r : Registry) (root scope : Node) :
    (headerScope? root).filter (holdsReceipt r) = some scope ↔
      IsScope root scope ∧ (receiptQuery r).Within scope := by
  rw [Option.filter_eq_some_iff, headerScope?_eq_some_iff, holdsReceipt_iff]

theorem filter_headerScope?_eq_none_iff (r : Registry) (root : Node) :
    (headerScope? root).filter (holdsReceipt r) = none ↔ ¬ HoldsReceipt r root := by
  simp only [HoldsReceipt, ← filter_headerScope?_eq_some_iff]
  exact Option.eq_none_iff_forall_not_mem.trans not_exists.symm

theorem singleMessaging_eq_ok_iff (scope messaging : Node) :
    singleMessaging scope = .ok messaging ↔ messagingQuery.OnlyWithin scope messaging := by
  rw [← Query.within_eq_singleton_iff]
  unfold singleMessaging messagingHeaders messagingQuery
  split <;> simp_all

/-- The one receipt below a messaging header is found if there is one, and several are a
    fault. -/
theorem singleReceipt?_eq_ok_iff (r : Registry) (messaging receipt : Node) :
    singleReceipt? r messaging = .ok (some receipt) ↔
      (receiptQuery r).OnlyBelow messaging receipt := by
  rw [← Query.descendants_eq_singleton_iff]
  unfold singleReceipt?
  split <;> simp_all

theorem isHeader_unique {root messaging messaging' : Node} (here : IsHeader root messaging)
    (there : IsHeader root messaging') : messaging = messaging' := by
  obtain ⟨scope, searched, single⟩ := here
  obtain ⟨scope', searched', single'⟩ := there
  obtain rfl := isScope_unique searched searched'
  have found := (singleMessaging_eq_ok_iff scope messaging).2 single
  exact Except.ok.inj (found.symm.trans ((singleMessaging_eq_ok_iff scope messaging').2 single'))

/-! ## The structural tier -/

section

variable {engine : Engine} {store : Store} {schema : CompiledSchema} {c : Cache} {messaging : Node}

/-- The header is written as a message of its own and given to the engine. -/
theorem outcome_checkStructure
    (session : (sessionFor engine store .nrrReceipt).outcome c = .ok ⟨schema⟩) :
    (checkStructure engine store messaging).outcome c =
      match messaging.serialize with
      | .error cause => .error (.document cause)
      | .ok text =>
        ((Session.mk schema).check engine (Bytes.ofText text)).outcome c |>.map fun _ => () := by
  rw [checkStructure, Attempt.outcome_bind, session]
  simp only [Attempt.outcome_bind, Attempt.outcome_ofExcept, Attempt.after_ofExcept]
  cases messaging.serialize with
  | error cause => rfl
  | ok text => simp only [mapError_ok, Attempt.outcome_discard, Session.outcome_check]

/-- The structural tier passes a header that the engine takes, does not fail on, and finds
    nothing wrong with. -/
theorem checkStructure_eq_ok_iff
    (session : (sessionFor engine store .nrrReceipt).outcome c = .ok ⟨schema⟩) :
    (checkStructure engine store messaging).outcome c = .ok () ↔
      ∃ text, messaging.serialize = .ok text ∧ (Bytes.ofText text).length ≤ sizeLimit ∧
        ∃ report code, engine.pass schema.input (Bytes.ofText text) = .checked report code ∧
          0 ≤ code ∧ report.IsClean := by
  rw [outcome_checkStructure session]
  cases messaging.serialize with
  | error cause => simp
  | ok text => simp [map_unit_eq_ok_iff, Session.check_succeeds_iff]

theorem checkStructure_eq_ok_iff_isClean (ready : IsReady engine store c schema messaging) :
    (checkStructure engine store messaging).outcome c = .ok () ↔
      IsClean engine schema.input messaging := by
  rw [checkStructure_eq_ok_iff ready.session]
  constructor
  · rintro ⟨text, written, -, report, code, pass, -, clean⟩
    exact ⟨text, report, code, written, pass, clean⟩
  · rintro ⟨text, report, code, written, pass, clean⟩
    exact ⟨text, written, ready.fits text written, report, code, pass,
      ready.judged text report code written pass, clean⟩

theorem isFinding_checkStructure {cause : Failure} (ready : IsReady engine store c schema messaging)
    (failed : (checkStructure engine store messaging).outcome c = .error cause) :
    isFinding cause = true := by
  rw [outcome_checkStructure ready.session] at failed
  cases written : messaging.serialize with
  | error reason =>
    simp only [written, Except.error.injEq] at failed
    exact failed ▸ rfl
  | ok text =>
    have fits : ¬ (Bytes.ofText text).length > sizeLimit := Nat.not_lt.2 (ready.fits text written)
    simp only [written, Session.outcome_check, fits, ↓reduceIte] at failed
    cases pass : engine.pass schema.input (Bytes.ofText text) with
    | malformed lastError =>
      simp only [pass, Pass.result_malformed, Except.map, Except.error.injEq] at failed
      exact failed ▸ rfl
    | checked report code =>
      have judged : ¬ code < 0 := Int.not_lt.2 (ready.judged text report code written pass)
      rw [pass, Pass.result_checked, if_neg judged] at failed
      split at failed
      · simp [Except.map] at failed
      · simp only [Except.map, Except.error.injEq] at failed
        exact failed ▸ rfl

end

/-! ## Both tiers -/

theorem isFinding_toFailure (v : Violation) : isFinding v.toFailure = true := by
  unfold Violation.toFailure
  split <;> rfl

theorem isFinding_of_singleMessaging {scope : Node} {cause : Failure}
    (failed : singleMessaging scope = .error cause) : isFinding cause = true := by
  unfold singleMessaging at failed
  split at failed
  · simp at failed
  · obtain rfl := Except.error.inj failed
    exact isFinding_toFailure _

theorem isFinding_of_singleReceipt? {r : Registry} {messaging : Node} {cause : Failure}
    (failed : singleReceipt? r messaging = .error cause) : isFinding cause = true := by
  unfold singleReceipt? at failed
  split at failed
  · simp at failed
  · simp at failed
  · obtain rfl := Except.error.inj failed
    exact isFinding_toFailure _

section

variable {engine : Engine} {store : Store} {r : Registry} {message : String} {document : Document}
  {c : Cache} {schema : CompiledSchema} {scope : Node}

/-- A message without a receipt in scope is judged without the engine. -/
theorem outcome_judge_of_absent (wellFormed : Document.parse message = .ok document)
    (absent : ¬ HoldsReceipt r document.root) :
    (judge engine store r message).outcome c = .ok false := by
  have none := (filter_headerScope?_eq_none_iff r document.root).2 absent
  rw [judge, wellFormed, Attempt.outcome_bind]
  simp [mapError_ok, none]

/-- Where a receipt is in scope the tiers follow one another, and the first failure decides. -/
theorem outcome_judge_of_scope (wellFormed : Document.parse message = .ok document)
    (searched : IsScope document.root scope) (holds : (receiptQuery r).Within scope) :
    (judge engine store r message).outcome c =
      singleMessaging scope >>= fun messaging =>
        (checkStructure engine store messaging).outcome c >>= fun _ =>
          singleReceipt? r messaging >>= fun receipt =>
            (check r (receipt.map (·.children))).mapError Violation.toFailure >>= fun _ =>
              .ok true := by
  have found := (filter_headerScope?_eq_some_iff r document.root scope).2 ⟨searched, holds⟩
  have read : (Document.parse message).mapError Failure.document = .ok document := by
    rw [wellFormed]; rfl
  rw [judge, read, Attempt.outcome_bind]
  simp only [Attempt.outcome_ofExcept, Attempt.after_ofExcept, found]
  rw [Attempt.outcome_bind, Attempt.outcome_ofExcept, Attempt.after_ofExcept]
  cases singleMessaging scope with
  | error cause => rfl
  | ok messaging =>
    show Attempt.outcome (_ >>= _) c = ((checkStructure engine store messaging).outcome c >>= _)
    rw [Attempt.outcome_bind]
    cases (checkStructure engine store messaging).outcome c with
    | error cause => rfl
    | ok _ =>
      show Attempt.outcome (_ >>= _) _ = (singleReceipt? r messaging >>= _)
      rw [Attempt.outcome_bind, Attempt.outcome_ofExcept, Attempt.after_ofExcept]
      cases singleReceipt? r messaging with
      | error cause => rfl
      | ok receipt =>
        show Attempt.outcome (_ >>= _) _ =
          ((check r (receipt.map (·.children))).mapError Violation.toFailure >>= _)
        rw [Attempt.outcome_bind, Attempt.outcome_ofExcept]
        cases (check r (receipt.map (·.children))).mapError Violation.toFailure <;> rfl

private theorem checked_eq_ok_iff (found : Option Node) :
    (check r (found.map (·.children))).mapError Violation.toFailure = .ok () ↔
      ∃ receipt, found = some receipt ∧ Conforms r receipt := by
  cases found with
  | none => simp [check, fault?, mapError_error]
  | some receipt =>
    have same : (check r (some receipt.children)).mapError Violation.toFailure = .ok () ↔
        check r (some receipt.children) = .ok () := by
      cases check r (some receipt.children) <;> simp [mapError_ok, mapError_error]
    rw [Option.map_some, same, check_eq_ok_iff]
    simp

/-- A message passes if it holds a receipt, its one header passes the structural tier, and the
    one receipt below the header conforms. -/
theorem outcome_judge_eq_true_iff (wellFormed : Document.parse message = .ok document) :
    (judge engine store r message).outcome c = .ok true ↔
      HoldsReceipt r document.root ∧ ∃ messaging, IsHeader document.root messaging ∧
        (checkStructure engine store messaging).outcome c = .ok () ∧
        ∃ receipt, (receiptQuery r).OnlyBelow messaging receipt ∧ Conforms r receipt := by
  by_cases receipts : HoldsReceipt r document.root
  · obtain ⟨scope, searched, holds⟩ := receipts
    rw [outcome_judge_of_scope wellFormed searched holds]
    simp only [bind_eq_ok_iff, and_true, singleMessaging_eq_ok_iff]
    constructor
    · rintro ⟨messaging, single, _, structured, found, below, _, checked⟩
      obtain ⟨receipt, rfl, conforms⟩ := (checked_eq_ok_iff found).1 checked
      exact ⟨⟨scope, searched, holds⟩, messaging, ⟨scope, searched, single⟩, structured, receipt,
        (singleReceipt?_eq_ok_iff r messaging receipt).1 below, conforms⟩
    · rintro ⟨-, messaging, ⟨scope', searched', single⟩, structured, receipt, below, conforms⟩
      obtain rfl := isScope_unique searched searched'
      exact ⟨messaging, single, (), structured, some receipt,
        (singleReceipt?_eq_ok_iff r messaging receipt).2 below, (),
        (checked_eq_ok_iff (some receipt)).2 ⟨receipt, rfl, conforms⟩⟩
  · simp [outcome_judge_of_absent wellFormed receipts, receipts]

/-- When the engine judges the header, the messages that pass are the acceptable ones. -/
theorem outcome_judge_eq_true_iff_acceptable (wellFormed : Document.parse message = .ok document)
    (ready : ∀ messaging, IsHeader document.root messaging →
      IsReady engine store c schema messaging) :
    (judge engine store r message).outcome c = .ok true ↔
      Acceptable engine schema.input r document.root := by
  rw [outcome_judge_eq_true_iff wellFormed, Acceptable]
  refine and_congr_right fun _ => exists_congr fun messaging => and_congr_right fun header => ?_
  rw [checkStructure_eq_ok_iff_isClean (ready messaging header)]

theorem outcome_judge_eq_false_iff (wellFormed : Document.parse message = .ok document) :
    (judge engine store r message).outcome c = .ok false ↔ ¬ HoldsReceipt r document.root := by
  constructor
  · rintro left ⟨scope, searched, holds⟩
    rw [outcome_judge_of_scope wellFormed searched holds] at left
    simp [bind_eq_ok_iff] at left
  · exact outcome_judge_of_absent wellFormed

theorem isFinding_judge {cause : Failure} (wellFormed : Document.parse message = .ok document)
    (ready : ∀ messaging, IsHeader document.root messaging →
      IsReady engine store c schema messaging)
    (failed : (judge engine store r message).outcome c = .error cause) :
    isFinding cause = true := by
  by_cases receipts : HoldsReceipt r document.root
  · obtain ⟨scope, searched, holds⟩ := receipts
    rw [outcome_judge_of_scope wellFormed searched holds] at failed
    simp only [bind_eq_error_iff, singleMessaging_eq_ok_iff, reduceCtorEq, and_false,
      exists_false, or_false] at failed
    obtain several | ⟨messaging, single, structured | ⟨-, -, several | ⟨found, -, broken⟩⟩⟩ := failed
    · exact isFinding_of_singleMessaging several
    · exact isFinding_checkStructure (ready messaging ⟨scope, searched, single⟩) structured
    · exact isFinding_of_singleReceipt? several
    · cases fault : check r (found.map (·.children)) with
      | ok _ => simp [fault, mapError_ok] at broken
      | error v =>
        simp only [fault, mapError_error, Except.error.injEq] at broken
        exact broken ▸ isFinding_toFailure v
  · simp [outcome_judge_of_absent wellFormed receipts] at failed

theorem outcome_inspect {mode : Mode} (checks : mode ≠ .disabled) :
    (inspect engine store r mode message).outcome c =
      outcomeOf mode ((judge engine store r message).outcome c) := by
  have looked : mode.checks = true := by simp [Mode.checks, checks]
  simp only [inspect, looked, ↓reduceIte]
  rfl

/-- A well-formed message always has an outcome when the receipt schemas compile and the
    engine judges its header. It is valid exactly if the message is acceptable, and left alone
    exactly if there is no receipt in scope; else something is wrong with the message, and the
    mode decides what that means. -/
theorem inspect_verdict {mode : Mode} (checks : mode ≠ .disabled)
    (wellFormed : Document.parse message = .ok document)
    (ready : ∀ messaging, IsHeader document.root messaging →
      IsReady engine store c schema messaging) :
    ∃ outcome, (inspect engine store r mode message).outcome c = .ok outcome ∧
      (outcome = .valid ↔ Acceptable engine schema.input r document.root) ∧
      (outcome = .notReceipt ↔ ¬ HoldsReceipt r document.root) ∧
      ((∃ cause, isFinding cause = true ∧ outcome = .failed cause mode.decide) ↔
        HoldsReceipt r document.root ∧ ¬ Acceptable engine schema.input r document.root) := by
  have accepted := outcome_judge_eq_true_iff_acceptable (r := r) wellFormed ready
  have left : (judge engine store r message).outcome c = .ok false ↔ _ :=
    outcome_judge_eq_false_iff wellFormed
  have holds : Acceptable engine schema.input r document.root → HoldsReceipt r document.root :=
    fun acceptable => acceptable.1
  rw [outcome_inspect checks]
  cases judged : (judge engine store r message).outcome c with
  | ok result =>
    cases result with
    | true =>
      have acceptable := accepted.1 judged
      exact ⟨.valid, rfl, by simp [acceptable], by simp [holds acceptable], by simp [acceptable]⟩
    | false =>
      have absent := left.1 judged
      have refused := mt holds absent
      exact ⟨.notReceipt, rfl, by simp [refused], by simp [absent], by simp [absent]⟩
  | error cause =>
    have finding := isFinding_judge wellFormed ready judged
    have refused : ¬ Acceptable engine schema.input r document.root := by
      rw [← accepted, judged]; simp
    have present : HoldsReceipt r document.root := by
      by_contra absent
      rw [← left, judged] at absent
      simp at absent
    refine ⟨.failed cause mode.decide, by simp [outcomeOf, finding], ?_, ?_, ?_⟩
    · simp [refused]
    · simp [present]
    · simp [refused, present, finding]

end

/-! ## A receipt without namespaces -/

/-- A receipt for one message part, all of it in no namespace. -/
def unspacedReceipt : String :=
  "<Messaging><Receipt><NonRepudiationInformation><MessagePartNRInformation><Reference/>" ++
    "</MessagePartNRInformation></NonRepudiationInformation></Receipt></Messaging>"

/-- An element in no namespace, without attributes. -/
def unspaced (name : String) (content : List Node) : Node := .element ⟨⟨none, name⟩, [], []⟩ content

/-- What there is to read in the receipt without namespaces. -/
def unspacedDocument : Document where
  before := []
  tag := ⟨⟨none, "Messaging"⟩, [], []⟩
  content := [unspaced "Receipt" [unspaced "NonRepudiationInformation"
    [unspaced "MessagePartNRInformation" [unspaced "Reference" []]]]]
  after := []

/-- An engine that opens every schema and does the same with every document. -/
def steadyEngine (pass : Pass) : Engine where
  requests _ := none
  compile _ := ([], false)
  opens _ := true
  pass _ _ := pass
  fetch _ := none

/-- The receipt schemas, compiled from nothing. -/
def blankSchema : CompiledSchema := ⟨0, .context .nrrReceipt, [], 0, ⟨[], []⟩⟩

/-- A cache that holds the receipt schemas. -/
def receiptCache : Cache := { entries := [(.context .nrrReceipt, blankSchema)] }

theorem parse_unspacedReceipt : Document.parse unspacedReceipt = .ok unspacedDocument := by
  cbv

theorem serialize_unspacedDocument : unspacedDocument.root.serialize = .ok unspacedReceipt := by
  decide +kernel

theorem isHeader_unspaced : IsHeader unspacedDocument.root unspacedDocument.root := by
  have whole : singleMessaging unspacedDocument.root = .ok unspacedDocument.root := by rfl
  exact ⟨_, .whole (by decide), (singleMessaging_eq_ok_iff _ _).1 whole⟩

theorem eq_root_of_isHeader_unspaced {messaging : Node}
    (header : IsHeader unspacedDocument.root messaging) : messaging = unspacedDocument.root :=
  isHeader_unique header isHeader_unspaced

theorem isReady_unspaced (store : Store) {report : Report} {code : Int} (judged : 0 ≤ code)
    {messaging : Node} (header : IsHeader unspacedDocument.root messaging) :
    IsReady (steadyEngine (.checked report code)) store receiptCache blankSchema messaging := by
  obtain rfl := eq_root_of_isHeader_unspaced header
  refine ⟨rfl, fun text written => ?_, fun text r k _ pass => ?_⟩
  · obtain rfl := Except.ok.inj (written.symm.trans serialize_unspacedDocument)
    decide +kernel
  · obtain ⟨rfl, rfl⟩ := Pass.checked.inj pass
    exact judged

/-- With no namespaces registered the receipt without namespaces is in order. -/
theorem acceptable_unspaced :
    Acceptable (steadyEngine (.checked [] 0)) blankSchema.input ⟨[]⟩ unspacedDocument.root := by
  have holds : holdsReceipt ⟨[]⟩ unspacedDocument.root = true := by decide +kernel
  refine ⟨⟨_, .whole (by decide), (holdsReceipt_iff _ _).1 holds⟩, _, isHeader_unspaced,
    ⟨unspacedReceipt, [], 0, serialize_unspacedDocument, rfl, by decide⟩, ?_⟩
  exact ⟨_, (singleReceipt?_eq_ok_iff _ _ _).1 rfl, (check_eq_ok_iff _).1 rfl⟩

/-- The receipt without namespaces is found valid with nothing at hand but the cache. -/
theorem inspect_unspacedReceipt :
    (inspect (steadyEngine (.checked [] 0)) .empty ⟨[]⟩ .enforcing unspacedReceipt).outcome
      receiptCache = .ok .valid := by
  have ready : ∀ messaging, IsHeader unspacedDocument.root messaging →
      IsReady (steadyEngine (.checked [] 0)) .empty receiptCache blankSchema messaging :=
    fun _ header => isReady_unspaced .empty (Int.le_refl 0) header
  have checks : Mode.enforcing ≠ .disabled := by decide
  obtain ⟨outcome, made, valid, -⟩ := inspect_verdict checks parse_unspacedReceipt ready
  rw [made, valid.2 acceptable_unspaced]

end MessageConformance.Receipt
