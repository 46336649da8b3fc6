import MessageConformance.Batch
import MessageConformance.Proofs.Receipt.Verdict

/-!
# Errors that are counted and not reported

A pass has two results, a code and a report. A negative code is never accepted. A positive code
is a count of errors, but the count itself is not looked at: a document is accepted all the same
when no error was reported (`Unreported`), by a session, in the header of a message, and as the
content of a file (`accepted_iff_unreported`).
-/

namespace MessageConformance

open Message Receipt

/-- The engine takes a document and counts errors in it, and reports none of them. -/
def Unreported (document : Bytes) (report : Report) (code : Int) : Prop :=
  document.length ≤ sizeLimit ∧ 0 < code ∧ report.IsClean

/-- A message gives a document to the engine: the one header that is looked at. -/
structure Submits (message : String) (root messaging : Node) (document : Bytes) : Prop where
  wellFormed : ∃ d, Document.parse message = .ok d ∧ d.root = root
  header : IsHeader root messaging
  written : ∃ text, messaging.serialize = .ok text ∧ Bytes.ofText text = document

/-- Besides what the engine says, a message must be looked at, hold a receipt, and have one that
    conforms below its header. -/
def PassesProfile (r : Registry) (mode : Mode) (root messaging : Node) : Prop :=
  mode ≠ .disabled ∧ HoldsReceipt r root ∧
    ∃ receipt, (receiptQuery r).OnlyBelow messaging receipt ∧ Conforms r receipt

section

variable {engine : Engine} {store : Store} {schema : CompiledSchema} {c : Cache}
  {document : Bytes} {report : Report} {code : Int}

/-- Of the codes other than zero a session accepts those that are positive and go with no
    reported error. -/
theorem check_succeeds_iff_unreported (nonzero : code ≠ 0)
    (pass : engine.pass schema.input document = .checked report code) :
    (∃ warnings, ((Session.mk schema).check engine document).outcome c = .ok warnings) ↔
      Unreported document report code := by
  rw [Session.check_succeeds_iff, Unreported]
  refine and_congr_right fun _ => ?_
  constructor
  · rintro ⟨r, k, same, judged, clean⟩
    obtain ⟨rfl, rfl⟩ := Pass.checked.inj (pass.symm.trans same)
    exact ⟨by omega, clean⟩
  · rintro ⟨positive, clean⟩
    exact ⟨report, code, pass, by omega, clean⟩

theorem outcome_inspect_eq_valid_iff {r : Registry} {mode : Mode} {message : String} :
    (inspect engine store r mode message).outcome c = .ok .valid ↔
      mode ≠ .disabled ∧ (judge engine store r message).outcome c = .ok true := by
  by_cases checks : mode = .disabled
  · subst checks
    simp [inspect, Mode.checks]
  · rw [outcome_inspect checks]
    cases judged : (judge engine store r message).outcome c with
    | ok result => cases result <;> simp [outcomeOf, checks]
    | error cause => by_cases finding : isFinding cause = true <;> simp [outcomeOf, finding]

/-- A message whose header is a document with a code other than zero is found valid only if the
    errors are not reported. -/
theorem outcome_inspect_eq_valid_iff_unreported {r : Registry} {mode : Mode} {message : String}
    {root messaging : Node} (nonzero : code ≠ 0)
    (pass : engine.pass schema.input document = .checked report code)
    (submits : Submits message root messaging document)
    (session : (sessionFor engine store .nrrReceipt).outcome c = .ok ⟨schema⟩) :
    (inspect engine store r mode message).outcome c = .ok .valid ↔
      Unreported document report code ∧ PassesProfile r mode root messaging := by
  obtain ⟨⟨d, wellFormed, rfl⟩, header, text, written, rfl⟩ := submits
  have structured : (checkStructure engine store messaging).outcome c = .ok () ↔
      Unreported (Bytes.ofText text) report code := by
    rw [outcome_checkStructure session, written,
      ← check_succeeds_iff_unreported (c := c) nonzero pass]
    exact map_unit_eq_ok_iff
  rw [outcome_inspect_eq_valid_iff, outcome_judge_eq_true_iff wellFormed, PassesProfile]
  constructor
  · rintro ⟨checks, holds, other, header', accepted, conforms⟩
    obtain rfl := isHeader_unique header header'
    exact ⟨structured.1 accepted, checks, holds, conforms⟩
  · rintro ⟨accepted, checks, holds, conforms⟩
    exact ⟨checks, holds, messaging, header, structured.2 accepted, conforms⟩

/-! ## Files -/

theorem status_ofFinding_ne_valid (path : String) (cause : Failure) (action : Action)
    (duration : Duration) : (FileResult.ofFinding path cause action duration).status ≠ .valid := by
  cases cause <;> simp [FileResult.ofFinding, FileResult.findingStatus]

theorem status_checkContent_of_document {job : Job} {path : String}
    (plain : job.isReceipt = false)
    (session : (sessionFor engine store job.context).outcome c = .ok ⟨schema⟩) :
    ((job.checkContent engine store path document).run c).1.1.status = .valid ↔
      ∃ warnings, ((Session.mk schema).check engine document).outcome
        ((sessionFor engine store job.context).after c) = .ok warnings := by
  have made : ((job.checkContent engine store path document).run c).1.1 =
      job.documentResult path (((Session.mk schema).check engine document).outcome
        ((sessionFor engine store job.context).after c)) := by
    have outcome : (sessionFor engine store job.context >>= fun session =>
        session.check engine document).outcome c =
          ((Session.mk schema).check engine document).outcome
            ((sessionFor engine store job.context).after c) := by
      rw [Attempt.outcome_bind, session]
    simp only [Job.checkContent, plain, Bool.false_eq_true, ↓reduceIte]
    exact congrArg (job.documentResult path) outcome
  rw [made]
  cases ((Session.mk schema).check engine document).outcome
      ((sessionFor engine store job.context).after c) with
  | ok warnings => simp [Job.documentResult, FileResult.ofValid]
  | error cause =>
    cases cause <;> simp [Job.documentResult, FileResult.ofError, status_ofFinding_ne_valid]

/-- The status of a file that is inspected as a receipt is that of the message in it. -/
theorem status_checkContent_of_receipt {job : Job} {path message : String}
    (receipt : job.isReceipt = true) (decoded : document.text? = some message) :
    ((job.checkContent engine store path document).run c).1.1.status = .valid ↔
      (inspect engine store job.registry job.mode message).outcome c = .ok .valid := by
  have made : ((job.checkContent engine store path document).run c).1.1 =
      Job.receiptResult path
        ((inspect engine store job.registry job.mode message).outcome c) := by
    simp only [Job.checkContent, receipt, decoded, ↓reduceIte]
    rfl
  rw [made]
  cases (inspect engine store job.registry job.mode message).outcome c with
  | ok outcome =>
    cases outcome <;>
      simp [Job.receiptResult, FileResult.ofValid, FileResult.ofSkipped, status_ofFinding_ne_valid]
  | error cause => simp [Job.receiptResult, FileResult.ofError]

/-- A document whose pass ends with a code other than zero is accepted exactly if the code is
    positive and no error is reported: by a session, as the header of a message that passes
    otherwise, and as a file or the header of a receipt in one. -/
theorem accepted_iff_unreported (nonzero : code ≠ 0)
    (pass : engine.pass schema.input document = .checked report code) :
    (∀ c, (∃ warnings, ((Session.mk schema).check engine document).outcome c = .ok warnings) ↔
      Unreported document report code) ∧
    (∀ store c r mode message root messaging, Submits message root messaging document →
      (sessionFor engine store .nrrReceipt).outcome c = .ok ⟨schema⟩ →
      ((inspect engine store r mode message).outcome c = .ok .valid ↔
        Unreported document report code ∧ PassesProfile r mode root messaging)) ∧
    (∀ store c path (job : Job), job.isReceipt = false →
      (sessionFor engine store job.context).outcome c = .ok ⟨schema⟩ →
      (((job.checkContent engine store path document).run c).1.1.status = .valid ↔
        Unreported document report code)) ∧
    (∀ store c path (job : Job) content message root messaging, job.isReceipt = true →
      content.text? = some message → Submits message root messaging document →
      (sessionFor engine store .nrrReceipt).outcome c = .ok ⟨schema⟩ →
      (((job.checkContent engine store path content).run c).1.1.status = .valid ↔
        Unreported document report code ∧
          PassesProfile job.registry job.mode root messaging)) := by
  refine ⟨fun c => check_succeeds_iff_unreported nonzero pass, ?_, ?_, ?_⟩
  · intro store c r mode message root messaging submits session
    exact outcome_inspect_eq_valid_iff_unreported nonzero pass submits session
  · intro store c path job plain session
    rw [status_checkContent_of_document plain session]
    exact check_succeeds_iff_unreported nonzero pass
  · intro store c path job content message root messaging receipt decoded submits session
    rw [status_checkContent_of_receipt receipt decoded]
    exact outcome_inspect_eq_valid_iff_unreported nonzero pass submits session

end

/-! ## The receipt without namespaces -/

theorem submits_unspacedReceipt : Submits unspacedReceipt unspacedDocument.root
    unspacedDocument.root (.ofText unspacedReceipt) where
  wellFormed := ⟨unspacedDocument, parse_unspacedReceipt, rfl⟩
  header := isHeader_unspaced
  written := ⟨unspacedReceipt, serialize_unspacedDocument, rfl⟩

theorem passesProfile_unspaced :
    PassesProfile ⟨[]⟩ .enforcing unspacedDocument.root unspacedDocument.root := by
  obtain ⟨holds, messaging, header, -, conforms⟩ := acceptable_unspaced
  obtain rfl := eq_root_of_isHeader_unspaced header
  exact ⟨by decide, holds, conforms⟩

theorem unreported_unspacedReceipt : Unreported (.ofText unspacedReceipt) [] 1 := by
  refine ⟨?_, by decide, by decide⟩
  decide +kernel

theorem text?_ofText_unspacedReceipt : (Bytes.ofText unspacedReceipt).text? = some unspacedReceipt := by
  decide +kernel

/-- An engine that counts one error in every document and reports none makes a session, an
    inspection and files of both kinds accept the receipt without namespaces. -/
theorem accepted_with_one_unreported_error :
    ((Session.mk blankSchema).check (steadyEngine (.checked [] 1))
      (.ofText unspacedReceipt)).outcome .empty = .ok [] ∧
    (inspect (steadyEngine (.checked [] 1)) .empty ⟨[]⟩ .enforcing unspacedReceipt).outcome
      receiptCache = .ok .valid ∧
    (((Job.mk .enforcing .nrrReceipt false ⟨[]⟩).checkContent (steadyEngine (.checked [] 1)) .empty
      "receipt.xml" (.ofText unspacedReceipt)).run receiptCache).1.1.status = .valid ∧
    (((Job.mk .enforcing .nrrReceipt true ⟨[]⟩).checkContent (steadyEngine (.checked [] 1)) .empty
      "receipt.xml" (.ofText unspacedReceipt)).run receiptCache).1.1.status = .valid := by
  have accepted (c : Cache) : ((Session.mk blankSchema).check (steadyEngine (.checked [] 1))
      (.ofText unspacedReceipt)).outcome c = .ok [] := by
    have fits : ¬ (Bytes.ofText unspacedReceipt).length > sizeLimit :=
      Nat.not_lt.2 unreported_unspacedReceipt.1
    rw [Session.outcome_check, if_neg fits]
    rfl
  have valid : (inspect (steadyEngine (.checked [] 1)) .empty ⟨[]⟩ .enforcing
      unspacedReceipt).outcome receiptCache = .ok .valid :=
    (outcome_inspect_eq_valid_iff_unreported (by decide) rfl submits_unspacedReceipt rfl).2
      ⟨unreported_unspacedReceipt, passesProfile_unspaced⟩
  refine ⟨accepted _, valid, ?_, ?_⟩
  · exact (status_checkContent_of_document rfl rfl).2 ⟨_, accepted _⟩
  · exact (status_checkContent_of_receipt rfl text?_ofText_unspacedReceipt).2 valid

/-- Once the error is reported none of them accepts it. -/
theorem refused_with_one_reported_error :
    (¬ ∃ warnings, ((Session.mk blankSchema).check (steadyEngine (.checked [some ⟨2, 1, 1, none⟩] 1))
      (.ofText unspacedReceipt)).outcome .empty = .ok warnings) ∧
    (inspect (steadyEngine (.checked [some ⟨2, 1, 1, none⟩] 1)) .empty ⟨[]⟩ .enforcing
      unspacedReceipt).outcome receiptCache ≠ .ok .valid ∧
    (((Job.mk .enforcing .nrrReceipt false ⟨[]⟩).checkContent
      (steadyEngine (.checked [some ⟨2, 1, 1, none⟩] 1)) .empty "receipt.xml"
      (.ofText unspacedReceipt)).run receiptCache).1.1.status ≠ .valid ∧
    (((Job.mk .enforcing .nrrReceipt true ⟨[]⟩).checkContent
      (steadyEngine (.checked [some ⟨2, 1, 1, none⟩] 1)) .empty "receipt.xml"
      (.ofText unspacedReceipt)).run receiptCache).1.1.status ≠ .valid := by
  have reported : ¬ Unreported (.ofText unspacedReceipt) [some ⟨2, 1, 1, none⟩] 1 :=
    fun unreported => absurd unreported.2.2 (by decide)
  have pass : (steadyEngine (.checked [some ⟨2, 1, 1, none⟩] 1)).pass blankSchema.input
      (.ofText unspacedReceipt) = .checked [some ⟨2, 1, 1, none⟩] 1 := rfl
  obtain ⟨session, message, document, receipt⟩ := accepted_iff_unreported (by decide) pass
  refine ⟨mt (session _).1 reported, ?_, ?_, ?_⟩
  · rw [Ne, message _ _ _ _ _ _ _ submits_unspacedReceipt rfl]
    exact fun passes => reported passes.1
  · rw [Ne, document _ _ _ _ rfl rfl]
    exact reported
  · rw [Ne, receipt _ _ _ _ _ _ _ _ rfl text?_ofText_unspacedReceipt submits_unspacedReceipt rfl]
    exact fun passes => reported passes.1

end MessageConformance
