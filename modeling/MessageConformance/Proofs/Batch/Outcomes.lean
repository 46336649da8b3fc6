import Mathlib.Data.List.Forall2
import MessageConformance.Proofs.Batch.Failures

/-!
# What comes of a batch of files

`FileResult.Arises` says what can come of one file, and with it which parts of a result belong
together: the action and the status, the error count and the details, the code of a receipt that
does not conform (`FileResult.IsConsistent`). Each file of a batch gives one such result in its
place (`arises_checkFiles`). A batch in enforcing mode differs from the same batch in advisory mode
only in that its findings abort (`run_checkFiles_enforcing`); in disabled mode nothing is looked at
(`run_checkFiles_disabled`).
-/

namespace MessageConformance

open Files (Volume)

/-! ## One file -/

/-- Whether something was found wrong with a file. -/
def Status.isFinding (s : Status) : Bool := s.isInvalid || s.isNonConformant

/-- What can come of a file in a mode. -/
inductive FileResult.Arises (mode : Mode) (path : String) : FileResult → Prop where
  | valid : Arises mode path (.ofValid path .zero)
  | skipped (reason : String) : Arises mode path (.ofSkipped path reason .zero)
  | error (cause : Failure) : Arises mode path (.ofError path cause .zero)
  | finding (cause : Failure) (found : Receipt.isFinding cause = true) (counted : cause.IsCounted) :
      Arises mode path (.ofFinding path cause mode.decide .zero)

namespace Job

variable {job : Job} {engine : Engine} {store : Store} {volume : Volume} {c : Cache} {path : String}

theorem arises_documentResult {r : Except Failure (List Diagnostic)}
    (counted : ∀ cause, r = .error cause → cause.IsCounted) :
    FileResult.Arises job.mode path (job.documentResult path r) := by
  cases r with
  | ok warnings => exact .valid
  | error cause =>
    cases cause with
    | structural errors warnings => exact .finding _ rfl (counted _ rfl)
    | _ => exact .error _

theorem arises_receiptResult {mode : Mode} {r : Except Failure Bool}
    (counted : ∀ cause, r = .error cause → cause.IsCounted) :
    FileResult.Arises mode path (receiptResult path (Receipt.outcomeOf mode r)) := by
  match r with
  | .ok true => exact .valid
  | .ok false => exact .skipped _
  | .error cause =>
    by_cases found : Receipt.isFinding cause = true
    · rw [Receipt.outcomeOf, if_pos found]
      exact .finding cause found (counted cause rfl)
    · rw [Receipt.outcomeOf, if_neg found]
      exact .error cause

/-- What comes of a file is one of these. -/
theorem arises_checkFile :
    FileResult.Arises job.mode path ((job.checkFile engine store volume path).run c).1.1 := by
  unfold checkFile
  split
  · next checks =>
    split
    · exact .error _
    · next content _ =>
      unfold checkContent
      split
      · split
        · exact .error _
        · next message _ =>
          rw [Receipt.inspect, if_pos checks]
          exact arises_receiptResult (Receipt.failsCounted_judge engine store job.registry message c)
      · exact arises_documentResult
          (((failsCounted_sessionFor engine store job.context).bind fun session =>
            failsCounted_check engine session content) c)
  · exact .skipped _

end Job

namespace FileResult

/-- The parts of a result belong together: findings have the action of the mode, and nothing else
    stops the pipeline; an invalid file has as many details as errors, and has some; a receipt that
    does not conform carries one of the two codes. -/
structure IsConsistent (mode : Mode) (f : FileResult) : Prop where
  action : f.action = if f.status.isFinding then mode.decide else .proceed
  invalid : ∀ count, f.status = .invalid count → count = f.details.length ∧ 1 ≤ count
  nonConformant : ∀ ebms message, f.status = .nonConformant ebms message →
    ebms = "EBMS:0301" ∨ ebms = "EBMS:0302"

theorem isConsistent_ofFinding {mode : Mode} {path : String} {cause : Failure} {duration : Duration}
    (found : Receipt.isFinding cause = true) (counted : cause.IsCounted) :
    IsConsistent mode (.ofFinding path cause mode.decide duration) := by
  cases cause with
  | structural errors warnings =>
    have some : 1 ≤ errors.length := List.length_pos_iff.2 counted
    exact ⟨rfl, by rintro _ ⟨⟩; exact ⟨(List.length_map _).symm, some⟩, by rintro _ _ ⟨⟩⟩
  | document cause =>
    exact ⟨rfl, by rintro _ ⟨⟩; exact ⟨rfl, Nat.le_refl 1⟩, by rintro _ _ ⟨⟩⟩
  | receiptAbsent =>
    exact ⟨rfl, by rintro _ ⟨⟩, by rintro _ _ ⟨⟩; exact .inl rfl⟩
  | conformance violation =>
    refine ⟨rfl, by rintro _ ⟨⟩, ?_⟩
    rintro _ _ ⟨⟩
    show violation.code.ebms = _ ∨ violation.code.ebms = _
    cases violation.code <;> simp [ConformanceCode.ebms]
  | _ => simp [Receipt.isFinding] at found

theorem Arises.isConsistent {mode : Mode} {path : String} {f : FileResult}
    (arises : Arises mode path f) : f.path = path ∧ f.IsConsistent mode := by
  cases arises with
  | valid => exact ⟨rfl, rfl, by rintro _ ⟨⟩, by rintro _ _ ⟨⟩⟩
  | skipped reason => exact ⟨rfl, rfl, by rintro _ ⟨⟩, by rintro _ _ ⟨⟩⟩
  | error cause => exact ⟨rfl, rfl, by rintro _ ⟨⟩, by rintro _ _ ⟨⟩⟩
  | finding cause found counted => exact ⟨rfl, isConsistent_ofFinding found counted⟩

/-- A result with the action that enforcing mode takes. -/
def enforced (f : FileResult) : FileResult :=
  { f with action := if f.status.isFinding then .abort else f.action }

theorem enforced_ofFinding (path : String) (cause : Failure) (duration : Duration) :
    (ofFinding path cause .proceed duration).enforced = ofFinding path cause .abort duration := by
  cases cause <;> rfl

end FileResult

/-! ## Two modes -/

namespace Job

variable {job : Job} {engine : Engine} {store : Store} {volume : Volume} {c : Cache} {path : String}

/-- The same job in another mode. -/
def inMode (job : Job) (mode : Mode) : Job := { job with mode }

theorem enforced_documentResult (job : Job) (path : String) (r : Except Failure (List Diagnostic)) :
    ((job.inMode .advisory).documentResult path r).enforced =
      (job.inMode .enforcing).documentResult path r := by
  match r with
  | .ok warnings => rfl
  | .error cause => cases cause <;> rfl

theorem enforced_receiptResult (path : String) (r : Except Failure Bool) :
    (receiptResult path (Receipt.outcomeOf .advisory r)).enforced =
      receiptResult path (Receipt.outcomeOf .enforcing r) := by
  match r with
  | .ok true => rfl
  | .ok false => rfl
  | .error cause =>
    by_cases found : Receipt.isFinding cause = true
    · rw [Receipt.outcomeOf, Receipt.outcomeOf, if_pos found, if_pos found]
      exact FileResult.enforced_ofFinding path cause .zero
    · rw [Receipt.outcomeOf, Receipt.outcomeOf, if_neg found, if_neg found]
      rfl

/-- A run with its value changed. -/
def onValue {α β : Type} (f : α → β) (run : (α × Cache) × Trace) : (β × Cache) × Trace :=
  ((f run.1.1, run.1.2), run.2)

theorem run_bind_pure {α β : Type} (w : Work α) (f : α → β) (c : Cache) :
    (w >>= fun a => pure (f a)).run c = onValue f (w.run c) :=
  congrArg (Prod.mk _) (Trace.append_nothing _)

theorem run_inspect {mode : Mode} (checks : mode.checks = true) (r : Registry) (message : String) :
    (Receipt.inspect engine store r mode message).run.run c =
      onValue (Receipt.outcomeOf mode) ((Receipt.judge engine store r message).run.run c) := by
  rw [Receipt.inspect, if_pos checks]
  exact run_bind_pure _ _ c

theorem run_checkContent_enforcing (content : Bytes) :
    ((job.inMode .enforcing).checkContent engine store path content).run c =
      onValue FileResult.enforced
        (((job.inMode .advisory).checkContent engine store path content).run c) := by
  unfold checkContent
  by_cases receipt : job.isReceipt = true
  · simp only [inMode, receipt, if_true]
    split
    · rfl
    · rw [run_bind_pure, run_bind_pure, run_inspect rfl, run_inspect rfl]
      exact congrArg (fun f => onValue f _) (funext fun r => (enforced_receiptResult path r).symm)
  · simp only [inMode, receipt, Bool.false_eq_true, if_false]
    rw [run_bind_pure, run_bind_pure]
    exact congrArg (fun f => onValue f _) (funext fun r => (enforced_documentResult job path r).symm)

/-- Enforcing mode does with a file what advisory mode does, and only then decides. -/
theorem run_checkFile_enforcing :
    ((job.inMode .enforcing).checkFile engine store volume path).run c =
      onValue FileResult.enforced
        (((job.inMode .advisory).checkFile engine store volume path).run c) := by
  have checks : (job.inMode .enforcing).mode.checks = true := rfl
  have checks' : (job.inMode .advisory).mode.checks = true := rfl
  rw [checkFile, checkFile, if_pos checks, if_pos checks']
  split
  · rfl
  · exact run_checkContent_enforcing _

/-! ## All files -/

theorem run_checkFiles_cons (paths : List String) :
    (job.checkFiles engine store volume (path :: paths)).run c =
      let first := (job.checkFile engine store volume path).run c
      let later := (job.checkFiles engine store volume paths).run first.1.2
      ((first.1.1 :: later.1.1, later.1.2), first.2.append later.2) := by
  refine congrArg (Prod.mk _) (congrArg (Trace.append _) ?_)
  exact Trace.append_nothing _

/-- Each file gives one result in its place. -/
theorem arises_checkFiles (job : Job) (paths : List String) (c : Cache) :
    List.Forall₂ (FileResult.Arises job.mode) paths
      ((job.checkFiles engine store volume paths).run c).1.1 := by
  induction paths generalizing c with
  | nil => exact .nil
  | cons path paths ih =>
    rw [run_checkFiles_cons]
    exact .cons arises_checkFile (ih _)

theorem run_checkFiles_enforcing (paths : List String) :
    ((job.inMode .enforcing).checkFiles engine store volume paths).run c =
      onValue (List.map FileResult.enforced)
        (((job.inMode .advisory).checkFiles engine store volume paths).run c) := by
  induction paths generalizing c with
  | nil => rfl
  | cons path paths ih =>
    rw [run_checkFiles_cons, run_checkFiles_cons, run_checkFile_enforcing]
    simp only [onValue, List.map_cons]
    rw [ih]
    rfl

/-- Files that are not checked are left alone, whatever they hold and whoever would check them. -/
theorem run_checkFiles_disabled (paths : List String) :
    ((job.inMode .disabled).checkFiles engine store volume paths).run c =
      ((paths.map fun path => .ofSkipped path "validation disabled" .zero, c), {}) := by
  induction paths with
  | nil => rfl
  | cons path paths ih =>
    have unchecked : ¬ (job.inMode .disabled).mode.checks = true := Bool.false_ne_true
    rw [run_checkFiles_cons, checkFile, if_neg unchecked]
    exact congrArg (onValue (List.cons (.ofSkipped path "validation disabled" .zero))) ih

end Job

end MessageConformance
