import Mathlib.Data.List.Forall2
import MessageConformance.Proofs.Engine.Passes

/-!
# From records to diagnostics

An engine hands over its records one by one (`Collector.receive`). At each moment the collector
holds those that were handed over, split by their levels and otherwise as they came
(`Collector.Holds`): a record adds one diagnostic (`Collector.Holds.receive`), and so a whole
report adds all of its own (`Collector.Holds.receiveAll`). What a check says of a document is then
read off the records (`Session.reports`).
-/

namespace MessageConformance

/-! ## Records -/

/-- A diagnostic says what a record does, in the words of the library: only the first level is a
    warning and only the third is fatal, and positions are not negative. -/
structure Record.Yields (r : Record) (d : Diagnostic) : Prop where
  warning : d.severity = .warning ↔ r.level = 1
  fatal : d.severity = .fatal ↔ r.level = 3
  line : (d.line : Int) = max r.line 0
  column : (d.column : Int) = max r.column 0
  message : d.message = (r.message.map fun text => Text.trim text.lossyText).getD
    "unknown libxml2 error"

theorem Record.severity_eq_warning_iff (level : Int) : severity level = .warning ↔ level = 1 := by
  unfold severity
  split
  · next first => simp [first]
  · next other => split <;> simp [other]

theorem Record.severity_eq_fatal_iff (level : Int) : severity level = .fatal ↔ level = 3 := by
  unfold severity
  split
  · next first => simp [first]
  · split
    · next third => simp [third]
    · next other => simp [other]

theorem Record.yields_diagnostic (r : Record) : r.Yields r.diagnostic where
  warning := severity_eq_warning_iff r.level
  fatal := severity_eq_fatal_iff r.level
  line := Int.ofNat_toNat r.line
  column := Int.ofNat_toNat r.column
  message := by
    unfold Record.diagnostic
    cases r.message <;> rfl

/-- The records of a report; the empty ones are no records. -/
def Report.records (report : Report) : List Record := report.filterMap id

/-! ## Collecting -/

namespace Collector

/-- The collector after one more record is handed over, or an empty one. -/
def receive (c : Collector) : Option Record → Collector
  | none => c
  | some r => c.record r.diagnostic

/-- A report is collected record by record. -/
theorem recordAll_diagnostics (c : Collector) (report : Report) :
    c.recordAll report.diagnostics = report.foldl receive c := by
  induction report generalizing c with
  | nil => rfl
  | cons first rest ih =>
    rw [List.foldl_cons, ← ih]
    cases first <;> rfl

/-- A collector holds some records: those of the first level as warnings and all others as errors,
    each once and in the order they came. -/
structure Holds (c : Collector) (records : List Record) : Prop where
  warnings : List.Forall₂ Record.Yields (records.filter (·.level = 1)) c.warnings
  errors : List.Forall₂ Record.Yields (records.filter (·.level ≠ 1)) c.errors

theorem holds_empty : empty.Holds [] := ⟨.nil, .nil⟩

variable {c : Collector} {records : List Record}

/-- One more record is one more diagnostic, after those of its kind. -/
theorem Holds.receive (holds : c.Holds records) (reported : Option Record) :
    (c.receive reported).Holds (records ++ reported.toList) := by
  cases reported with
  | none =>
    rw [Option.toList_none, List.append_nil]
    exact holds
  | some r =>
    have yields := r.yields_diagnostic
    by_cases first : r.level = 1
    · have kind : r.diagnostic.severity = .warning := yields.warning.2 first
      have received : c.receive (some r) = { c with warnings := c.warnings ++ [r.diagnostic] } := by
        simp [Collector.receive, record, kind]
      rw [received, Option.toList_some]
      constructor
      · simpa [List.filter_append, first] using
          List.rel_append holds.warnings (.cons yields .nil)
      · simpa [List.filter_append, first] using holds.errors
    · have kind : r.diagnostic.severity ≠ .warning := mt yields.warning.1 first
      have received : c.receive (some r) = { c with errors := c.errors ++ [r.diagnostic] } := by
        cases severity : r.diagnostic.severity with
        | warning => exact absurd severity kind
        | error => simp [Collector.receive, record, severity]
        | fatal => simp [Collector.receive, record, severity]
      rw [received, Option.toList_some]
      constructor
      · simpa [List.filter_append, first] using holds.warnings
      · simpa [List.filter_append, first] using
          List.rel_append holds.errors (.cons yields .nil)

/-- A report adds its records to those that are held. -/
theorem Holds.receiveAll (holds : c.Holds records) (report : Report) :
    (report.foldl Collector.receive c).Holds (records ++ report.records) := by
  induction report generalizing c records with
  | nil => simpa [Report.records] using holds
  | cons first rest ih =>
    have added : records ++ Report.records (first :: rest) =
        records ++ first.toList ++ Report.records rest := by
      cases first <;> simp [Report.records]
    rw [added]
    exact ih (holds.receive first)

/-- A collector has errors when it holds a record of another level than the first. -/
theorem Holds.errors_ne_nil_iff (holds : c.Holds records) :
    c.errors ≠ [] ↔ ∃ r ∈ records, r.level ≠ 1 := by
  have empty : c.errors = [] ↔ records.filter (·.level ≠ 1) = [] := by
    rw [← List.length_eq_zero_iff, ← holds.errors.length_eq, List.length_eq_zero_iff]
  rw [Ne, empty, List.filter_eq_nil_iff]
  simp

end Collector

/-! ## Passes -/

/-- A document that is checked to the end has its report collected, and a negative code means that
    the engine failed. -/
theorem Pass.report_checked (c : Collector) (report : Report) (code : Int) :
    (Pass.checked report code).report c =
      (report.foldl Collector.receive c,
        if code < 0 then .error (.internal code) else .ok (.ofCode code)) := by
  rw [Pass.report, Collector.recordAll_diagnostics, Verdict.ofCode]
  rcases Int.lt_trichotomy code 0 with negative | rfl | positive
  · have notPositive : ¬ 0 < code := by omega
    simp [negative, notPositive, Int.ne_of_lt negative]
  · rfl
  · have notNegative : ¬ code < 0 := by omega
    simp [positive, notNegative, Int.ne_of_gt positive]

/-- A report is collected as the faults and the warnings in it. -/
theorem Report.foldl_receive (report : Report) :
    report.foldl Collector.receive .empty = ⟨report.faults, report.warnings⟩ := by
  rw [← Collector.recordAll_diagnostics, Collector.recordAll_empty]

theorem Report.holds (report : Report) :
    (⟨report.faults, report.warnings⟩ : Collector).Holds report.records := by
  rw [← report.foldl_receive]
  exact Collector.holds_empty.receiveAll report

/-! ## Sessions -/

/-- What a pass over a document leaves: what was collected, and the verdict or what failed. -/
def Session.passed (engine : Engine) (s : Session) (document : Bytes) (c : Cache) :
    Collector × Except EngineFailure Verdict := ((s.validate engine document).run c).1.1

section

variable {engine : Engine} {s : Session} {document : Bytes}

theorem Session.passed_eq (fits : document.length ≤ sizeLimit) (c : Cache) :
    s.passed engine document c = (engine.pass s.schema.input document).report .empty := by
  have small : ¬ document.length > sizeLimit := Nat.not_lt.2 fits
  simp only [Session.passed, Session.validate, small, ↓reduceIte]
  rfl

theorem Session.outcome_check_eq_result (fits : document.length ≤ sizeLimit) (c : Cache) :
    (s.check engine document).outcome c = (engine.pass s.schema.input document).result := by
  rw [Session.outcome_check, if_neg (Nat.not_lt.2 fits)]

/-- What is reported while a document is checked is kept. When the document is checked to the end,
    the collector holds the records, and the check fails with all of them if one is more than a
    warning; a document that cannot be read has one diagnostic, which is fatal; and a negative code
    is a failure of the engine, whatever was reported. -/
theorem Session.reports (fits : document.length ≤ sizeLimit) (c : Cache) :
    (∀ report code, engine.pass s.schema.input document = .checked report code → 0 ≤ code →
      ∃ collector : Collector, collector.Holds report.records ∧
        s.passed engine document c = (collector, .ok (.ofCode code)) ∧
        ((∃ r ∈ report.records, r.level ≠ 1) → (s.check engine document).outcome c =
          .error (.structural collector.errors collector.warnings)) ∧
        ((∀ r ∈ report.records, r.level = 1) → (s.check engine document).outcome c =
          .ok collector.warnings)) ∧
    (∀ lastError, engine.pass s.schema.input document = .malformed lastError →
      ∃ d : Diagnostic, d.severity = .fatal ∧
        (∀ r ∈ lastError, d = { r.diagnostic with severity := .fatal }) ∧
        s.passed engine document c = (⟨[d], []⟩, .ok (.invalid 1)) ∧
        (s.check engine document).outcome c = .error (.structural [d] [])) ∧
    (∀ report code, engine.pass s.schema.input document = .checked report code → code < 0 →
      (∃ collector : Collector, collector.Holds report.records ∧
        s.passed engine document c = (collector, .error (.internal code))) ∧
      (s.check engine document).outcome c = .error (EngineFailure.internal code).toFailure) := by
  rw [Session.passed_eq fits, Session.outcome_check_eq_result fits]
  refine ⟨?_, ?_, ?_⟩
  · intro report code pass judged
    have notNegative : ¬ code < 0 := by omega
    rw [pass, Pass.report_checked, Pass.result_checked, report.foldl_receive, if_neg notNegative,
      if_neg notNegative]
    refine ⟨_, report.holds, rfl, fun worse => ?_, fun clean => ?_⟩
    · rw [if_neg (report.holds.errors_ne_nil_iff.2 worse)]
    · have none : report.faults = [] := by
        refine Classical.byContradiction fun some => ?_
        obtain ⟨r, member, other⟩ := report.holds.errors_ne_nil_iff.1 some
        exact other (clean r member)
      rw [if_pos none]
  · intro lastError pass
    have fatal : (unreadable lastError).severity = .fatal := by cases lastError <;> rfl
    rw [pass, Pass.result_malformed]
    refine ⟨unreadable lastError, fatal, ?_, ?_, rfl⟩
    · rintro r ⟨⟩
      rfl
    · simp [Pass.report, Collector.record, fatal, Collector.empty]
  · intro report code pass negative
    rw [pass, Pass.report_checked, Pass.result_checked, report.foldl_receive, if_pos negative,
      if_pos negative]
    exact ⟨⟨_, report.holds, rfl⟩, rfl⟩

end

/-- A report with an empty record, two warnings, one of them without a message and at a negative
    position, and an error, a fatal record and one of a level of its own. -/
def mixedReport : Report :=
  [some ⟨1, -3, -1, none⟩, none, some ⟨2, 4, 1, none⟩, some ⟨3, 5, 0, none⟩, some ⟨1, 6, 2, none⟩,
    some ⟨-7, 8, 0, none⟩]

/-- An engine that gives `mixedReport` of every document, and the code 3. -/
def mixedEngine : Engine := { Engine.unavailable with pass := fun _ _ => .checked mixedReport 3 }

def receiptSession : Session := ⟨0, .context .nrrReceipt, [], 0, ⟨[], []⟩⟩

theorem Session.reports_mixedReport :
    ∃ collector : Collector, collector.Holds mixedReport.records ∧
      collector.errors.length = 3 ∧ collector.warnings.length = 2 ∧
      (receiptSession.check mixedEngine []).outcome .empty =
        .error (.structural collector.errors collector.warnings) := by
  have fits : ([] : Bytes).length ≤ sizeLimit := by decide
  have pass : mixedEngine.pass receiptSession.schema.input [] = .checked mixedReport 3 := rfl
  obtain ⟨collector, holds, -, fails, -⟩ :=
    (Session.reports fits .empty).1 mixedReport 3 pass (by decide)
  refine ⟨collector, holds, ?_, ?_, fails (by decide)⟩
  · rw [← holds.errors.length_eq]
    rfl
  · rw [← holds.warnings.length_eq]
    rfl

end MessageConformance
