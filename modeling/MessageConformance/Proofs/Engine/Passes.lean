import MessageConformance.Cache

/-!
# What a structural pass comes to

A pass reports diagnostics and ends with a code. The diagnostics are split by severity in the
order they were reported (`errors_recordAll`, `warnings_recordAll`); the result of a check is
then decided by the sign of the code and by whether anything worse than a warning was reported
(`result_checked`). A document that cannot be read is never accepted (`result_malformed`).
-/

namespace MessageConformance

namespace Report

/-- The errors and fatal diagnostics of a report, in order. -/
def faults (report : Report) : List Diagnostic :=
  report.diagnostics.filter (·.severity ≠ .warning)

/-- The warnings of a report, in order. -/
def warnings (report : Report) : List Diagnostic :=
  report.diagnostics.filter (·.severity = .warning)

/-- Nothing worse than a warning was reported. -/
def IsClean (report : Report) : Prop := ∀ d ∈ report.diagnostics, d.severity = .warning

instance (report : Report) : Decidable report.IsClean := by
  unfold IsClean; infer_instance

theorem faults_eq_nil_iff (report : Report) : report.faults = [] ↔ report.IsClean := by
  simp [faults, IsClean, List.filter_eq_nil_iff]

end Report

namespace Collector

theorem errors_recordAll (c : Collector) (ds : List Diagnostic) :
    (c.recordAll ds).errors = c.errors ++ ds.filter (·.severity ≠ .warning) := by
  unfold recordAll
  induction ds generalizing c with
  | nil => simp
  | cons d ds ih =>
    rw [List.foldl_cons, ih]
    cases severity : d.severity <;> simp [record, severity]

theorem warnings_recordAll (c : Collector) (ds : List Diagnostic) :
    (c.recordAll ds).warnings = c.warnings ++ ds.filter (·.severity = .warning) := by
  unfold recordAll
  induction ds generalizing c with
  | nil => simp
  | cons d ds ih =>
    rw [List.foldl_cons, ih]
    cases severity : d.severity <;> simp [record, severity]

theorem recordAll_empty (report : Report) :
    empty.recordAll report.diagnostics = ⟨report.faults, report.warnings⟩ := by
  have errors := errors_recordAll empty report.diagnostics
  have warnings := warnings_recordAll empty report.diagnostics
  calc empty.recordAll report.diagnostics
      = ⟨(empty.recordAll report.diagnostics).errors,
          (empty.recordAll report.diagnostics).warnings⟩ := rfl
    _ = ⟨report.faults, report.warnings⟩ := by rw [errors, warnings]; rfl

end Collector

namespace Pass

/-- The result of a check by what the engine does with the document: its warnings, or why it
    is not accepted. -/
def result (p : Pass) : Except Failure (List Diagnostic) :=
  match p.report .empty with
  | (_, .error cause) => .error cause.toFailure
  | (collector, .ok _) => collector.result

theorem result_malformed (lastError : Option Record) :
    (Pass.malformed lastError).result = .error (.structural [unreadable lastError] []) := by
  have fatal : (unreadable lastError).severity = .fatal := by cases lastError <;> rfl
  simp [result, report, Collector.record, fatal, Collector.result, Collector.empty]

/-- A negative code is a failure of the engine; otherwise the worst diagnostic decides. -/
theorem result_checked (report : Report) (code : Int) :
    (Pass.checked report code).result =
      if code < 0 then .error (EngineFailure.internal code).toFailure
      else if report.faults = [] then .ok report.warnings
      else .error (.structural report.faults report.warnings) := by
  simp only [result, Pass.report, Collector.recordAll_empty, Verdict.ofCode]
  rcases Int.lt_trichotomy code 0 with negative | rfl | positive
  · have notPositive : ¬ 0 < code := by omega
    simp [negative, notPositive, Int.ne_of_lt negative]
  · by_cases none : report.faults = [] <;> simp [Collector.result, none]
  · have notNegative : ¬ code < 0 := by omega
    by_cases none : report.faults = [] <;>
      simp [Collector.result, none, positive, notNegative, Int.ne_of_gt positive]

/-- A document is accepted when it was checked to the end, the code is not negative and
    nothing worse than a warning was reported. -/
theorem result_eq_ok_iff (p : Pass) (warnings : List Diagnostic) :
    p.result = .ok warnings ↔
      ∃ report code, p = .checked report code ∧ 0 ≤ code ∧ report.IsClean ∧
        warnings = report.warnings := by
  cases p with
  | malformed lastError => simp [result_malformed]
  | checked report code =>
    have same : (∃ r k, checked report code = checked r k ∧ 0 ≤ k ∧ r.IsClean ∧
        warnings = r.warnings) ↔ 0 ≤ code ∧ report.faults = [] ∧ warnings = report.warnings := by
      rw [Report.faults_eq_nil_iff]
      constructor
      · rintro ⟨r, k, equal, holds⟩
        obtain ⟨rfl, rfl⟩ := Pass.checked.inj equal
        exact holds
      · exact fun holds => ⟨report, code, rfl, holds⟩
    rw [result_checked, same]
    by_cases negative : code < 0
    · have : ¬ 0 ≤ code := by omega
      simp [negative, this]
    · have : 0 ≤ code := by omega
      by_cases none : report.faults = [] <;> simp [negative, none, this, eq_comm]

end Pass

/-- A check is decided by the size of the document and what the engine does with it. -/
theorem Session.outcome_check (engine : Engine) (s : Session) (document : Bytes) (c : Cache) :
    (s.check engine document).outcome c =
      if document.length > sizeLimit then
        .error (EngineFailure.tooLarge document.length).toFailure
      else (engine.pass s.schema.input document).result := by
  rw [Session.check, Attempt.outcome_bind, Attempt.outcome_lift]
  by_cases large : document.length > sizeLimit
  · have refused : (s.validate engine document).run c =
        ((((.empty, .error (.tooLarge document.length)) : Collector × _), c), {}) := by
      simp only [Session.validate, large, ↓reduceIte]; rfl
    simp [refused, large]
  · have made : ((s.validate engine document).run c).1.1 =
        (engine.pass s.schema.input document).report .empty := by
      simp only [Session.validate, large, ↓reduceIte]; rfl
    rw [made, if_neg large, Pass.result]
    rcases (engine.pass s.schema.input document).report .empty with ⟨collector, cause | verdict⟩ <;> rfl

/-- A check leaves the cache as it is. -/
theorem Session.after_check (engine : Engine) (s : Session) (document : Bytes) (c : Cache) :
    (s.check engine document).after c = c := by
  have unchanged : ((s.validate engine document).run c).1.2 = c := by
    unfold Session.validate
    split <;> rfl
  rw [Session.check, Attempt.after_bind, Attempt.outcome_lift, Attempt.after_lift, unchanged]
  rcases ((s.validate engine document).run c).1.1 with ⟨collector, cause | verdict⟩ <;> rfl

/-- A check succeeds when the engine takes the document, reads it, does not fail on it and
    reports nothing worse than a warning. -/
theorem Session.check_succeeds_iff (engine : Engine) (s : Session) (document : Bytes) (c : Cache) :
    (∃ warnings, (s.check engine document).outcome c = .ok warnings) ↔
      document.length ≤ sizeLimit ∧ ∃ report code,
        engine.pass s.schema.input document = .checked report code ∧ 0 ≤ code ∧ report.IsClean := by
  rw [Session.outcome_check]
  by_cases large : document.length > sizeLimit
  · simp [large, Nat.not_le.2 large]
  · simp only [large, ↓reduceIte, Pass.result_eq_ok_iff]
    constructor
    · rintro ⟨_, report, code, pass, judged, clean, -⟩
      exact ⟨Nat.not_lt.1 large, report, code, pass, judged, clean⟩
    · rintro ⟨-, report, code, pass, judged, clean⟩
      exact ⟨_, report, code, pass, judged, clean, rfl⟩

end MessageConformance
