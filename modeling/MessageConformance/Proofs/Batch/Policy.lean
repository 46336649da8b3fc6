import MessageConformance.Proofs.Batch.Outcomes

/-!
# The policy on a batch of files

What the counts and the exit code of a batch say about its files, and what holds of a whole batch in
each mode (`Job.followsPolicy`): one result per file, all of them counted, nothing looked at in
disabled mode, the same findings in the two others, and an exit code that tells whether a file stops
the pipeline.
-/

namespace MessageConformance

open Files (Volume)

/-! ## Counting -/

namespace Results

theorem count_pos_iff (r : Results) (kind : Status → Bool) :
    0 < r.count kind ↔ ∃ f ∈ r.files, kind f.status = true := by
  simp [count, List.length_pos_iff_exists_mem]

theorem abortedFiles_pos_iff (r : Results) :
    0 < r.abortedFiles ↔ ∃ f ∈ r.files, f.action = .abort := by
  simp [abortedFiles, List.length_pos_iff_exists_mem]

/-- A file stops the pipeline: it is aborted on or could not be judged. -/
theorem stops_iff (r : Results) : (0 < r.abortedFiles || r.hasErrors) = true ↔
    ∃ f ∈ r.files, f.action = .abort ∨ f.status.isError = true := by
  rw [hasErrors, Bool.or_eq_true, decide_eq_true_iff, decide_eq_true_iff, abortedFiles_pos_iff,
    count_pos_iff]
  simp only [and_or_left, exists_or]

theorem exitCode_eq_one_iff (r : Results) :
    r.exitCode = 1 ↔ ∃ f ∈ r.files, f.action = .abort ∨ f.status.isError = true := by
  rw [← stops_iff, exitCode]
  split <;> simp_all

theorem exitCode_eq_zero_iff (r : Results) : r.exitCode = 0 ↔ ¬ r.exitCode = 1 := by
  rw [exitCode]
  split <;> simp

theorem count_cons (f : FileResult) (files : List FileResult) (total average : Duration)
    (kind : Status → Bool) :
    (Results.mk (f :: files) total average).count kind =
      (kind f.status).toNat + (Results.mk files total average).count kind := by
  cases same : kind f.status <;> simp [count, same, Nat.add_comm]

/-- A status is of one kind. -/
theorem kinds_sum (s : Status) :
    s.isValid.toNat + s.isInvalid.toNat + s.isNonConformant.toNat + s.isError.toNat +
      s.isSkipped.toNat = 1 := by
  cases s <;> rfl

/-- Each file counts once, by its status. -/
theorem count_sum (r : Results) :
    r.count Status.isValid + r.count Status.isInvalid + r.count Status.isNonConformant +
      r.count Status.isError + r.count Status.isSkipped = r.totalFiles := by
  obtain ⟨files, total, average⟩ := r
  induction files with
  | nil => rfl
  | cons f files ih =>
    have one := kinds_sum f.status
    simp only [count_cons, totalFiles, List.length_cons] at ih ⊢
    omega

theorem files_of_aggregate {files : List FileResult} {r : Results} (made : aggregate files = .ok r) :
    r.files = files := by
  unfold aggregate at made
  obtain ⟨total, -, made⟩ := bind_eq_ok_iff.1 made
  split at made <;>
    exact congrArg Results.files (Except.ok.inj (bind_eq_ok_iff.1 made).choose_spec.2).symm

/-- Results whose times have a sum can be aggregated, unless there are some and 32 bits count none. -/
theorem exists_aggregate_iff {files : List FileResult} {total : Duration}
    (sum : Duration.sum (files.map (·.duration)) = .ok total) :
    (∃ r, aggregate files = .ok r) ↔ files = [] ∨ files.length % Nat.pow 2 32 ≠ 0 := by
  unfold aggregate
  rw [sum]
  by_cases empty : files = []
  · subst empty
    exact ⟨fun _ => .inl rfl, fun _ => ⟨_, rfl⟩⟩
  · have some : ¬ files.isEmpty = true := by simpa using empty
    have divided : (∃ average, total.divide files.length = .ok average) ↔
        files.length % Nat.pow 2 32 ≠ 0 := by
      by_cases wrapped : files.length % Nat.pow 2 32 = 0
      · have failed : total.divide files.length = .error .divideByZero := if_pos wrapped
        simp only [failed, reduceCtorEq, exists_false, wrapped, ne_eq, not_true_eq_false]
      · have divided : total.divide files.length =
            .ok ⟨total.nanoseconds / (files.length % Nat.pow 2 32)⟩ := if_neg wrapped
        simp only [divided, Except.ok.injEq, exists_eq', ne_eq, wrapped, not_false_eq_true]
    rw [← divided]
    simp only [bind, Except.bind, some, Bool.false_eq_true, if_false, empty, false_or]
    cases total.divide files.length <;> simp [pure, Except.pure]

end Results

/-- A result without the time that it took. -/
def FileResult.untimed (f : FileResult) : FileResult := { f with duration := .zero }

/-- Some results are the same but for the time that was taken. -/
def SameButTime (files files' : List FileResult) : Prop :=
  files.map FileResult.untimed = files'.map FileResult.untimed

theorem SameButTime.length_eq {files files' : List FileResult} (same : SameButTime files files') :
    files.length = files'.length := by
  simpa using congrArg List.length same

/-- What stops the pipeline does not depend on the time that was taken. -/
theorem SameButTime.stops_iff {files files' : List FileResult} (same : SameButTime files files') :
    (∃ f ∈ files, f.action = .abort ∨ f.status.isError = true) ↔
      ∃ f ∈ files', f.action = .abort ∨ f.status.isError = true := by
  have untimed (files : List FileResult) :
      (∃ f ∈ files.map FileResult.untimed, f.action = .abort ∨ f.status.isError = true) ↔
        ∃ f ∈ files, f.action = .abort ∨ f.status.isError = true := by
    simp [FileResult.untimed]
  rw [← untimed files, same, untimed files']

/-- Results put together from some files, whatever time each of them took. -/
def Results.IsOf (r : Results) (files : List FileResult) : Prop :=
  ∃ timed, SameButTime timed files ∧ Results.aggregate timed = .ok r

theorem Results.IsOf.sameButTime {r : Results} {files : List FileResult} (isOf : r.IsOf files) :
    SameButTime r.files files := by
  obtain ⟨timed, same, made⟩ := isOf
  exact files_of_aggregate made ▸ same

theorem Results.IsOf.exitCode_eq_one_iff {r : Results} {files : List FileResult}
    (isOf : r.IsOf files) :
    r.exitCode = 1 ↔ ∃ f ∈ files, f.action = .abort ∨ f.status.isError = true := by
  rw [Results.exitCode_eq_one_iff, isOf.sameButTime.stops_iff]

/-! ## The policy -/

namespace Job

/-- The results of some files in a mode. -/
def results (job : Job) (engine : Engine) (store : Store) (volume : Volume) (paths : List String)
    (c : Cache) (mode : Mode) : List FileResult :=
  (((job.inMode mode).checkFiles engine store volume paths).run c).1.1

/-- What a batch of files keeps to in each mode. -/
structure FollowsPolicy (job : Job) (engine : Engine) (store : Store) (volume : Volume)
    (paths : List String) (c : Cache) : Prop where
  /-- There is one result per file, in order. -/
  inOrder : ∀ mode, (job.results engine store volume paths c mode).map (·.path) = paths
  /-- Every file is counted once. -/
  counted : ∀ (mode : Mode) (r : Results), r.IsOf (job.results engine store volume paths c mode) →
    r.totalFiles = paths.length ∧
      r.count Status.isValid + r.count Status.isInvalid + r.count Status.isNonConformant +
        r.count Status.isError + r.count Status.isSkipped = r.totalFiles
  /-- The results can be put together if their times have a sum, unless there are files and 32
      bits count none. -/
  countable : ∀ (mode : Mode) (timed : List FileResult) (total : Duration),
    SameButTime timed (job.results engine store volume paths c mode) →
      Duration.sum (timed.map (·.duration)) = .ok total →
        ((∃ r, Results.aggregate timed = .ok r) ↔
          paths = [] ∨ paths.length % Nat.pow 2 32 ≠ 0)
  /-- When nothing is checked every file is skipped. -/
  skipped : ∀ f ∈ job.results engine store volume paths c .disabled, f.status.isSkipped = true
  /-- When nothing is checked the files, the schemas and the engine make no difference, nothing is
      asked of them, and the cache is left as it is. -/
  untouched : ∀ engine' store' volume',
    ((job.inMode .disabled).checkFiles engine' store' volume' paths).run c =
      ((job.results engine store volume paths c .disabled, c), {})
  disabledExit : ∀ r : Results, r.IsOf (job.results engine store volume paths c .disabled) →
    r.exitCode = 0
  /-- The two modes that check agree on what is found. -/
  agreed : (job.results engine store volume paths c .advisory).map (fun f => (f.status, f.details)) =
    (job.results engine store volume paths c .enforcing).map fun f => (f.status, f.details)
  neverAborted : ∀ f ∈ job.results engine store volume paths c .advisory, f.action ≠ .abort
  advisoryExit : ∀ r : Results, r.IsOf (job.results engine store volume paths c .advisory) →
    (r.exitCode = 1 ↔
      ∃ f ∈ job.results engine store volume paths c .advisory, f.status.isError = true)
  aborted_iff : ∀ f ∈ job.results engine store volume paths c .enforcing,
    f.action = .abort ↔ f.status.isInvalid = true ∨ f.status.isNonConformant = true
  enforcingExit : ∀ r : Results, r.IsOf (job.results engine store volume paths c .enforcing) →
    (r.exitCode = 1 ↔ ∃ f ∈ job.results engine store volume paths c .enforcing,
      f.status.isValid = false ∧ f.status.isSkipped = false)
  /-- An invalid file has its errors to show. -/
  invalid : ∀ mode, ∀ f ∈ job.results engine store volume paths c mode, ∀ count,
    f.status = .invalid count → count = f.details.length ∧ 1 ≤ count
  nonConformant : ∀ mode, ∀ f ∈ job.results engine store volume paths c mode, ∀ ebms message,
    f.status = .nonConformant ebms message → ebms = "EBMS:0301" ∨ ebms = "EBMS:0302"

variable {job : Job} {engine : Engine} {store : Store} {volume : Volume} {paths : List String}
  {c : Cache} {mode : Mode}

theorem arises_results :
    List.Forall₂ (FileResult.Arises mode) paths (job.results engine store volume paths c mode) :=
  arises_checkFiles (job.inMode mode) paths c

theorem map_path_eq {results : List FileResult}
    (arises : List.Forall₂ (FileResult.Arises mode) paths results) :
    results.map (·.path) = paths := by
  induction arises with
  | nil => rfl
  | cons first _ ih => rw [List.map_cons, ih, first.isConsistent.1]

theorem exists_arises_of_mem {results : List FileResult} {f : FileResult}
    (arises : List.Forall₂ (FileResult.Arises mode) paths results) (member : f ∈ results) :
    ∃ path, FileResult.Arises mode path f := by
  induction arises with
  | nil => simp at member
  | cons first _ ih =>
    rcases List.mem_cons.1 member with rfl | later
    · exact ⟨_, first⟩
    · exact ih later

theorem isConsistent_of_mem {f : FileResult}
    (member : f ∈ job.results engine store volume paths c mode) : f.IsConsistent mode := by
  obtain ⟨path, arises⟩ := exists_arises_of_mem arises_results member
  exact arises.isConsistent.2

theorem action_eq_abort_iff {f : FileResult}
    (member : f ∈ job.results engine store volume paths c .enforcing) :
    f.action = .abort ↔ f.status.isInvalid = true ∨ f.status.isNonConformant = true := by
  rw [(isConsistent_of_mem member).action, ← Bool.or_eq_true, ← Status.isFinding]
  cases f.status.isFinding <;> simp [Mode.decide]

theorem action_ne_abort {f : FileResult}
    (member : f ∈ job.results engine store volume paths c .advisory) : f.action ≠ .abort := by
  rw [(isConsistent_of_mem member).action]
  cases f.status.isFinding <;> simp [Mode.decide]

theorem results_disabled : job.results engine store volume paths c .disabled =
    paths.map fun path => .ofSkipped path "validation disabled" .zero := by
  rw [results, run_checkFiles_disabled]

theorem results_enforcing : job.results engine store volume paths c .enforcing =
    (job.results engine store volume paths c .advisory).map FileResult.enforced := by
  rw [results, results, run_checkFiles_enforcing]
  rfl

/-- Whatever the files hold and the engine answers, a batch follows the policy. -/
theorem followsPolicy (job : Job) (engine : Engine) (store : Store) (volume : Volume)
    (paths : List String) (c : Cache) : job.FollowsPolicy engine store volume paths c := by
  constructor
  case inOrder => exact fun mode => map_path_eq arises_results
  case counted =>
    intro mode r isOf
    exact ⟨isOf.sameButTime.length_eq.trans arises_results.length_eq.symm, r.count_sum⟩
  case countable =>
    intro mode timed total same sum
    have length : timed.length = paths.length := same.length_eq.trans arises_results.length_eq.symm
    rw [Results.exists_aggregate_iff sum, ← List.length_eq_zero_iff, length, List.length_eq_zero_iff]
  case skipped =>
    intro f member
    rw [results_disabled] at member
    obtain ⟨path, -, rfl⟩ := List.mem_map.1 member
    rfl
  case untouched =>
    intro engine' store' volume'
    rw [results_disabled]
    exact run_checkFiles_disabled paths
  case disabledExit =>
    intro r isOf
    rw [Results.exitCode_eq_zero_iff, isOf.exitCode_eq_one_iff, results_disabled]
    rintro ⟨f, member, stops⟩
    obtain ⟨path, -, rfl⟩ := List.mem_map.1 member
    simp [FileResult.ofSkipped, Status.isError] at stops
  case agreed =>
    rw [results_enforcing, List.map_map]
    rfl
  case neverAborted => exact fun f member => action_ne_abort member
  case advisoryExit =>
    intro r isOf
    rw [isOf.exitCode_eq_one_iff]
    refine exists_congr fun f => and_congr_right fun member => ?_
    simp [action_ne_abort member]
  case aborted_iff => exact fun f member => action_eq_abort_iff member
  case enforcingExit =>
    intro r isOf
    rw [isOf.exitCode_eq_one_iff]
    refine exists_congr fun f => and_congr_right fun member => ?_
    rw [action_eq_abort_iff member]
    cases f.status <;>
      simp [Status.isInvalid, Status.isNonConformant, Status.isError, Status.isValid, Status.isSkipped]
  case invalid => exact fun mode f member => (isConsistent_of_mem member).invalid
  case nonConformant => exact fun mode f member => (isConsistent_of_mem member).nonConformant

end Job

end MessageConformance
