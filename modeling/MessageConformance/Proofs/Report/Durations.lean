import Mathlib.Algebra.Ring.Nat
import MessageConformance.Report.Results

/-!
# Sums and means of durations

Durations are added and divided in seconds and nanoseconds, with what is carried from one to the
other; in nanoseconds alone this is addition and division of numbers (`Duration.add_carries`,
`Duration.divide_carries`). A sum exists exactly if the numbers add up to no more than the longest
duration, and is then exact (`Duration.sum_eq`), so the order does not matter. The mean of some
results is exact as long as 32 bits count them; of `2 ^ 32` results there is none
(`Results.addsUp_iff`, `Results.not_addsUp_of_many`).
-/

namespace MessageConformance

namespace Duration

/-- The nanoseconds of some durations together. -/
def total (ds : List Duration) : Nat := (ds.map (·.nanoseconds)).sum

/-! ## Seconds and nanoseconds -/

/-- A sum has the seconds of both parts, and one more if their nanoseconds make one up. It has no
    value when 64 bits do not count its seconds. -/
theorem add_carries (a b : Duration) :
    (add a b = .error .overflow ↔
      2 ^ 64 ≤ a.seconds + b.seconds + (a.subsecond + b.subsecond) / second) ∧
    ∀ d, add a b = .ok d →
      d.seconds = a.seconds + b.seconds + (a.subsecond + b.subsecond) / second ∧
        d.subsecond = (a.subsecond + b.subsecond) % second := by
  have longest : limit = 2 ^ 64 * 1000000000 - 1 := by decide
  simp only [add, seconds, subsecond, second, longest]
  constructor
  · split
    · next fits =>
      simp only [reduceCtorEq, false_iff]
      omega
    · next exceeds =>
      simp only [true_iff]
      omega
  · intro d made
    split at made
    · obtain rfl := Except.ok.inj made
      simp only
      omega
    · cases made

/-- A quotient has the quotient of the seconds, and that of the nanoseconds with the seconds that
    are left. -/
theorem divide_carries {d quotient : Duration} {n : Nat} (few : n < 2 ^ 32)
    (made : d.divide n = .ok quotient) :
    quotient.seconds = d.seconds / n ∧
      quotient.subsecond = (d.seconds % n * second + d.subsecond) / n := by
  have narrow : n % Nat.pow 2 32 = n := Nat.mod_eq_of_lt few
  simp only [divide, narrow] at made
  split at made
  · cases made
  obtain rfl := Except.ok.inj made
  constructor
  · calc d.nanoseconds / n / second
        = d.nanoseconds / (n * second) := Nat.div_div_eq_div_mul _ n second
      _ = d.nanoseconds / (second * n) := by rw [Nat.mul_comm]
      _ = d.seconds / n := (Nat.div_div_eq_div_mul _ second n).symm
  · have carried : d.nanoseconds % (n * second) = d.seconds % n * second + d.subsecond := by
      rw [Nat.mul_comm, Nat.mod_mul, Nat.add_comm, Nat.mul_comm]
      rfl
    rw [← carried]
    exact (Nat.mod_mul_right_div_self _ n second).symm

/-! ## Sums -/

/-- From a duration that there can be, others are added as long as all of them together come to
    one that there can be. -/
theorem foldlM_add {start : Duration} (possible : start.nanoseconds ≤ limit) (ds : List Duration) :
    ds.foldlM add start =
      if start.nanoseconds + total ds ≤ limit then .ok ⟨start.nanoseconds + total ds⟩
      else .error .overflow := by
  induction ds generalizing start with
  | nil => simp [total, possible, pure, Except.pure]
  | cons d ds ih =>
    have more : start.nanoseconds + total (d :: ds) =
        start.nanoseconds + d.nanoseconds + total ds := by
      simp [total, Nat.add_assoc]
    rw [List.foldlM_cons, more, add]
    by_cases fits : start.nanoseconds + d.nanoseconds ≤ limit
    · have added : (⟨start.nanoseconds + d.nanoseconds⟩ : Duration).nanoseconds ≤ limit := fits
      rw [if_pos fits]
      exact ih added
    · have exceeds : ¬ start.nanoseconds + d.nanoseconds + total ds ≤ limit := by omega
      rw [if_neg fits, if_neg exceeds]
      rfl

/-- A sum is exact, and there is none exactly if it would be longer than the longest duration. -/
theorem sum_eq (ds : List Duration) :
    sum ds = if total ds ≤ limit then .ok ⟨total ds⟩ else .error .overflow := by
  have possible : zero.nanoseconds ≤ limit := Nat.zero_le _
  have added := foldlM_add possible ds
  rwa [zero, Nat.zero_add] at added

end Duration

/-! ## Results -/

namespace Results

/-- The nanoseconds that some results took together. -/
def nanoseconds (files : List FileResult) : Nat := Duration.total (files.map (·.duration))

theorem nanoseconds_eq_of_perm {files files' : List FileResult} (same : files.Perm files') :
    nanoseconds files = nanoseconds files' := by
  rw [nanoseconds, nanoseconds, Duration.total, Duration.total]
  exact ((same.map _).map _).sum_nat

theorem nanoseconds_replicate (n : Nat) (f : FileResult) :
    nanoseconds (List.replicate n f) = n * f.duration.nanoseconds := by
  simp [nanoseconds, Duration.total]

theorem sum_durations (files : List FileResult) :
    Duration.sum (files.map (·.duration)) =
      if nanoseconds files ≤ Duration.limit then .ok ⟨nanoseconds files⟩ else .error .overflow :=
  Duration.sum_eq _

/-- How results are aggregated, by the sum of their times and by how many they are as 32 bits count
    them. -/
theorem aggregate_eq (files : List FileResult) :
    aggregate files =
      if Duration.limit < nanoseconds files then .error .overflow
      else if files = [] then .ok ⟨files, ⟨nanoseconds files⟩, .zero⟩
      else if files.length % 2 ^ 32 = 0 then .error .divideByZero
      else .ok ⟨files, ⟨nanoseconds files⟩, ⟨nanoseconds files / (files.length % 2 ^ 32)⟩⟩ := by
  rw [aggregate, sum_durations]
  by_cases fits : nanoseconds files ≤ Duration.limit
  · rw [if_pos fits, if_neg (Nat.not_lt.2 fits)]
    by_cases empty : files = []
    · rw [if_pos empty]
      subst empty
      rfl
    · have some : files.isEmpty = false := Bool.eq_false_iff.2 (mt List.isEmpty_iff.1 empty)
      rw [if_neg empty]
      by_cases uncounted : files.length % 2 ^ 32 = 0
      · have divided : Duration.divide ⟨nanoseconds files⟩ files.length = .error .divideByZero :=
          if_pos uncounted
        rw [if_pos uncounted]
        simp [some, divided, bind, Except.bind]
      · have divided : Duration.divide ⟨nanoseconds files⟩ files.length =
            .ok ⟨nanoseconds files / (files.length % 2 ^ 32)⟩ := if_neg uncounted
        rw [if_neg uncounted]
        simp [some, divided, bind, Except.bind, pure, Except.pure]
  · rw [if_neg fits, if_pos (Nat.not_le.1 fits)]
    rfl

/-- The times of results are added up exactly: there are results together unless the sum is longer
    than the longest duration, they have the sum, and their mean is rounded down. -/
structure AddsUp (files : List FileResult) : Prop where
  fails_iff : (∃ fault, aggregate files = .error fault) ↔ Duration.limit < nanoseconds files
  total : ∀ r, aggregate files = .ok r → r.totalDuration.nanoseconds = nanoseconds files
  average : ∀ r, aggregate files = .ok r → files ≠ [] →
    r.averageDuration.nanoseconds = nanoseconds files / files.length

/-- The times are added up exactly if there are too many nanoseconds, no results, or a number of
    results by which the mean is the same as by what 32 bits count of it. -/
theorem addsUp_iff (files : List FileResult) :
    AddsUp files ↔ Duration.limit < nanoseconds files ∨ files = [] ∨
      files.length % 2 ^ 32 ≠ 0 ∧
        nanoseconds files / (files.length % 2 ^ 32) = nanoseconds files / files.length := by
  by_cases exceeds : Duration.limit < nanoseconds files
  · have failed : aggregate files = .error .overflow := by rw [aggregate_eq, if_pos exceeds]
    refine iff_of_true ⟨iff_of_true ⟨_, failed⟩ exceeds, ?_, ?_⟩ (.inl exceeds) <;>
      simp [failed]
  by_cases empty : files = []
  · have made : aggregate files = .ok ⟨files, ⟨nanoseconds files⟩, .zero⟩ := by
      rw [aggregate_eq, if_neg exceeds, if_pos empty]
    refine iff_of_true ⟨iff_of_false ?_ exceeds, ?_, fun _ _ some => absurd empty some⟩
      (.inr (.inl empty))
    · simp [made]
    · simp [made]
  by_cases uncounted : files.length % 2 ^ 32 = 0
  · have failed : aggregate files = .error .divideByZero := by
      rw [aggregate_eq, if_neg exceeds, if_neg empty, if_pos uncounted]
    refine iff_of_false (fun adds => exceeds (adds.fails_iff.1 ⟨_, failed⟩)) ?_
    rintro (exceeds' | empty' | ⟨counted, -⟩)
    · exact exceeds exceeds'
    · exact empty empty'
    · exact counted uncounted
  · have made : aggregate files =
        .ok ⟨files, ⟨nanoseconds files⟩, ⟨nanoseconds files / (files.length % 2 ^ 32)⟩⟩ := by
      rw [aggregate_eq, if_neg exceeds, if_neg empty, if_neg uncounted]
    constructor
    · exact fun adds => .inr (.inr ⟨uncounted, adds.average _ made empty⟩)
    · rintro (exceeds' | empty' | ⟨-, same⟩)
      · exact absurd exceeds' exceeds
      · exact absurd empty' empty
      · refine ⟨iff_of_false (by simp [made]) exceeds, ?_, ?_⟩
        · rintro r done
          obtain rfl := Except.ok.inj (made.symm.trans done)
          rfl
        · rintro r done -
          obtain rfl := Except.ok.inj (made.symm.trans done)
          exact same

/-- 32 bits count fewer results than `2 ^ 32` as they are. -/
theorem addsUp_of_length_lt {files : List FileResult} (few : files.length < 2 ^ 32) :
    AddsUp files := by
  rw [addsUp_iff, Nat.mod_eq_of_lt few]
  by_cases empty : files = []
  · exact .inr (.inl empty)
  · exact .inr (.inr ⟨mt List.length_eq_zero_iff.1 empty, rfl⟩)

/-- What comes of the times does not depend on the order of the results. -/
theorem times_eq_of_perm {files files' : List FileResult} (same : files.Perm files') :
    (aggregate files).map (fun r => (r.totalDuration, r.averageDuration)) =
      (aggregate files').map fun r => (r.totalDuration, r.averageDuration) := by
  have empty : files = [] ↔ files' = [] := by
    rw [← List.length_eq_zero_iff, same.length_eq, List.length_eq_zero_iff]
  simp only [aggregate_eq, nanoseconds_eq_of_perm same, same.length_eq, empty]
  split
  · rfl
  split
  · rfl
  split <;> rfl

/-- The sum of the times is exact or there are too many nanoseconds for it, in any order of the
    results. The mean is that by what 32 bits count of the results; when they count none there is
    no mean, and no results together either. -/
theorem aggregate_times (files : List FileResult) :
    (aggregate files = .error .overflow ↔ Duration.limit < nanoseconds files) ∧
    (aggregate files = .error .divideByZero ↔
      nanoseconds files ≤ Duration.limit ∧ files ≠ [] ∧ files.length % 2 ^ 32 = 0) ∧
    (∀ r, aggregate files = .ok r → r.files = files ∧
      r.totalDuration.nanoseconds = nanoseconds files ∧
      (files ≠ [] →
        r.averageDuration.nanoseconds = nanoseconds files / (files.length % 2 ^ 32))) ∧
    (AddsUp files ↔ Duration.limit < nanoseconds files ∨ files = [] ∨
      files.length % 2 ^ 32 ≠ 0 ∧
        nanoseconds files / (files.length % 2 ^ 32) = nanoseconds files / files.length) ∧
    (files.length < 2 ^ 32 → AddsUp files) ∧
    ∀ files', files.Perm files' →
      (aggregate files).map (fun r => (r.totalDuration, r.averageDuration)) =
        (aggregate files').map fun r => (r.totalDuration, r.averageDuration) := by
  refine ⟨?_, ?_, ?_, addsUp_iff files, addsUp_of_length_lt, fun _ => times_eq_of_perm⟩
  · rw [aggregate_eq]
    split
    · next exceeds => simp [exceeds]
    · next fits =>
      split
      · simp [fits]
      · split <;> simp [fits]
  · rw [aggregate_eq]
    split
    · next exceeds => simp [Nat.not_le.2 exceeds]
    · next fits =>
      split
      · next empty => simp [empty]
      · next some => split <;> simp_all
  · intro r made
    rw [aggregate_eq] at made
    split at made
    · cases made
    split at made
    · next empty =>
      obtain rfl := Except.ok.inj made
      exact ⟨rfl, rfl, fun some => absurd empty some⟩
    split at made
    · cases made
    · obtain rfl := Except.ok.inj made
      exact ⟨rfl, rfl, fun _ => rfl⟩

/-- 32 bits count none of `2 ^ 32` results, so that they have no mean although they took no time;
    and of one more they count one, which is taken to have taken all the time. -/
theorem not_addsUp_of_many :
    nanoseconds (List.replicate (2 ^ 32) (.ofValid "a.xml" .zero)) = 0 ∧
    aggregate (List.replicate (2 ^ 32) (.ofValid "a.xml" .zero)) = .error .divideByZero ∧
    ¬ AddsUp (List.replicate (2 ^ 32) (.ofValid "a.xml" .zero)) ∧
    ¬ AddsUp (List.replicate (2 ^ 32 + 1) (.ofValid "a.xml" ⟨1⟩)) := by
  have nothing : nanoseconds (List.replicate (2 ^ 32) (.ofValid "a.xml" .zero)) = 0 :=
    (nanoseconds_replicate _ _).trans (Nat.mul_zero _)
  have many : ∀ (n : Nat) (f : FileResult), 2 ^ 32 ≤ n → List.replicate n f ≠ [] := by
    intro n f large empty
    have none : n = 0 := List.replicate_eq_nil_iff f |>.1 empty
    omega
  refine ⟨nothing, ?_, ?_, ?_⟩
  · rw [aggregate_eq, nothing, if_neg (Nat.not_lt_zero _), if_neg (many _ _ (Nat.le_refl _)),
      List.length_replicate, if_pos (Nat.mod_self _)]
  · rw [addsUp_iff, nothing, List.length_replicate]
    rintro (exceeds | empty | ⟨counted, -⟩)
    · exact Nat.not_lt_zero _ exceeds
    · exact many _ _ (Nat.le_refl _) empty
    · exact counted (Nat.mod_self _)
  · have time : nanoseconds (List.replicate (2 ^ 32 + 1) (.ofValid "a.xml" ⟨1⟩)) = 2 ^ 32 + 1 :=
      (nanoseconds_replicate _ _).trans (Nat.mul_one _)
    rw [addsUp_iff, time, List.length_replicate]
    rintro (exceeds | empty | ⟨-, same⟩)
    · exact absurd exceeds (by decide)
    · exact many _ _ (Nat.le_succ _) empty
    · exact absurd same (by decide)

end Results
end MessageConformance
