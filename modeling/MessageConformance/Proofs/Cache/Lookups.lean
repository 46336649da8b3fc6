import MessageConformance.Cache
import MessageConformance.Proofs.Results

/-!
# One lookup in a cache

A lookup asks for the compiled schema under a key, and says how to compile it when there is
none. If there is one it is handed out and nothing else happens (`Event.hit`). Otherwise the
group is loaded and compiled, which does not depend on what the cache holds: the outcome is that
of `Visit.compile`, the work that of `Visit.work`. A success is entered under the key, a failure
leaves the entries as they are (`Event.missed`).
-/

namespace MessageConformance

open Schema (Bundle)

/-! ## Compiling a driver -/

/-- What the engine is asked to compile a driver, and what comes of it. -/
def compiledDriver (engine : Engine) (bundle : Bundle) :
    List EngineCall × Except Failure SchemaInput :=
  if bundle.driver.length > sizeLimit then
    ([], .error (.schema (EngineFailure.tooLarge bundle.driver.length).toSchemaFailure))
  else
    let (calls, result) := engine.compileWith ⟨some bundle.catalog⟩ bundle.driver
    (calls, result.mapError fun cause => .schema cause.toSchemaFailure)

/-- A driver is compiled the same on every cache, and the entries of the cache stay. -/
theorem compileDriver_spec (engine : Engine) (bundle : Bundle) (c : Cache) :
    (compileDriver engine bundle).outcome c = (compiledDriver engine bundle).2 ∧
      ((compileDriver engine bundle).after c).entries = c.entries ∧
      (compileDriver engine bundle).trace c = { calls := (compiledDriver engine bundle).1 } := by
  by_cases large : bundle.driver.length > sizeLimit
  · simp only [Attempt.outcome, Attempt.after, Attempt.trace, compileDriver, compiledDriver, large,
      ↓reduceIte]
    exact ⟨rfl, rfl, rfl⟩
  · simp only [Attempt.outcome, Attempt.after, Attempt.trace, compileDriver, compiledDriver, large,
      ↓reduceIte]
    refine ⟨rfl, rfl, ?_⟩
    show Trace.append _ _ = _
    simp [Trace.append, Loader.bind]

/-- Whether a call made the engine compile a schema, and it did. -/
def EngineCall.compiles : EngineCall → Bool
  | .schema _ _ isCompiled => isCompiled
  | _ => false

/-- A schema comes of a driver exactly if the engine compiled one. -/
theorem any_compiles_compiledDriver (engine : Engine) (bundle : Bundle) :
    (compiledDriver engine bundle).1.any (·.compiles) =
      (compiledDriver engine bundle).2.toOption.isSome := by
  unfold compiledDriver Engine.compileWith
  split
  · rfl
  · cases engine.requests bundle.driver with
    | none => rfl
    | some urls =>
      let input : SchemaInput :=
        ⟨bundle.driver, urls.map (Loader.answer ⟨some bundle.catalog⟩ engine)⟩
      cases compiled : (engine.compile input).2 <;>
        simp [input, compiled, EngineCall.compiles, mapError_ok, mapError_error, Except.toOption]

/-! ## Compiling a group -/

/-- A lookup: the key that is asked for, and the engine, the store and the paths to compile it
    from. -/
structure Visit where
  engine : Engine
  store : Store
  key : Key
  paths : List String

namespace Visit

/-- The lookup as a computation on a cache. -/
def look (v : Visit) : Attempt CompiledSchema := getOrCompile v.engine v.store v.key v.paths

/-- What comes of compiling the group, which is given a number. -/
def compile (v : Visit) (number : Nat) : Except Failure CompiledSchema :=
  match (Bundle.load v.store v.paths).outcome with
  | .error cause => .error (.schema cause)
  | .ok bundle => (compiledDriver v.engine bundle).2.map fun input =>
      ⟨number, v.key, bundle.members, bundle.catalog.size, input⟩

/-- What is read to load the group, and what the engine is asked to compile it. -/
def work (v : Visit) : Trace where
  asked := (Bundle.load v.store v.paths).asked
  calls := match (Bundle.load v.store v.paths).outcome with
    | .error _ => []
    | .ok bundle => (compiledDriver v.engine bundle).1

end Visit

theorem Visit.any_compiles_work (v : Visit) (number : Nat) :
    v.work.calls.any (·.compiles) = (v.compile number).toOption.isSome := by
  unfold Visit.work Visit.compile
  cases (Bundle.load v.store v.paths).outcome with
  | error cause => rfl
  | ok bundle =>
    simp only [any_compiles_compiledDriver]
    cases (compiledDriver v.engine bundle).2 <;> rfl

/-- The entries of a cache after one more lookup under a key. -/
def entered (c : Cache) (key : Key) : Except Failure CompiledSchema → List (Key × CompiledSchema)
  | .ok compiled => c.entries ++ [(key, compiled)]
  | .error _ => c.entries

/-- Compiling a group reads and asks the same on every cache, and only a success is entered. -/
theorem compileGroup_spec (v : Visit) (c : Cache) :
    (compileGroup v.engine v.store v.key v.paths).outcome c = v.compile c.size ∧
      ((compileGroup v.engine v.store v.key v.paths).after c).entries =
        entered c v.key (v.compile c.size) ∧
      (compileGroup v.engine v.store v.key v.paths).trace c = v.work := by
  simp only [compileGroup, Visit.compile, Visit.work, Attempt.outcome_bind, Attempt.after_bind,
    Attempt.trace_bind, Attempt.outcome_ofLoading, Attempt.after_ofLoading,
    Attempt.trace_ofLoading, Attempt.outcome_lift, Attempt.after_lift, Attempt.trace_lift]
  cases (Bundle.load v.store v.paths).outcome with
  | error cause => exact ⟨rfl, rfl, rfl⟩
  | ok bundle =>
    obtain ⟨outcome, entries, trace⟩ := compileDriver_spec v.engine bundle c
    have size : ((compileDriver v.engine bundle).after c).size = c.size :=
      congrArg List.length entries
    simp only [Failure.ofSchema, mapError_ok, outcome, trace]
    cases (compiledDriver v.engine bundle).2 with
    | error cause => exact ⟨rfl, entries, by simp [Trace.append]⟩
    | ok input =>
      refine ⟨?_, ?_, by simp [Trace.append, Work.cache, Work.modify]⟩
      · simp [Work.cache, Except.map, size]
      · simp [Work.cache, Work.modify, Except.map, size, entered, entries]

/-! ## Looking up -/

/-- A lookup made on a cache. -/
structure Event where
  visit : Visit
  cache : Cache

namespace Event

/-- The key that is asked for. -/
def key (e : Event) : Key := e.visit.key

/-- What the lookup comes to. -/
def outcome (e : Event) : Except Failure CompiledSchema := e.visit.look.outcome e.cache

/-- The cache after the lookup. -/
def after (e : Event) : Cache := e.visit.look.after e.cache

/-- What the lookup read, and what it had the engine do. -/
def trace (e : Event) : Trace := e.visit.look.trace e.cache

/-- Whether a schema was compiled. -/
def compiles (e : Event) : Bool := e.trace.calls.any (·.compiles)

/-- A lookup comes to a compiled schema. -/
def Succeeds (e : Event) : Prop := ∃ compiled, e.outcome = .ok compiled

theorem hit {e : Event} {compiled : CompiledSchema} (kept : e.cache.find? e.key = some compiled) :
    e.outcome = .ok compiled ∧ e.after = e.cache ∧ e.trace = {} := by
  have found : e.visit.look.run.run e.cache = ((.ok compiled, e.cache), {}) := by
    rw [Visit.look, getOrCompile, Attempt.run_bind]
    simp only [Attempt.outcome_lift, Attempt.after_lift, Attempt.trace_lift, Work.cache]
    rw [show e.cache.find? e.visit.key = some compiled from kept]
    rfl
  exact ⟨congrArg (·.1.1) found, congrArg (·.1.2) found, congrArg (·.2) found⟩

/-- What is not kept is compiled anew, and entered if that succeeds. -/
theorem missed {e : Event} (absent : e.cache.find? e.key = none) :
    e.outcome = e.visit.compile e.cache.size ∧
      e.after.entries = entered e.cache e.key (e.visit.compile e.cache.size) ∧
      e.trace = e.visit.work := by
  have compiled : e.visit.look.run.run e.cache =
      (compileGroup e.visit.engine e.visit.store e.visit.key e.visit.paths).run.run e.cache := by
    rw [Visit.look, getOrCompile, Attempt.run_bind]
    simp only [Attempt.outcome_lift, Attempt.after_lift, Attempt.trace_lift, Work.cache]
    rw [show e.cache.find? e.visit.key = none from absent]
    simp only [Trace.append_nothing, Trace.nothing_append]
    rfl
  obtain ⟨outcome, entries, trace⟩ := compileGroup_spec e.visit e.cache
  refine ⟨?_, ?_, ?_⟩
  · exact (congrArg (·.1.1) compiled).trans outcome
  · exact (congrArg (·.1.2.entries) compiled).trans entries
  · exact (congrArg (·.2) compiled).trans trace

theorem compiles_iff (e : Event) :
    e.compiles = true ↔ e.cache.find? e.key = none ∧ e.Succeeds := by
  unfold compiles Succeeds
  cases kept : e.cache.find? e.key with
  | some compiled => simp [(hit kept).2.2]
  | none =>
    obtain ⟨outcome, -, trace⟩ := missed kept
    rw [trace, Visit.any_compiles_work e.visit e.cache.size, outcome]
    cases e.visit.compile e.cache.size <;> simp [Except.toOption]

/-- After a lookup its key has what it came to, and the other keys keep what they had. -/
theorem find?_after (e : Event) (key : Key) :
    e.after.find? key =
      (e.cache.find? key).or (if key = e.key then e.outcome.toOption else none) := by
  cases kept : e.cache.find? e.key with
  | some compiled =>
    rw [(hit kept).2.1]
    by_cases same : key = e.key
    · subst same; simp [kept]
    · simp [same]
  | none =>
    obtain ⟨outcome, entries, -⟩ := missed kept
    rw [Cache.find?, entries, outcome]
    cases e.visit.compile e.cache.size with
    | error cause => simp [entered, Cache.find?, Except.toOption]
    | ok compiled =>
      by_cases same : key = e.key
      · subst same; simp [entered, List.lookup_append, Cache.find?, Except.toOption]
      · simp [entered, List.lookup_append, Cache.find?, same, Store.lookup_cons_ne]

theorem contains_after (e : Event) (key : Key) :
    e.after.contains key = true ↔
      e.cache.contains key = true ∨ e.key = key ∧ e.Succeeds := by
  unfold Succeeds Cache.contains
  rw [find?_after]
  by_cases same : key = e.key
  · subst same
    cases e.outcome <;> simp [Except.toOption]
  · have other : e.key ≠ key := fun equal => same equal.symm
    simp [same, other]

/-- The key that is looked up is new to the cache exactly if it is compiled. -/
theorem contains_after_iff_compiles (e : Event) (key : Key) :
    e.after.contains key = true ↔
      e.cache.contains key = true ∨ e.compiles = true ∧ e.key = key := by
  rw [contains_after, compiles_iff]
  cases held : e.cache.contains key with
  | true => simp
  | false =>
    constructor
    · rintro (_ | ⟨rfl, succeeds⟩)
      · contradiction
      · exact .inr ⟨⟨by simpa [Cache.contains] using held, succeeds⟩, rfl⟩
    · rintro (_ | ⟨⟨-, succeeds⟩, same⟩)
      · contradiction
      · exact .inr ⟨same, succeeds⟩

/-- What is compiled is entered under its key, after the other entries. -/
theorem entries_of_compiles {e : Event} {compiled : CompiledSchema} (compiles : e.compiles = true)
    (made : e.outcome = .ok compiled) :
    e.after.entries = e.cache.entries ++ [(e.key, compiled)] := by
  obtain ⟨outcome, entries, -⟩ := missed (e.compiles_iff.1 compiles).1
  rw [entries, ← outcome, made]
  rfl

theorem entries_of_not_compiles {e : Event} (idle : ¬ e.compiles = true) :
    e.after.entries = e.cache.entries := by
  cases kept : e.cache.find? e.key with
  | some compiled => rw [(hit kept).2.1]
  | none =>
    obtain ⟨outcome, entries, -⟩ := missed kept
    rw [entries, ← outcome]
    cases made : e.outcome with
    | error cause => rfl
    | ok compiled => exact absurd (e.compiles_iff.2 ⟨kept, compiled, made⟩) idle

theorem not_compiles_of_error {e : Event} {cause : Failure} (failed : e.outcome = .error cause) :
    ¬ e.compiles = true := by
  intro compiles
  obtain ⟨compiled, made⟩ := (e.compiles_iff.1 compiles).2
  simp [made] at failed

end Event

end MessageConformance
