import MessageConformance.Proofs.Cache.Histories

/-!
# Caches that make no difference

A cache is faithful when it keeps for each context what compiling the context afresh gives, its
number apart (`Cache.IsFaithful`). A lookup on a faithful cache comes to what it comes to on an empty
one and leaves a faithful cache, whether it succeeds or fails (`Cache.IsFaithful.look`). So does every
computation that uses the cache for nothing but to open sessions (`Work.IgnoresCache`,
`ignoresCache_sessionFor_bind`).
-/

namespace MessageConformance

/-- The schemas that a cache keeps for contexts are those that are compiled afresh, whatever their
    numbers. -/
def Cache.IsFaithful (w : World) (c : Cache) : Prop :=
  ∀ context compiled, c.find? (.context context) = some compiled →
    ∃ number, (w.visit context).compile number = .ok compiled

variable {w : World} {c : Cache}

theorem isFaithful_empty : Cache.empty.IsFaithful w := by
  intro context compiled kept
  simp [Cache.find?, Cache.empty] at kept

/-- The number that a schema is given changes nothing else of what comes of its compilation. -/
theorem Visit.map_input_compile (v : Visit) (number number' : Nat) :
    (v.compile number).map (·.input) = (v.compile number').map (·.input) := by
  unfold compile
  cases (Schema.Bundle.load v.store v.paths).outcome with
  | error cause => rfl
  | ok bundle =>
    simp only
    cases (compiledDriver v.engine bundle).2 <;> rfl

/-- Looking a context up on a faithful cache comes to what compiling it comes to, and leaves a
    faithful cache. -/
theorem Cache.IsFaithful.look (faithful : c.IsFaithful w) (context : Context) :
    (∃ number, (w.visit context).look.outcome c = (w.visit context).compile number) ∧
      ((w.visit context).look.after c).IsFaithful w := by
  have answered : ∃ number,
      (w.visit context).look.outcome c = (w.visit context).compile number := by
    cases kept : c.find? (.context context) with
    | some compiled =>
      obtain ⟨number, made⟩ := faithful context compiled kept
      exact ⟨number, (Event.hit (e := ⟨w.visit context, c⟩) kept).1.trans made.symm⟩
    | none => exact ⟨c.size, (Event.missed (e := ⟨w.visit context, c⟩) kept).1⟩
  refine ⟨answered, fun other compiled kept => ?_⟩
  have found := (Event.find?_after ⟨w.visit context, c⟩ (.context other)).symm.trans kept
  obtain earlier | ⟨-, entered⟩ := Option.or_eq_some_iff.1 found
  · exact faithful other compiled earlier
  · split at entered
    · next same =>
      obtain rfl : other = context := Key.context.inj same
      obtain ⟨number, made⟩ := answered
      refine ⟨number, made.symm.trans ?_⟩
      cases outcome : (w.visit other).look.outcome c with
      | error cause => simp [Event.outcome, outcome, Except.toOption] at entered
      | ok compiled' =>
        simp only [Event.outcome, outcome, Except.toOption, Option.some.injEq] at entered
        rw [entered]
    · simp at entered

/-! ## Computations that ignore the cache -/

/-- A computation gives the same on every faithful cache as on an empty one, and leaves a faithful
    cache. -/
def Work.IgnoresCache {α : Type} (w : World) (work : Work α) : Prop :=
  ∀ c, c.IsFaithful w → (work.run c).1.1 = (work.run .empty).1.1 ∧ (work.run c).1.2.IsFaithful w

namespace Attempt

variable {α β : Type}

/-- A computation that may fail does so on every faithful cache or on none, and in the same way. -/
def IgnoresCache (w : World) (a : Attempt α) : Prop := Work.IgnoresCache w a.run

theorem ignoresCache_pure (a : α) : IgnoresCache w (pure a) := fun _ faithful => ⟨rfl, faithful⟩

theorem ignoresCache_ofExcept (r : Except Failure α) : IgnoresCache w (ofExcept r) :=
  fun _ faithful => ⟨rfl, faithful⟩

theorem IgnoresCache.bind {a : Attempt α} {next : α → Attempt β} (first : a.IgnoresCache w)
    (later : ∀ x, (next x).IgnoresCache w) : (a >>= next).IgnoresCache w := by
  intro c faithful
  obtain ⟨same, kept⟩ := first c faithful
  obtain ⟨-, kept'⟩ := first .empty isFaithful_empty
  show (a >>= next).outcome c = (a >>= next).outcome .empty ∧ ((a >>= next).after c).IsFaithful w
  rw [outcome_bind, outcome_bind, after_bind, show a.outcome c = a.outcome .empty from same]
  cases a.outcome .empty with
  | error cause => exact ⟨rfl, kept⟩
  | ok x => exact ⟨(later x _ kept).1.trans (later x _ kept').1.symm, (later x _ kept).2⟩

theorem IgnoresCache.discard {a : Attempt α} (first : a.IgnoresCache w) :
    IgnoresCache w (discard a) := first.bind fun _ => ignoresCache_pure ()

end Attempt

/-! ## Sessions -/

/-- What comes of opening a session on a context that is compiled afresh, by the texts that the
    schema was compiled from. -/
def World.opened (w : World) (context : Context) : Except Failure SchemaInput := do
  let input ← ((w.visit context).compile 0).map (·.input)
  if w.engine.opens input then .ok input else .error EngineFailure.noSession.toFailure

theorem Cache.IsFaithful.sessionFor (faithful : c.IsFaithful w) (context : Context) :
    ((MessageConformance.sessionFor w.engine w.store context).outcome c).map (·.schema.input) =
        w.opened context ∧
      ((MessageConformance.sessionFor w.engine w.store context).after c).IsFaithful w := by
  obtain ⟨⟨number, answered⟩, kept⟩ := faithful.look context
  have input : ((w.visit context).look.outcome c).map (·.input) =
      ((w.visit context).compile 0).map (·.input) := by
    rw [answered, Visit.map_input_compile]
  have looked : MessageConformance.sessionFor w.engine w.store context =
      (w.visit context).look >>= openSession w.engine := rfl
  rw [looked, Attempt.outcome_bind, Attempt.after_bind, World.opened, ← input]
  cases (w.visit context).look.outcome c with
  | error cause => exact ⟨rfl, kept⟩
  | ok compiled =>
    simp only [(openSession_idle w.engine compiled _).1]
    refine ⟨?_, kept⟩
    cases opens : w.engine.opens compiled.input <;>
      simp [openSession, opens, Except.map, bind, Except.bind]

/-- What is done with a session ignores the cache when it looks at nothing of the session but the
    texts that its schema was compiled from. -/
theorem ignoresCache_sessionFor_bind {α : Type} {context : Context} {next : Session → Attempt α}
    (alike : ∀ s s' : Session, s.schema.input = s'.schema.input → next s = next s')
    (later : ∀ s, (next s).IgnoresCache w) :
    Attempt.IgnoresCache w (sessionFor w.engine w.store context >>= next) := by
  intro c faithful
  obtain ⟨opened, kept⟩ := faithful.sessionFor context
  obtain ⟨opened', kept'⟩ := isFaithful_empty.sessionFor (w := w) context
  show (sessionFor w.engine w.store context >>= next).outcome c =
      (sessionFor w.engine w.store context >>= next).outcome .empty ∧
    ((sessionFor w.engine w.store context >>= next).after c).IsFaithful w
  rw [Attempt.outcome_bind, Attempt.outcome_bind, Attempt.after_bind]
  cases here : (sessionFor w.engine w.store context).outcome c with
  | error cause =>
    cases there : (sessionFor w.engine w.store context).outcome .empty with
    | error cause' =>
      rw [here] at opened
      rw [there] at opened'
      exact ⟨congrArg _ (Except.error.inj (opened.trans opened'.symm)), kept⟩
    | ok s' => simp [here, there, Except.map, ← opened'] at opened
  | ok s =>
    cases there : (sessionFor w.engine w.store context).outcome .empty with
    | error cause' => simp [here, there, Except.map, ← opened'] at opened
    | ok s' =>
      rw [here] at opened
      rw [there] at opened'
      have input := Except.ok.inj (opened.trans opened'.symm)
      simp only [alike s s' input]
      exact ⟨(later s' _ kept).1.trans (later s' _ kept').1.symm, (later s' _ kept).2⟩

end MessageConformance
