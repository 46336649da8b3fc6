import MessageConformance.Proofs.Cache.Histories
import MessageConformance.Proofs.Store.Paths
import Mathlib.Data.List.Forall2

/-!
# Served from its own bundle

While a group is compiled, an address is answered with a document exactly if it is the address of
that document in the catalog of the group (`Loader.answer_bound_eq_some_iff`). What the engine
loads by itself and what was bound before have no part in it (`Event.blind`). Before and after
every request nothing is bound (`Follows.unbound`). So in every history of a cache the engine is
served from the bundle of the very lookup, and from nothing else (`serves_own_bundles`).
-/

namespace MessageConformance

open Schema (Bundle Catalog)

/-! ## Addresses -/

namespace Schema.Catalog

theorem get?_text (catalog : Catalog) (l : Location) : catalog.get? l.text = catalog.document? l := by
  obtain ⟨documents⟩ := catalog
  unfold get? document?
  induction documents with
  | nil => rfl
  | cons entry documents ih =>
    obtain ⟨other, content⟩ := entry
    by_cases same : other = l
    · subst same; simp
    · have differs : other.text ≠ l.text := fun equal => same (Location.text_injective equal)
      have asked : l ≠ other := fun equal => same equal.symm
      rw [Store.lookup_cons_ne asked, ← ih]
      simp [differs]

/-- Only the text of a location is found, as it is written. -/
theorem get?_eq_some_iff (catalog : Catalog) (path : String) (content : Bytes) :
    catalog.get? path = some content ↔
      ∃ l : Location, path = l.text ∧ catalog.document? l = some content := by
  constructor
  · intro found
    obtain ⟨entry, here, -⟩ := Option.map_eq_some_iff.1 found
    have named : entry.1.text = path := by simpa using List.find?_some here
    subst named
    exact ⟨entry.1, rfl, by rw [← get?_text]; exact found⟩
  · rintro ⟨l, rfl, found⟩
    rw [get?_text]
    exact found

theorem serve?_eq_some_iff (catalog : Catalog) (url : String) (content : Bytes) :
    catalog.serve? url = some content ↔
      ∃ l, url = address l ∧ catalog.document? l = some content := by
  have start (rest : String) : url.toList = addressStart.toList ++ rest.toList ↔
      url = addressStart ++ rest := by
    rw [← String.toList_append, String.toList_inj]
  unfold serve? address
  split
  · next begins =>
    rw [List.isPrefixOf_iff_prefix] at begins
    obtain ⟨rest, shape⟩ := begins
    have whole : url = addressStart ++ String.ofList rest := by
      rw [← start, String.toList_ofList, shape]
    have length : addressStart.length = addressStart.toList.length := rfl
    rw [← shape, length, List.drop_left, get?_eq_some_iff]
    subst whole
    simp only [String.append_right_inj]
  · next other =>
    constructor
    · intro none
      cases none
    · rintro ⟨l, rfl, -⟩
      refine absurd ?_ other
      rw [List.isPrefixOf_iff_prefix, String.toList_append]
      exact List.prefix_append _ _

end Schema.Catalog

/-- An address stands for a document of a catalog: decoded, it is `schema-store:///` and the
    location of the document. -/
def StandsFor (catalog : Catalog) (url : Url) (content : Bytes) : Prop :=
  ∃ bytes l, url = some bytes ∧ bytes.lossyText = "schema-store:///" ++ l.text ∧
    catalog.document? l = some content

/-- Each address is answered with the document that it stands for, and with none if it stands for
    none. -/
def AnsweredFrom (catalog : Catalog) : List Url → List (Option Bytes) → Prop :=
  List.Forall₂ fun url answer => ∀ content, answer = some content ↔ StandsFor catalog url content

theorem Loader.answer_bound_eq_some_iff (catalog : Catalog) (engine : Engine) (url : Url)
    (content : Bytes) :
    Loader.answer ⟨some catalog⟩ engine url = some content ↔ StandsFor catalog url content := by
  unfold Loader.answer StandsFor
  cases url with
  | none => simp
  | some bytes =>
    show catalog.serve? bytes.lossyText = some content ↔ _
    rw [Catalog.serve?_eq_some_iff]
    constructor
    · rintro ⟨l, decoded, found⟩
      exact ⟨bytes, l, rfl, decoded, found⟩
    · rintro ⟨_, l, same, decoded, found⟩
      obtain rfl := Option.some.inj same
      exact ⟨l, decoded, found⟩

theorem answeredFrom_map (catalog : Catalog) (engine : Engine) (urls : List Url) :
    AnsweredFrom catalog urls (urls.map (Loader.answer ⟨some catalog⟩ engine)) := by
  unfold AnsweredFrom
  rw [List.forall₂_map_right_iff]
  exact List.forall₂_same.2 fun url _ content =>
    Loader.answer_bound_eq_some_iff catalog engine url content

/-! ## One lookup -/

theorem unbound_after_compileDriver (engine : Engine) (bundle : Bundle) {c : Cache}
    (unbound : c.loader.bound = none) :
    ((compileDriver engine bundle).after c).loader.bound = none := by
  by_cases large : bundle.driver.length > sizeLimit
  · simp only [Attempt.after, compileDriver, large, ↓reduceIte]
    exact unbound
  · simp only [Attempt.after, compileDriver, large, ↓reduceIte]
    rfl

/-- The lookup with an engine that loads something else by itself. -/
def Visit.withFetch (v : Visit) (fetch : Url → Option Bytes) : Visit :=
  { v with engine := { v.engine with fetch } }

namespace Event

theorem unbound_after {e : Event} (unbound : e.cache.loader.bound = none) :
    e.after.loader.bound = none := by
  cases kept : e.cache.find? e.key with
  | some compiled => rw [(hit kept).2.1]; exact unbound
  | none =>
    have looked : e.after = (compileGroup e.visit.engine e.visit.store e.visit.key
        e.visit.paths).after e.cache := by
      have cached : (liftM (Work.cache : Work Cache) : Attempt Cache).outcome e.cache =
        .ok e.cache := rfl
      rw [after, Visit.look, getOrCompile, Attempt.after_bind, cached]
      simp only [Attempt.after_lift, Work.cache]
      rw [show e.cache.find? e.visit.key = none from kept]
    rw [looked, compileGroup, Attempt.after_bind, Attempt.outcome_ofLoading,
      Attempt.after_ofLoading]
    cases (Bundle.load e.visit.store e.visit.paths).outcome with
    | error cause => exact unbound
    | ok bundle =>
      have released := unbound_after_compileDriver e.visit.engine bundle unbound
      simp only [Failure.ofSchema, mapError_ok, Attempt.after_bind]
      cases (compileDriver e.visit.engine bundle).outcome e.cache with
      | error cause => exact released
      | ok input => exact released

/-- A lookup comes to the same whatever the engine loads by itself and whatever was bound. -/
theorem blind (e : Event) (fetch : Url → Option Bytes) (loader : Loader) :
    let other : Event := ⟨e.visit.withFetch fetch, { e.cache with loader }⟩
    other.outcome = e.outcome ∧ other.trace = e.trace ∧ other.after.entries = e.after.entries := by
  intro other
  cases kept : e.cache.find? e.key with
  | some compiled =>
    have kept' : other.cache.find? other.key = some compiled := kept
    obtain ⟨outcome, after, trace⟩ := hit kept
    obtain ⟨outcome', after', trace'⟩ := hit kept'
    rw [outcome, outcome', after, after', trace, trace']
    exact ⟨rfl, rfl, rfl⟩
  | none =>
    have missing : other.cache.find? other.key = none := kept
    obtain ⟨outcome, entries, trace⟩ := missed kept
    obtain ⟨outcome', entries', trace'⟩ := missed missing
    rw [outcome, outcome', entries, entries', trace, trace']
    exact ⟨rfl, rfl, rfl⟩

end Event

/-- What a lookup has the engine do is served from the bundle of that lookup alone. -/
structure IsServed (e : Event) : Prop where
  /-- A schema is compiled from the driver of the bundle, and all that the engine asks for is
      answered from the catalog of the bundle. -/
  served : ∀ driver served isCompiled, .schema driver served isCompiled ∈ e.trace.calls →
    ∃ bundle urls, (Bundle.load e.visit.store e.visit.paths).outcome = .ok bundle ∧
      driver = bundle.driver ∧ e.visit.engine.requests driver = some urls ∧
      AnsweredFrom bundle.catalog urls served
  /-- A group that is not kept is compiled, if it can be loaded and the engine can begin. -/
  compiled : e.cache.find? e.key = none → ∀ bundle urls,
    (Bundle.load e.visit.store e.visit.paths).outcome = .ok bundle →
    bundle.driver.length ≤ sizeLimit → e.visit.engine.requests bundle.driver = some urls →
      ∃ served isCompiled, e.trace.calls = [.schema bundle.driver served isCompiled]
  /-- Nothing is read but to load the bundle. -/
  asked : e.trace.asked = [] ∨
    e.trace.asked = (Bundle.load e.visit.store e.visit.paths).asked
  /-- What the engine loads by itself and what was bound before change nothing. -/
  blind : ∀ fetch loader,
    let other : Event := ⟨e.visit.withFetch fetch, { e.cache with loader }⟩
    other.outcome = e.outcome ∧ other.trace = e.trace ∧ other.after.entries = e.after.entries

theorem Event.isServed (e : Event) : IsServed e := by
  refine ⟨?_, ?_, ?_, e.blind⟩
  · intro driver served isCompiled called
    cases kept : e.cache.find? e.key with
    | some compiled => simp [(hit kept).2.2] at called
    | none =>
      rw [(missed kept).2.2, Visit.work] at called
      cases loaded : (Bundle.load e.visit.store e.visit.paths).outcome with
      | error cause => simp [loaded] at called
      | ok bundle =>
        simp only [loaded, compiledDriver] at called
        split at called
        · simp at called
        · simp only [Engine.compileWith] at called
          cases requested : e.visit.engine.requests bundle.driver with
          | none => simp [requested] at called
          | some urls =>
            simp only [requested, List.mem_singleton, EngineCall.schema.injEq] at called
            obtain ⟨rfl, rfl, -⟩ := called
            exact ⟨bundle, urls, rfl, rfl, requested, answeredFrom_map _ _ _⟩
  · intro kept bundle urls loaded fits requested
    rw [(missed kept).2.2, Visit.work]
    simp only [loaded, compiledDriver, Nat.not_lt.2 fits, ↓reduceIte, Engine.compileWith, requested]
    exact ⟨_, _, rfl⟩
  · cases kept : e.cache.find? e.key with
    | some compiled => exact .inl (by rw [(hit kept).2.2])
    | none => exact .inr (by rw [(missed kept).2.2]; rfl)

/-! ## Histories -/

theorem Follows.unbound {c c' : Cache} {es : List Event} (follows : Follows c es c')
    (before : c.loader.bound = none) :
    c'.loader.bound = none ∧ ∀ e ∈ es, e.cache.loader.bound = none := by
  induction follows with
  | nil => exact ⟨before, by simp⟩
  | @cons e es c rest ih =>
    obtain ⟨after, all⟩ := ih (Event.unbound_after before)
    exact ⟨after, List.forall_mem_cons.2 ⟨before, all⟩⟩

/-- Nothing is bound when a request of a history is made, and nothing once it is answered. -/
theorem unbound_of_mem_occasions {requests : List Request} {start : Cache}
    (before : start.loader.bound = none) {r : Request} {c : Cache}
    (made : (r, c) ∈ occasions requests start) :
    c.loader.bound = none ∧ (r.perform.after c).loader.bound = none := by
  induction requests generalizing start with
  | nil => simp [occasions] at made
  | cons first requests ih =>
    have after := ((first.comesDownTo start).follows.unbound before).1
    obtain here | later := List.mem_cons.1 made
    · obtain ⟨rfl, rfl⟩ := Prod.mk.inj here
      exact ⟨before, after⟩
    · exact ih after later

/-- What serves the engine over a history of requests, from an empty cache on. -/
structure ServesOwnBundles (requests : List Request) : Prop where
  /-- A request does what its lookups do, and nothing is bound before and after it. -/
  requested : ∀ r c, (r, c) ∈ occasions requests .empty →
    r.ComesDownTo c (visitAll r.visits c) ∧
      c.loader.bound = none ∧ (r.perform.after c).loader.bound = none
  /-- Every lookup is served from its own bundle, and nothing is bound before and after it. -/
  served : ∀ e ∈ lookups requests .empty,
    IsServed e ∧ e.cache.loader.bound = none ∧ e.after.loader.bound = none

/-- Whatever the engines ask for and whatever fails, over every history each compile is served
    from its own bundle only, and nothing stays bound. -/
theorem serves_own_bundles (requests : List Request) : ServesOwnBundles requests where
  requested r c made := ⟨r.comesDownTo c, unbound_of_mem_occasions rfl made⟩
  served e member := by
    have unbound := ((follows_lookups requests .empty).unbound rfl).2 e member
    exact ⟨e.isServed, unbound, e.unbound_after unbound⟩

end MessageConformance
