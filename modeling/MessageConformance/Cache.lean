import MessageConformance.Engine.Loader
import MessageConformance.Schema.Bundle

/-!
# Compiled schemas

A cache compiles each group of schemas at most once and hands out the same compiled
schema for every later request. Failures are not kept. Computations on a cache give
their value together with the new cache, the locations read and the calls of the engine.
-/

namespace MessageConformance

open Schema (Bundle)

/-! ## Groups -/

/-- A named group of schemas for one family of messages. -/
inductive Context where
  | signalMessage
  | userMessage
  | nrrReceipt
  deriving DecidableEq, Repr

namespace Context

/-- Every context, in the order they are warmed up. -/
def all : List Context := [signalMessage, userMessage, nrrReceipt]

def name : Context → String
  | signalMessage => "signal-message"
  | userMessage => "user-message"
  | nrrReceipt => "nrr-receipt"

/-- The context of a name. -/
def ofName? (name : String) : Option Context := all.find? (·.name = name)

/-- The paths of the members, in the order they are compiled. -/
def paths : Context → List String
  | signalMessage | userMessage =>
    ["w3/soap-envelope.xsd", "ebxml/ebms-header-3_0-200704.xsd", "w3/xmldsig-core-schema.xsd"]
  | nrrReceipt =>
    ["ebxml/ebms-header-3_0-200704.xsd", "ebxml/ebbp-signals-2.0.xsd",
      "w3/xmldsig-core-schema.xsd"]

end Context

/-- What a compiled schema is kept under. -/
inductive Key where
  | context (c : Context)
  | paths (joined : String)
  deriving DecidableEq, Repr

/-- The key of a list of paths, which depends on their order. -/
def Key.ofPaths (paths : List String) : Key := .paths ("|".intercalate paths)

def Key.text : Key → String
  | context c => "context:" ++ c.name
  | paths joined => "paths:" ++ joined

/-- A compiled group of schemas. Its number tells it from the others of its cache. -/
structure CompiledSchema where
  number : Nat
  key : Key
  members : List Location
  documentCount : Nat
  input : SchemaInput
  deriving DecidableEq

/-- The compiled schemas by key, and the loader that answers the engine. -/
structure Cache where
  entries : List (Key × CompiledSchema) := []
  loader : Loader := {}

namespace Cache

def empty : Cache := {}

def find? (c : Cache) (key : Key) : Option CompiledSchema := c.entries.lookup key

def contains (c : Cache) (key : Key) : Bool := (c.find? key).isSome

def size (c : Cache) : Nat := c.entries.length

end Cache

/-! ## Computations -/

/-- What a computation on a cache did: the locations it read, and what it had the engine
    do. -/
structure Trace where
  asked : List Location := []
  calls : List EngineCall := []

namespace Trace

def append (a b : Trace) : Trace := ⟨a.asked ++ b.asked, a.calls ++ b.calls⟩

@[simp] theorem append_nothing (t : Trace) : t.append {} = t := by simp [append]

@[simp] theorem nothing_append (t : Trace) : ({} : Trace).append t = t := by simp [append]

theorem append_assoc (a b c : Trace) : (a.append b).append c = a.append (b.append c) := by
  simp [append]

end Trace

/-- A computation on a cache. -/
structure Work (α : Type) where
  run : Cache → (α × Cache) × Trace

namespace Work

/-- A value that needs no work. -/
def done {α : Type} (a : α) : Work α := ⟨fun c => ((a, c), {})⟩

def andThen {α β : Type} (w : Work α) (next : α → Work β) : Work β :=
  ⟨fun c =>
    let ((a, c), first) := w.run c
    let ((b, c), second) := (next a).run c
    ((b, c), first.append second)⟩

instance : Monad Work where
  pure := done
  bind := andThen

/-- The cache as it is. -/
def cache : Work Cache := ⟨fun c => ((c, c), {})⟩

def modify (f : Cache → Cache) : Work Unit := ⟨fun c => (((), f c), {})⟩

/-- Notes what the engine was asked. -/
def note (calls : List EngineCall) : Work Unit := ⟨fun c => (((), c), { calls := calls })⟩

/-- Reads from a store. -/
def read {α : Type} (r : Reading α) : Work α := ⟨fun c => ((r.value, c), { asked := r.asked })⟩

end Work

/-- A computation on a cache that may fail; what it did before is kept. -/
abbrev Attempt (α : Type) := ExceptT Failure Work α

namespace Attempt

/-- What a computation comes to on a cache. -/
def outcome {α : Type} (a : Attempt α) (c : Cache) : Except Failure α := (a.run.run c).1.1

/-- The cache after a computation. -/
def after {α : Type} (a : Attempt α) (c : Cache) : Cache := (a.run.run c).1.2

/-- What a computation did. -/
def trace {α : Type} (a : Attempt α) (c : Cache) : Trace := (a.run.run c).2

@[simp] theorem outcome_pure {α : Type} (a : α) (c : Cache) :
    outcome (pure a) c = .ok a := rfl

@[simp] theorem after_pure {α : Type} (a : α) (c : Cache) : after (pure a) c = c := rfl

@[simp] theorem trace_pure {α : Type} (a : α) (c : Cache) : trace (pure a) c = {} := rfl

@[simp] theorem outcome_throw {α : Type} (e : Failure) (c : Cache) :
    outcome (throw e : Attempt α) c = .error e := rfl

@[simp] theorem after_throw {α : Type} (e : Failure) (c : Cache) :
    after (throw e : Attempt α) c = c := rfl

@[simp] theorem trace_throw {α : Type} (e : Failure) (c : Cache) :
    trace (throw e : Attempt α) c = {} := rfl

@[simp] theorem outcome_lift {α : Type} (w : Work α) (c : Cache) :
    outcome (liftM w) c = .ok (w.run c).1.1 := rfl

@[simp] theorem after_lift {α : Type} (w : Work α) (c : Cache) :
    after (liftM w) c = (w.run c).1.2 := rfl

@[simp] theorem trace_lift {α : Type} (w : Work α) (c : Cache) :
    trace (liftM w) c = (w.run c).2.append {} := rfl

/-- What follows a computation that succeeds is done on the cache it leaves. -/
theorem run_bind {α β : Type} (a : Attempt α) (next : α → Attempt β) (c : Cache) :
    (a >>= next).run.run c =
      match a.outcome c with
      | .ok x =>
        (((next x).outcome (a.after c), (next x).after (a.after c)),
          (a.trace c).append ((next x).trace (a.after c)))
      | .error e => ((.error e, a.after c), a.trace c) := by
  have unfolded : (a >>= next).run.run c =
      (let rest : Work (Except Failure β) := ExceptT.bindCont next (a.outcome c)
      (((rest.run (a.after c)).1.1, (rest.run (a.after c)).1.2),
        (a.trace c).append (rest.run (a.after c)).2)) := rfl
  rw [unfolded]
  cases a.outcome c with
  | ok x => rfl
  | error e => exact congrArg (Prod.mk _) (Trace.append_nothing _)

theorem outcome_bind {α β : Type} (a : Attempt α) (next : α → Attempt β) (c : Cache) :
    outcome (a >>= next) c =
      match a.outcome c with
      | .ok x => (next x).outcome (a.after c)
      | .error e => .error e := by
  rw [outcome, run_bind]
  cases a.outcome c <;> rfl

theorem after_bind {α β : Type} (a : Attempt α) (next : α → Attempt β) (c : Cache) :
    after (a >>= next) c =
      match a.outcome c with
      | .ok x => (next x).after (a.after c)
      | .error _ => a.after c := by
  rw [after, run_bind]
  cases a.outcome c <;> rfl

theorem trace_bind {α β : Type} (a : Attempt α) (next : α → Attempt β) (c : Cache) :
    trace (a >>= next) c =
      match a.outcome c with
      | .ok x => (a.trace c).append ((next x).trace (a.after c))
      | .error _ => a.trace c := by
  rw [trace, run_bind]
  cases a.outcome c <;> rfl

@[simp] theorem outcome_map {α β : Type} (f : α → β) (a : Attempt α) (c : Cache) :
    outcome (f <$> a) c = (a.outcome c).map f := by
  have unfolded : outcome (f <$> a) c = outcome (a >>= fun x => pure (f x)) c := rfl
  rw [unfolded, outcome_bind]
  cases a.outcome c <;> rfl

@[simp] theorem after_map {α β : Type} (f : α → β) (a : Attempt α) (c : Cache) :
    after (f <$> a) c = a.after c := by
  have unfolded : after (f <$> a) c = after (a >>= fun x => pure (f x)) c := rfl
  rw [unfolded, after_bind]
  cases a.outcome c <;> rfl

@[simp] theorem trace_map {α β : Type} (f : α → β) (a : Attempt α) (c : Cache) :
    trace (f <$> a) c = a.trace c := by
  have unfolded : trace (f <$> a) c = trace (a >>= fun x => pure (f x)) c := rfl
  rw [unfolded, trace_bind]
  cases a.outcome c with
  | ok x => exact Trace.append_nothing _
  | error e => rfl

@[simp] theorem outcome_discard {α : Type} (a : Attempt α) (c : Cache) :
    outcome (discard a) c = (a.outcome c).map fun _ => () := outcome_map _ a c

@[simp] theorem after_discard {α : Type} (a : Attempt α) (c : Cache) :
    after (discard a) c = a.after c := after_map _ a c

@[simp] theorem trace_discard {α : Type} (a : Attempt α) (c : Cache) :
    trace (discard a) c = a.trace c := trace_map _ a c

end Attempt

/-- A schema failure as any other. -/
def Failure.ofSchema {α : Type} (r : Except SchemaFailure α) : Except Failure α :=
  r.mapError .schema

/-- A result as a computation that does no work. -/
def Attempt.ofExcept {α : Type} (r : Except Failure α) : Attempt α := ExceptT.mk (pure r)

namespace Attempt

@[simp] theorem outcome_ofExcept {α : Type} (r : Except Failure α) (c : Cache) :
    (ofExcept r).outcome c = r := rfl

@[simp] theorem after_ofExcept {α : Type} (r : Except Failure α) (c : Cache) :
    (ofExcept r).after c = c := rfl

@[simp] theorem trace_ofExcept {α : Type} (r : Except Failure α) (c : Cache) :
    (ofExcept r).trace c = {} := rfl

end Attempt

/-! ## Compiling -/

/-- What a computation over a store comes to, as a computation on a cache. -/
def Attempt.ofLoading {α : Type} (r : Loading SchemaFailure α) : Attempt α :=
  ExceptT.mk do
    let outcome ← Work.read r.run
    return Failure.ofSchema outcome

namespace Attempt

@[simp] theorem outcome_ofLoading {α : Type} (r : Loading SchemaFailure α) (c : Cache) :
    (ofLoading r).outcome c = Failure.ofSchema r.outcome := rfl

@[simp] theorem after_ofLoading {α : Type} (r : Loading SchemaFailure α) (c : Cache) :
    (ofLoading r).after c = c := rfl

@[simp] theorem trace_ofLoading {α : Type} (r : Loading SchemaFailure α) (c : Cache) :
    (ofLoading r).trace c = { asked := r.asked } := Trace.append_nothing _

end Attempt

/-- Compiles a driver with a catalog bound for as long as it takes. -/
def compileDriver (engine : Engine) (bundle : Bundle) : Attempt SchemaInput :=
  ExceptT.mk do
    if bundle.driver.length > sizeLimit then
      return .error (.schema (EngineFailure.tooLarge bundle.driver.length).toSchemaFailure)
    Work.modify fun c => { c with loader := c.loader.bind bundle.catalog }
    let c ← Work.cache
    let (calls, result) := engine.compileWith c.loader bundle.driver
    Work.note calls
    Work.modify fun c => { c with loader := c.loader.release }
    return result.mapError fun cause => .schema cause.toSchemaFailure

/-- Loads and compiles a group, and keeps it under a key. -/
def compileGroup (engine : Engine) (store : Store) (key : Key) (paths : List String) :
    Attempt CompiledSchema := do
  let bundle ← Attempt.ofLoading (Bundle.load store paths)
  let input ← compileDriver engine bundle
  let c ← Work.cache
  let compiled : CompiledSchema :=
    ⟨c.size, key, bundle.members, bundle.catalog.size, input⟩
  Work.modify fun c => { c with entries := c.entries ++ [(key, compiled)] }
  return compiled

/-- The compiled schema under a key, compiled from the paths if there is none. -/
def getOrCompile (engine : Engine) (store : Store) (key : Key) (paths : List String) :
    Attempt CompiledSchema := do
  match (← (Work.cache : Work Cache)).find? key with
  | some compiled => return compiled
  | none => compileGroup engine store key paths

def getContext (engine : Engine) (store : Store) (c : Context) : Attempt CompiledSchema :=
  getOrCompile engine store (.context c) c.paths

def getPaths (engine : Engine) (store : Store) (paths : List String) : Attempt CompiledSchema :=
  if paths.isEmpty then throw (.schema .noPaths)
  else getOrCompile engine store (.ofPaths paths) paths

/-- Compiles every context in turn, up to the first failure. The engine and the store may
    answer each context differently. -/
def warmUpEach (engine : Context → Engine) (store : Context → Store) : Attempt Unit :=
  Context.all.forM fun c => discard (getContext (engine c) (store c) c)

/-- Compiles every context in turn, up to the first failure. -/
def warmUp (engine : Engine) (store : Store) : Attempt Unit :=
  warmUpEach (fun _ => engine) fun _ => store

/-- Compiles a schema on its own, which leaves the cache as it is. -/
def compileAlone (engine : Engine) (driver : Bytes) : Work (Except EngineFailure Unit) := do
  if driver.length > sizeLimit then return .error (.tooLarge driver.length)
  let c ← Work.cache
  let (calls, result) := engine.compileWith c.loader driver
  Work.note calls
  return result.map fun _ => ()

/-! ## Checking -/

/-- A single structural pass that is about to be made. -/
structure Session where
  schema : CompiledSchema
  deriving DecidableEq

def openSession (engine : Engine) (schema : CompiledSchema) : Attempt Session :=
  if engine.opens schema.input then return ⟨schema⟩
  else throw EngineFailure.noSession.toFailure

/-- Opens a session on the schema of a context, compiled if need be. -/
def sessionFor (engine : Engine) (store : Store) (c : Context) : Attempt Session :=
  getContext engine store c >>= openSession engine

/-- Makes the pass over a document: what was reported, and the verdict. -/
def Session.validate (engine : Engine) (s : Session) (document : Bytes) :
    Work (Collector × Except EngineFailure Verdict) := do
  if document.length > sizeLimit then return (.empty, .error (.tooLarge document.length))
  Work.note [.document document]
  return (engine.pass s.schema.input document).report .empty

/-- Makes the pass over a document: its warnings, or the failure that its errors are. -/
def Session.check (engine : Engine) (s : Session) (document : Bytes) :
    Attempt (List Diagnostic) := do
  let (collector, verdict) ← (s.validate engine document : Work _)
  match verdict with
  | .error cause => throw cause.toFailure
  | .ok _ => Attempt.ofExcept collector.result

end MessageConformance
