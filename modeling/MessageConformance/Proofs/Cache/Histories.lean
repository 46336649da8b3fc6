import MessageConformance.Proofs.Cache.Lookups

/-!
# Histories of a cache

The requests that are made of a cache come down to lookups that follow one another
(`Follows`). What is kept is never lost (`Follows.find?_of_kept`), so each key is compiled at most
once and the cache holds the keys that were compiled (`Follows.nodup_compiledKeys`,
`Follows.contains_iff`). A history of requests thus has all that `Memoises` says, whatever the
engines and stores answer (`memoises`).
-/

namespace MessageConformance

/-! ## Lookups that follow one another -/

/-- The lookups are made one after the other, and lead from a cache to a cache. -/
inductive Follows : Cache → List Event → Cache → Prop
  | nil (c : Cache) : Follows c [] c
  | cons {e : Event} {es : List Event} {c : Cache} (rest : Follows e.after es c) :
      Follows e.cache (e :: es) c

/-- The keys for which a schema was compiled, in order. -/
def compiledKeys (es : List Event) : List Key := (es.filter (·.compiles)).map (·.key)

theorem mem_compiledKeys (es : List Event) (key : Key) :
    key ∈ compiledKeys es ↔ ∃ e ∈ es, e.compiles = true ∧ e.key = key := by
  simp [compiledKeys, and_assoc]

namespace Follows

variable {c c' c'' : Cache} {es es' : List Event} {key : Key} {compiled : CompiledSchema}

theorem single (e : Event) : Follows e.cache [e] e.after := .cons (.nil _)

theorem append (first : Follows c es c') (second : Follows c' es' c'') :
    Follows c (es ++ es') c'' := by
  induction first with
  | nil => exact second
  | cons _ ih => exact .cons (ih second)

/-- The lookups before a lookup lead to the cache it is made on. -/
theorem split {e : Event} (follows : Follows c (es ++ e :: es') c') :
    Follows c es e.cache ∧ Follows e.after es' c' := by
  induction es generalizing c with
  | nil =>
    cases follows with
    | cons rest => exact ⟨.nil _, rest⟩
  | cons first es ih =>
    cases follows with
    | cons rest => exact ⟨.cons (ih rest).1, (ih rest).2⟩

/-- What is kept is never lost or replaced. -/
theorem find?_of_kept (follows : Follows c es c') (kept : c.find? key = some compiled) :
    c'.find? key = some compiled := by
  induction follows with
  | nil => exact kept
  | cons _ ih => exact ih (by simp [Event.find?_after, kept])

/-- After some lookups a cache holds the keys that it held before and those that were looked up
    with success. -/
theorem contains_iff (follows : Follows c es c') (key : Key) :
    c'.contains key = true ↔
      c.contains key = true ∨ ∃ e ∈ es, e.key = key ∧ e.Succeeds := by
  induction follows with
  | nil => simp
  | cons _ ih =>
    rw [ih, Event.contains_after]
    simp [or_assoc]

theorem contains_iff_compiled (follows : Follows c es c') (key : Key) :
    c'.contains key = true ↔ c.contains key = true ∨ key ∈ compiledKeys es := by
  induction follows with
  | nil => simp [compiledKeys]
  | cons _ ih =>
    rw [ih, Event.contains_after_iff_compiles, mem_compiledKeys, mem_compiledKeys]
    simp [or_assoc]

/-- A key is compiled at most once, and not at all when it is kept to begin with. -/
theorem nodup_compiledKeys (follows : Follows c es c') :
    (compiledKeys es).Nodup ∧ ∀ key ∈ compiledKeys es, c.find? key = none := by
  induction follows with
  | nil => simp [compiledKeys]
  | @cons e es c rest ih =>
    obtain ⟨distinct, absent⟩ := ih
    have before : ∀ key ∈ compiledKeys es, e.cache.find? key = none ∧ 
        (key = e.key → ¬ e.Succeeds) := by
      intro key member
      have none := absent key member
      rw [Event.find?_after, Option.or_eq_none_iff] at none
      refine ⟨none.1, fun same ⟨compiled, made⟩ => ?_⟩
      simp [same, made, Except.toOption] at none
    by_cases compiles : e.compiles = true
    · obtain ⟨missing, succeeds⟩ := e.compiles_iff.1 compiles
      have keys : compiledKeys (e :: es) = e.key :: compiledKeys es := by
        simp [compiledKeys, compiles]
      rw [keys]
      refine ⟨List.nodup_cons.2 ⟨fun member => (before _ member).2 rfl succeeds, distinct⟩, ?_⟩
      intro key member
      obtain rfl | member := List.mem_cons.1 member
      · exact missing
      · exact (before key member).1
    · have keys : compiledKeys (e :: es) = compiledKeys es := by
        simp [compiledKeys, compiles]
      rw [keys]
      exact ⟨distinct, fun key member => (before key member).1⟩

theorem size_eq (follows : Follows c es c') : c'.size = c.size + (compiledKeys es).length := by
  induction follows with
  | nil => simp [compiledKeys]
  | @cons e es c rest ih =>
    by_cases compiles : e.compiles = true
    · obtain ⟨compiled, made⟩ := (e.compiles_iff.1 compiles).2
      have grown : e.after.size = e.cache.size + 1 := by
        simp [Cache.size, Event.entries_of_compiles compiles made]
      have keys : (compiledKeys (e :: es)).length = (compiledKeys es).length + 1 := by
        simp [compiledKeys, compiles]
      omega
    · have kept : e.after.size = e.cache.size :=
        congrArg List.length (Event.entries_of_not_compiles compiles)
      have keys : compiledKeys (e :: es) = compiledKeys es := by
        simp [compiledKeys, compiles]
      rw [ih, kept, keys]

theorem find?_of_success {rest : List Event} {e : Event}
    (follows : Follows c (es ++ e :: rest) c') (made : e.outcome = .ok compiled) :
    c'.find? e.key = some compiled := by
  refine follows.split.2.find?_of_kept ?_
  rw [Event.find?_after]
  cases found : e.cache.find? e.key with
  | none => simp [made, Except.toOption]
  | some other =>
    have handed := (Event.hit found).1
    rw [made] at handed
    simp [Except.ok.inj handed]

/-- Once a key was looked up with success, every later lookup of it hands out the same and does
    nothing. -/
theorem shared {between rest : List Event} {e e' : Event}
    (follows : Follows c (es ++ e :: (between ++ e' :: rest)) c') (same : e'.key = e.key)
    (made : e.outcome = .ok compiled) :
    e'.outcome = .ok compiled ∧ e'.after = e'.cache ∧ e'.trace = {} := by
  rw [← List.cons_append, ← List.append_assoc] at follows
  have kept := follows.split.1.find?_of_success made
  exact Event.hit (by rw [same]; exact kept)

theorem afresh {rest : List Event} {e : Event} (follows : Follows c (es ++ e :: rest) c')
    (absent : c.contains e.key = false) (failed : ∀ e' ∈ es, e'.key = e.key → ¬ e'.Succeeds) :
    e.outcome = e.visit.compile e.cache.size ∧ e.trace = e.visit.work := by
  have missing : ¬ e.cache.contains e.key = true := by
    rw [follows.split.1.contains_iff]
    rintro (held | ⟨e', member, same, succeeds⟩)
    · simp [absent] at held
    · exact failed e' member same succeeds
  have missed := Event.missed (Option.not_isSome_iff_eq_none.1 missing)
  exact ⟨missed.1, missed.2.2⟩

theorem again {between rest : List Event} {e e' : Event} {cause : Failure}
    (follows : Follows c (es ++ e :: (between ++ e' :: rest)) c') (same : e'.key = e.key)
    (failed : e.outcome = .error cause) (next : ∀ d ∈ between, d.key ≠ e.key) :
    e'.outcome = e'.visit.compile e'.cache.size ∧ e'.trace = e'.visit.work := by
  have fails : ¬ e.Succeeds := fun ⟨compiled, made⟩ => by simp [made] at failed
  have missing : e.cache.find? e.key = none := by
    cases kept : e.cache.find? e.key with
    | none => rfl
    | some compiled => exact absurd ⟨compiled, (Event.hit kept).1⟩ fails
  have absent : e.after.contains e'.key = false := by
    rw [Bool.eq_false_iff, Ne, same, Event.contains_after]
    simp [Cache.contains, missing, fails]
  refine follows.split.2.afresh absent fun d member equal => ?_
  exact absurd (equal.trans same) (next d member)

end Follows

/-! ## Requests -/

/-- What answers a lookup at the time it is made. -/
structure World where
  engine : Engine
  store : Store

/-- A request of a cache. The contexts that are warmed up may each find another world. -/
inductive Request where
  | get (world : World) (context : Context)
  | getPaths (world : World) (paths : List String)
  | sessionFor (world : World) (context : Context)
  | warmUp (world : Context → World)

/-- What a request is answered with. -/
inductive Answer where
  | schema (compiled : CompiledSchema)
  | session (session : Session)
  | warm

/-- The lookup of a context. -/
def World.visit (w : World) (context : Context) : Visit :=
  ⟨w.engine, w.store, .context context, context.paths⟩

namespace Request

/-- The request as a computation on a cache. -/
def perform : Request → Attempt Answer
  | get w context => .schema <$> getContext w.engine w.store context
  | getPaths w paths => .schema <$> MessageConformance.getPaths w.engine w.store paths
  | sessionFor w context => .session <$> MessageConformance.sessionFor w.engine w.store context
  | warmUp w =>
    (fun _ => .warm) <$> warmUpEach (fun context => (w context).engine) fun context =>
      (w context).store

/-- The lookups of a request, of which those after a failure are not made. -/
def visits : Request → List Visit
  | get w context | sessionFor w context => [w.visit context]
  | getPaths w paths =>
    if paths.isEmpty then [] else [⟨w.engine, w.store, .ofPaths paths, paths⟩]
  | warmUp w => Context.all.map fun context => (w context).visit context

/-- The answer to a request by what its lookups came to. -/
def answer : Request → List (Except Failure CompiledSchema) → Except Failure Answer
  | get _ _, [outcome] | getPaths _ _, [outcome] => outcome.map .schema
  | sessionFor w _, [outcome] => do
    let compiled ← outcome
    if w.engine.opens compiled.input then .ok (.session ⟨compiled⟩)
    else .error EngineFailure.noSession.toFailure
  | warmUp _, outcomes => (outcomes.forM discard).map fun _ => .warm
  | _, _ => .error (.schema .noPaths)

end Request

/-- The lookups that are made in turn, up to the first that fails. -/
def visitAll : List Visit → Cache → List Event
  | [], _ => []
  | v :: vs, c =>
    ⟨v, c⟩ :: match v.look.outcome c with
      | .ok _ => visitAll vs (v.look.after c)
      | .error _ => []

/-- What was done by one lookup after the other. -/
def totalTrace (es : List Event) : Trace := (es.map (·.trace)).foldr Trace.append {}

/-- A request is its lookups: they follow one another, nothing is done besides them, and what they
    come to is the answer. -/
structure Request.ComesDownTo (r : Request) (c : Cache) (es : List Event) : Prop where
  follows : Follows c es (r.perform.after c)
  trace : r.perform.trace c = totalTrace es
  answer : r.perform.outcome c = r.answer (es.map (·.outcome))

theorem visitAll_singleton (v : Visit) (c : Cache) : visitAll [v] c = [⟨v, c⟩] := by
  unfold visitAll
  cases v.look.outcome c <;> rfl

theorem visit_mem_of_mem_visitAll {vs : List Visit} {c : Cache} {e : Event}
    (member : e ∈ visitAll vs c) : e.visit ∈ vs := by
  induction vs generalizing c with
  | nil => simp [visitAll] at member
  | cons v vs ih =>
    obtain rfl | later := List.mem_cons.1 member
    · exact List.mem_cons_self ..
    · refine List.mem_cons_of_mem v ?_
      cases made : v.look.outcome c with
      | ok compiled => exact ih (by simpa [made] using later)
      | error cause => simp [made] at later

theorem totalTrace_singleton (e : Event) : totalTrace [e] = e.trace := by
  simp [totalTrace]

theorem openSession_idle (engine : Engine) (compiled : CompiledSchema) (c : Cache) :
    (openSession engine compiled).after c = c ∧ (openSession engine compiled).trace c = {} := by
  unfold openSession
  split <;> exact ⟨rfl, rfl⟩

/-- Looking up in turn, up to the first failure. -/
def lookAll (vs : List Visit) : Attempt Unit := vs.forM fun v => discard v.look

theorem lookAll_cons (v : Visit) (vs : List Visit) :
    lookAll (v :: vs) = discard v.look >>= fun _ => lookAll vs := List.forM_cons

/-- Looking up in turn makes the lookups up to the first that fails, and fails as that one. -/
theorem lookAll_spec (vs : List Visit) (c : Cache) :
    Follows c (visitAll vs c) ((lookAll vs).after c) ∧
      (lookAll vs).trace c = totalTrace (visitAll vs c) ∧
      (lookAll vs).outcome c = ((visitAll vs c).map (·.outcome)).forM discard := by
  induction vs generalizing c with
  | nil => exact ⟨.nil c, rfl, rfl⟩
  | cons v vs ih =>
    obtain ⟨follows, trace, outcome⟩ := ih (v.look.after c)
    rw [lookAll_cons, Attempt.after_bind, Attempt.trace_bind, Attempt.outcome_bind,
      Attempt.outcome_discard, Attempt.after_discard, Attempt.trace_discard, visitAll]
    cases made : v.look.outcome c with
    | error cause =>
      have failed : Event.outcome ⟨v, c⟩ = .error cause := made
      exact ⟨.single ⟨v, c⟩, (totalTrace_singleton ⟨v, c⟩).symm, by
        rw [List.map_singleton, failed]; rfl⟩
    | ok compiled =>
      have succeeded : Event.outcome ⟨v, c⟩ = .ok compiled := made
      refine ⟨.cons (e := ⟨v, c⟩) follows, ?_, ?_⟩
      · simp only [Except.map, totalTrace, List.map_cons, List.foldr_cons]
        exact congrArg _ trace
      · rw [List.map_cons, succeeded]
        exact outcome

namespace Request

/-- A request that does what one lookup does comes down to it. -/
theorem comesDownTo_of_look {r : Request} {v : Visit} {c : Cache} (visits : r.visits = [v])
    (after : r.perform.after c = v.look.after c) (trace : r.perform.trace c = v.look.trace c)
    (answer : r.perform.outcome c = r.answer [v.look.outcome c]) :
    r.ComesDownTo c (visitAll r.visits c) := by
  rw [visits, visitAll_singleton]
  refine ⟨?_, ?_, ?_⟩
  · rw [after]
    exact .single ⟨v, c⟩
  · rw [trace, totalTrace_singleton]
    rfl
  · rw [answer]
    rfl

theorem comesDownTo_get (w : World) (context : Context) (c : Cache) :
    (get w context).ComesDownTo c (visitAll (get w context).visits c) := by
  refine comesDownTo_of_look (v := w.visit context) rfl ?_ ?_ ?_
  · rw [perform, Attempt.after_map]
    rfl
  · rw [perform, Attempt.trace_map]
    rfl
  · rw [perform, Attempt.outcome_map]
    rfl

theorem comesDownTo_getPaths (w : World) (paths : List String) (c : Cache) :
    (getPaths w paths).ComesDownTo c (visitAll (getPaths w paths).visits c) := by
  by_cases none : paths.isEmpty = true
  · have refused : MessageConformance.getPaths w.engine w.store paths = throw (.schema .noPaths) := by
      rw [MessageConformance.getPaths, if_pos none]
    rw [visits, if_pos none]
    refine ⟨?_, ?_, ?_⟩
    · rw [perform, refused, Attempt.after_map]
      exact .nil c
    · rw [perform, refused, Attempt.trace_map]
      rfl
    · rw [perform, refused, Attempt.outcome_map]
      rfl
  · have looked : MessageConformance.getPaths w.engine w.store paths =
        Visit.look ⟨w.engine, w.store, .ofPaths paths, paths⟩ := by
      rw [MessageConformance.getPaths, if_neg none]
      rfl
    have one : (getPaths w paths).visits = [⟨w.engine, w.store, .ofPaths paths, paths⟩] := by
      rw [visits, if_neg none]
    refine comesDownTo_of_look one ?_ ?_ ?_
    · rw [perform, looked, Attempt.after_map]
    · rw [perform, looked, Attempt.trace_map]
    · rw [perform, looked, Attempt.outcome_map]
      rfl

theorem comesDownTo_sessionFor (w : World) (context : Context) (c : Cache) :
    (sessionFor w context).ComesDownTo c (visitAll (sessionFor w context).visits c) := by
  have looked : MessageConformance.sessionFor w.engine w.store context =
      (w.visit context).look >>= openSession w.engine := rfl
  have idle := openSession_idle w.engine
  refine comesDownTo_of_look (v := w.visit context) rfl ?_ ?_ ?_
  · rw [perform, Attempt.after_map, looked, Attempt.after_bind]
    cases (w.visit context).look.outcome c with
    | ok compiled => exact (idle compiled _).1
    | error cause => rfl
  · rw [perform, Attempt.trace_map, looked, Attempt.trace_bind]
    cases (w.visit context).look.outcome c with
    | ok compiled => simp [(idle compiled _).2]
    | error cause => rfl
  · rw [perform, Attempt.outcome_map, looked, Attempt.outcome_bind]
    cases (w.visit context).look.outcome c with
    | ok compiled =>
      cases opens : w.engine.opens compiled.input <;>
        simp [answer, openSession, opens, bind, Except.bind, Except.map]
    | error cause => rfl

theorem comesDownTo_warmUp (w : Context → World) (c : Cache) :
    (warmUp w).ComesDownTo c (visitAll (warmUp w).visits c) := by
  obtain ⟨follows, trace, outcome⟩ := lookAll_spec (visits (.warmUp w)) c
  refine ⟨?_, ?_, ?_⟩
  · rw [perform, Attempt.after_map]
    exact follows
  · rw [perform, Attempt.trace_map]
    exact trace
  · rw [perform, Attempt.outcome_map]
    exact congrArg (Except.map fun _ => Answer.warm) outcome

/-- Every request comes down to its lookups. -/
theorem comesDownTo (r : Request) (c : Cache) : r.ComesDownTo c (visitAll r.visits c) := by
  cases r with
  | get w context => exact comesDownTo_get w context c
  | getPaths w paths => exact comesDownTo_getPaths w paths c
  | sessionFor w context => exact comesDownTo_sessionFor w context c
  | warmUp w => exact comesDownTo_warmUp w c

end Request

/-- A session that cannot be opened leaves the schema in the cache. -/
theorem sessionFor_of_unopened {w : World} {context : Context} {c : Cache}
    {compiled : CompiledSchema} (made : Event.outcome ⟨w.visit context, c⟩ = .ok compiled)
    (unopened : w.engine.opens compiled.input = false) :
    (Request.sessionFor w context).perform.outcome c =
      .error EngineFailure.noSession.toFailure ∧
    ((Request.sessionFor w context).perform.after c).find? (.context context) = some compiled := by
  obtain ⟨follows, -, answer⟩ := (Request.sessionFor w context).comesDownTo c
  rw [Request.visits, visitAll_singleton] at follows answer
  refine ⟨?_, ?_⟩
  · rw [answer, List.map_singleton, made]
    simp [Request.answer, unopened, bind, Except.bind]
  · have first : Follows c ([] ++ [⟨w.visit context, c⟩])
        ((Request.sessionFor w context).perform.after c) := follows
    exact first.find?_of_success made

/-! ## Warming up -/

/-- When looking up in turn fails, the lookups up to the one that fails are made, and no other. -/
theorem visitAll_of_error {vs : List Visit} {c : Cache} {cause : Failure}
    (failed : (lookAll vs).outcome c = .error cause) :
    ∃ before v rest es, vs = before ++ v :: rest ∧ es.map (·.visit) = before ∧
      (∀ e ∈ es, e.Succeeds) ∧
      ∃ e, visitAll vs c = es ++ [e] ∧ e.visit = v ∧ e.outcome = .error cause := by
  induction vs generalizing c with
  | nil => simp [(lookAll_spec [] c).2.2, visitAll, pure, Except.pure] at failed
  | cons v vs ih =>
    rw [lookAll_cons, Attempt.outcome_bind, Attempt.outcome_discard, Attempt.after_discard] at failed
    cases made : v.look.outcome c with
    | error reason =>
      rw [made] at failed
      obtain rfl : reason = cause := Except.error.inj failed
      exact ⟨[], v, vs, [], rfl, rfl, by simp, ⟨v, c⟩, by simp [visitAll, made], rfl, made⟩
    | ok compiled =>
      rw [made] at failed
      obtain ⟨before, v', rest, es, shape, visited, succeed, e, looked, here, outcome⟩ := ih failed
      refine ⟨v :: before, v', rest, ⟨v, c⟩ :: es, by rw [shape, List.cons_append],
        by rw [List.map_cons, visited], ?_, e, ?_, here, outcome⟩
      · rintro e' (_ | ⟨_, member⟩)
        · exact ⟨compiled, made⟩
        · exact succeed e' member
      · simp [visitAll, made, looked]

/-- When warming up fails at a context, those before it are looked up and kept, and those after it
    are not looked up. -/
theorem warmUp_of_error {w : Context → World} {c : Cache} {cause : Failure}
    (failed : (Request.warmUp w).perform.outcome c = .error cause) :
    ∃ before failing rest, Context.all = before ++ failing :: rest ∧
      (visitAll (Request.warmUp w).visits c).map (·.visit) =
        (before ++ [failing]).map (fun context => (w context).visit context) ∧
      ∀ key, ((Request.warmUp w).perform.after c).contains key = true ↔
        c.contains key = true ∨ ∃ context ∈ before, key = .context context := by
  have stopped : (lookAll (Request.warmUp w).visits).outcome c = .error cause := by
    have same : (Request.warmUp w).perform.outcome c =
        ((lookAll (Request.warmUp w).visits).outcome c).map fun _ => .warm :=
      Attempt.outcome_map _ _ c
    rw [same] at failed
    cases made : (lookAll (Request.warmUp w).visits).outcome c with
    | ok _ => simp [made, Except.map] at failed
    | error reason => simpa [made, Except.map] using failed
  obtain ⟨before, v, rest, es, shape, visited, succeed, e, looked, here, outcome⟩ :=
    visitAll_of_error stopped
  obtain ⟨contexts, others, split, rfl, others'⟩ := List.map_eq_append_iff.1 shape
  obtain ⟨failing, later, rfl, rfl, -⟩ := List.map_eq_cons_iff.1 others'
  refine ⟨contexts, failing, later, split, ?_, fun key => ?_⟩
  · rw [looked]; simp [visited, here]
  · have follows := ((Request.warmUp w).comesDownTo c).follows
    rw [follows.contains_iff, looked]
    have fails : ¬ e.Succeeds := fun ⟨compiled, made⟩ => by simp [made] at outcome
    have keys : es.map (·.key) = contexts.map .context := by
      have mapped := congrArg (List.map (·.key)) visited
      simpa [World.visit, Event.key, Function.comp_def] using mapped
    refine or_congr_right ⟨?_, ?_⟩
    · rintro ⟨e', member, rfl, succeeds⟩
      obtain member | member := List.mem_append.1 member
      · have listed : e'.key ∈ contexts.map .context := keys ▸ List.mem_map_of_mem member
        obtain ⟨context, member, same⟩ := List.mem_map.1 listed
        exact ⟨context, member, same.symm⟩
      · exact absurd (List.mem_singleton.1 member ▸ succeeds) fails
    · rintro ⟨context, member, rfl⟩
      have listed : Key.context context ∈ es.map (·.key) := keys ▸ List.mem_map_of_mem member
      obtain ⟨e', member, same⟩ := List.mem_map.1 listed
      exact ⟨e', List.mem_append_left _ member, same, succeed e' member⟩

/-! ## Histories -/

/-- Requests made one after the other, each with the cache that it is made of. -/
def occasions : List Request → Cache → List (Request × Cache)
  | [], _ => []
  | r :: rs, c => (r, c) :: occasions rs (r.perform.after c)

/-- The cache after some requests. -/
def cacheAfter (requests : List Request) (c : Cache) : Cache :=
  requests.foldl (fun c r => r.perform.after c) c

/-- The lookups of some requests, in order. -/
def lookups (requests : List Request) (c : Cache) : List Event :=
  (occasions requests c).flatMap fun (r, c) => visitAll r.visits c

theorem follows_lookups (requests : List Request) (c : Cache) :
    Follows c (lookups requests c) (cacheAfter requests c) := by
  induction requests generalizing c with
  | nil => exact .nil c
  | cons r requests ih => exact (r.comesDownTo c).follows.append (ih _)

/-- What a cache keeps to over a history of requests, from an empty cache on. -/
structure Memoises (requests : List Request) : Prop where
  /-- Every request comes down to its lookups. -/
  requested : ∀ r c, (r, c) ∈ occasions requests .empty → r.ComesDownTo c (visitAll r.visits c)
  /-- No key is compiled twice. -/
  compiledOnce : (compiledKeys (lookups requests .empty)).Nodup
  /-- After its first success a key is answered with the same schema, and nothing is done. -/
  shared : ∀ before (e : Event) between (e' : Event) rest compiled,
    lookups requests .empty = before ++ e :: (between ++ e' :: rest) → e'.key = e.key →
      e.outcome = .ok compiled →
        e'.outcome = .ok compiled ∧ e'.after = e'.cache ∧ e'.trace = {}
  /-- Until its first success a key is loaded and compiled each time. -/
  afresh : ∀ before (e : Event) rest, lookups requests .empty = before ++ e :: rest →
    (∀ e' ∈ before, e'.key = e.key → ¬ e'.Succeeds) →
      e.outcome = e.visit.compile e.cache.size ∧ e.trace = e.visit.work
  /-- A failure leaves the entries as they are. -/
  failed : ∀ e ∈ lookups requests .empty, ∀ cause, e.outcome = .error cause →
    e.after.entries = e.cache.entries
  /-- After a failure the next lookup of the key loads and compiles again. -/
  retried : ∀ before (e : Event) between (e' : Event) rest cause,
    lookups requests .empty = before ++ e :: (between ++ e' :: rest) → e'.key = e.key →
      e.outcome = .error cause → (∀ d ∈ between, d.key ≠ e.key) →
        e'.outcome = e'.visit.compile e'.cache.size ∧ e'.trace = e'.visit.work
  /-- A session that cannot be opened leaves the schema in the cache. -/
  unopened : ∀ w context c compiled, (.sessionFor w context, c) ∈ occasions requests .empty →
    Event.outcome ⟨w.visit context, c⟩ = .ok compiled → w.engine.opens compiled.input = false →
      (Request.sessionFor w context).perform.outcome c =
        .error EngineFailure.noSession.toFailure ∧
      ((Request.sessionFor w context).perform.after c).find? (.context context) = some compiled
  /-- The cache holds the keys that were compiled. -/
  contains_iff : ∀ key, (cacheAfter requests .empty).contains key = true ↔
    key ∈ compiledKeys (lookups requests .empty)
  /-- The size of the cache is the number of keys that were compiled. -/
  size_eq : (cacheAfter requests .empty).size = (compiledKeys (lookups requests .empty)).length
  /-- A warming up that fails keeps the contexts before the one that it fails at, and looks up no
      context after it. -/
  warmed : ∀ w c cause, (.warmUp w, c) ∈ occasions requests .empty →
    (Request.warmUp w).perform.outcome c = .error cause →
      ∃ before failing rest, Context.all = before ++ failing :: rest ∧
        (visitAll (Request.warmUp w).visits c).map (·.visit) =
          (before ++ [failing]).map (fun context => (w context).visit context) ∧
        ∀ key, ((Request.warmUp w).perform.after c).contains key = true ↔
          c.contains key = true ∨ ∃ context ∈ before, key = .context context

/-- Whatever the engines and stores answer, a cache keeps to this over every history. -/
theorem memoises (requests : List Request) : Memoises requests := by
  have follows := follows_lookups requests .empty
  have none (key : Key) : Cache.empty.contains key = false := rfl
  constructor
  case requested => exact fun r c _ => r.comesDownTo c
  case compiledOnce => exact follows.nodup_compiledKeys.1
  case shared =>
    intro before e between e' rest compiled shape same made
    exact (shape ▸ follows).shared same made
  case afresh =>
    intro before e rest shape unsuccessful
    exact (shape ▸ follows).afresh (none e.key) unsuccessful
  case failed =>
    intro e _ cause outcome
    exact Event.entries_of_not_compiles (Event.not_compiles_of_error outcome)
  case retried =>
    intro before e between e' rest cause shape same outcome next
    exact (shape ▸ follows).again same outcome next
  case unopened => exact fun w context c compiled _ => sessionFor_of_unopened
  case contains_iff =>
    intro key
    simp [follows.contains_iff_compiled, none]
  case size_eq => simpa [Cache.empty, Cache.size] using follows.size_eq
  case warmed => exact fun w c cause _ outcome => warmUp_of_error outcome

end MessageConformance
