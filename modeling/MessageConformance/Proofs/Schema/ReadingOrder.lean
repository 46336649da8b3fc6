import MessageConformance.Proofs.Schema.BreadthFirst
import MessageConformance.Proofs.Schema.Bundles
import MessageConformance.Proofs.Store.Probes

/-!
# The order of reading

Loading reads as far as it succeeds. If a path names no document, the paths are read up to that
one and nothing else is (`asked_load_of_unnamed`). Otherwise the references of the documents
follow, breadth first, up to the first document that does not scan (`asked_expand_eq`), and in
each document up to the first reference that has to lead somewhere and does not
(`asked_rewrite_eq`). `load_reads` puts this together.
-/

namespace MessageConformance

/-! ## Computations that fail -/

namespace Loading

variable {ε α β : Type} {f : α → Loading ε β}

/-- Computations that are made for each item read what each of them reads, up to the first that
    fails. -/
theorem asked_mapM_eq (fails : α → Prop) [DecidablePred fails]
    (step : ∀ a, ¬ fails a ↔ ∃ b, (f a).outcome = .ok b) (items : List α) :
    asked (items.mapM f) = (upTo fails items).flatMap fun a => (f a).asked := by
  induction items with
  | nil => rfl
  | cons a items ih =>
    rw [List.mapM_cons, upTo]
    by_cases failed : fails a
    · rw [asked_bind, if_pos failed]
      cases made : (f a).outcome with
      | ok b => exact absurd failed ((step a).2 ⟨b, made⟩)
      | error e => simp
    · obtain ⟨b, made⟩ := (step a).1 failed
      rw [asked_bind_of_ok made, asked_bind, ih, if_neg failed, List.flatMap_cons]
      cases outcome (items.mapM f) <;> simp

/-- The first failure is the failure of all. -/
theorem outcome_mapM_of_error {before : List α} {a : α} {e : ε}
    (made : ∀ b ∈ before, ∃ r, (f b).outcome = .ok r) (failed : (f a).outcome = .error e)
    (after : List α) : outcome ((before ++ a :: after).mapM f) = .error e := by
  induction before with
  | nil => rw [List.nil_append, List.mapM_cons, outcome_bind, failed]
  | cons b before ih =>
    rw [List.forall_mem_cons] at made
    obtain ⟨⟨r, here⟩, later⟩ := made
    rw [List.cons_append, List.mapM_cons, outcome_bind, here]
    show outcome ((before ++ a :: after).mapM f >>= _) = _
    rw [outcome_bind, ih later]

end Loading

/-! ## Members -/

namespace Resolver

/-- How a path that names no document is refused. -/
inductive Refuses (store : Store) (path : String) : SchemaFailure → Prop
  | nowhere (unparsed : Location.parse? path = none) : Refuses store path (.notFound path)
  | missing {l : Location} (parsed : Location.parse? path = some l)
      (absent : store.look l = .missing) : Refuses store path (.notFound path)
  | unreadable {l : Location} {reason : String} (parsed : Location.parse? path = some l)
      (broken : store.look l = .broken reason) : Refuses store path (.unreadable path reason)

variable {store : Store}

/-- A path names a document, or is refused. -/
theorem exists_refuses {path : String} (unnamed : ¬ ∃ d, Names store path d) :
    ∃ failure, (load store path).outcome = .error failure ∧ Refuses store path failure := by
  cases parsed : Location.parse? path with
  | none => exact ⟨_, by simp [load, parsed], .nowhere parsed⟩
  | some l =>
    cases looked : store.look l with
    | found content =>
      have isIn : Resource.IsIn ⟨l, content⟩ store :=
        (store.document?_eq_some_iff l content).2 looked
      exact absurd ⟨⟨l, content⟩, parsed, isIn⟩ unnamed
    | missing =>
      refine ⟨_, ?_, .missing parsed looked⟩
      simp [load, parsed, Loading.outcome_bind, Store.read, looked]
    | broken reason =>
      refine ⟨_, ?_, .unreadable parsed looked⟩
      simp [load, parsed, Loading.outcome_bind, Store.read, looked]

/-- Of a path what it names is read, whether there is something or not. -/
theorem asked_load_eq (store : Store) (path : String) :
    (load store path).asked = (Location.parse? path).toList := by
  cases parsed : Location.parse? path with
  | none => simp [load, parsed]
  | some l => exact asked_load parsed

end Resolver

namespace Schema

open Resolver

variable {store : Store}

theorem load_bind_eq (store : Store) {paths : List String} (nonempty : paths ≠ []) :
    ∃ next : List Resource → Loading SchemaFailure Bundle,
      Bundle.load store paths = paths.mapM (Resolver.load store) >>= next ∧
      ∀ loaded, (next loaded).asked = (expand store {} (start store loaded)).asked := by
  refine ⟨_, load_eq store nonempty, fun loaded => ?_⟩
  rw [Loading.asked_bind]
  cases (expand store {} (start store loaded)).outcome with
  | error failure => exact List.append_nil _
  | ok closure =>
    simp only [Loading.asked_bind, Loading.asked_liftExcept, Loading.outcome_liftExcept,
      Loading.asked_pure]
    split <;> simp

/-- If a path names no document, the paths up to it are read and no reference is looked for. -/
theorem asked_load_of_unnamed {before after : List String} {path : String}
    (named : ∀ p ∈ before, ∃ d, Names store p d) (unnamed : ¬ ∃ d, Names store path d) :
    (Bundle.load store (before ++ path :: after)).asked =
      before.filterMap Location.parse? ++ (Location.parse? path).toList ∧
    ∃ failure, (Bundle.load store (before ++ path :: after)).outcome = .error failure ∧
      Refuses store path failure := by
  classical
  have nonempty : before ++ path :: after ≠ [] := by simp
  obtain ⟨next, split, -⟩ := load_bind_eq store nonempty
  obtain ⟨failure, failed, refuses⟩ := exists_refuses unnamed
  have made : ∀ p ∈ before, ∃ d, (Resolver.load store p).outcome = .ok d := fun p listed => by
    simpa only [Resolver.outcome_load_eq_ok_iff] using named p listed
  have stopped := Loading.outcome_mapM_of_error made failed after
  have reads := Loading.asked_mapM_eq (f := Resolver.load store) (fun p => ¬ ∃ d, Names store p d)
    (fun p => by simp only [not_not, Resolver.outcome_load_eq_ok_iff]) (before ++ path :: after)
  rw [upTo_append_cons (fun p listed => not_not.2 (named p listed)) unnamed] at reads
  simp only [asked_load_eq] at reads
  constructor
  · rw [split, Loading.asked_bind, stopped, reads, List.flatMap_append, List.flatMap_singleton,
      List.append_nil, List.filterMap_eq_flatMap_toList]
  · exact ⟨failure, by rw [split, Loading.outcome_bind, stopped], refuses⟩

/-! ## References -/

instance (store : Store) (base : Location) : DecidablePred (Part.Leads store base) := fun part =>
  decidable_of_iff ((rewritePart store base part).outcome.isOk = true) (by
    simp only [isOk_iff, Part.outcome_rewritePart_eq_ok_iff, exists_and_left, exists_eq, and_true])

instance (store : Store) : DecidablePred (Scans store) := fun d =>
  decidable_of_iff ((process store {} d).outcome.isOk = true) (by
    simp only [isOk_iff, outcome_process_eq_ok_iff, exists_and_left, exists_eq, and_true])

/-- What is read for the references of a document: these are looked for in order, up to the first
    that has to lead somewhere and does not. -/
def askedOf (store : Store) (d : Resource) : List Location :=
  (upTo (fun part => ¬ part.Leads store d.location) (Outline.of d.content).parts).flatMap
    (Part.asked store d.location)

theorem asked_rewrite_eq (store : Store) (d : Resource) :
    (rewrite store d).asked = askedOf store d := by
  have reads := Loading.asked_mapM_eq (f := rewritePart store d.location)
    (fun part => ¬ part.Leads store d.location)
    (fun part => by
      simp only [not_not, Part.outcome_rewritePart_eq_ok_iff, exists_and_left, exists_eq, and_true])
    (Outline.of d.content).parts
  simp only [Part.asked_rewritePart] at reads
  rw [rewrite, Loading.asked_bind, reads, askedOf]
  cases Loading.outcome ((Outline.of d.content).parts.mapM (rewritePart store d.location)) with
  | error failure => exact List.append_nil _
  | ok parts => cases (Outline.of d.content).targetNamespace <;> exact List.append_nil _

theorem asked_process_eq (closure : Closure) (d : Resource) :
    (process store closure d).asked = askedOf store d := by
  rw [process, Loading.asked_bind, asked_rewrite_eq]
  cases (rewrite store d).outcome with
  | error failure => exact List.append_nil _
  | ok rewritten =>
    simp only [Loading.asked_bind, Loading.asked_liftExcept, Loading.asked_pure]
    split <;> simp

/-- The references of documents are looked for document by document, up to the first document that
    does not scan. -/
theorem asked_foldlM_process_eq (ds : List Resource) (closure : Closure) :
    (ds.foldlM (process store) closure).asked =
      (upTo (fun d => ¬ Scans store d) ds).flatMap (askedOf store) := by
  induction ds generalizing closure with
  | nil => rfl
  | cons d ds ih =>
    rw [List.foldlM_cons, upTo]
    by_cases scans : Scans store d
    · have made := (outcome_process_eq_ok_iff closure _ d).2 ⟨scans, rfl⟩
      rw [Loading.asked_bind_of_ok made, asked_process_eq, ih, if_neg (not_not.2 scans),
        List.flatMap_cons]
    · rw [Loading.asked_bind, asked_process_eq, if_pos scans, List.flatMap_singleton]
      cases made : (process store closure d).outcome with
      | error failure => exact List.append_nil _
      | ok closure' => exact absurd ((outcome_process_eq_ok_iff closure closure' d).1 made).1 scans

theorem asked_expand_eq (closure : Closure) (f : Frontier) :
    (expand store closure f).asked =
      (upTo (fun d => ¬ Scans store d) (f.order store)).flatMap (askedOf store) := by
  rw [expand_eq_foldlM, asked_foldlM_process_eq]

/-- All members are read before any reference is looked for, in the order of their paths and as
    often as they are listed. The first path that names no document ends the reading, and is named
    in the failure. If all name documents, the references follow in the order of the documents,
    breadth first, and within a document in their own order; a document that cannot be stored is
    the last, and there is no more in it than up to a reference that leads nowhere but has to. -/
theorem load_reads (store : Store) {paths : List String} (nonempty : paths ≠ []) :
    (∀ before path after, paths = before ++ path :: after →
      (∀ p ∈ before, ∃ d, Names store p d) → (¬ ∃ d, Names store path d) →
        (Bundle.load store paths).asked =
          before.filterMap Location.parse? ++ (Location.parse? path).toList ∧
        ∃ failure, (Bundle.load store paths).outcome = .error failure ∧
          Refuses store path failure) ∧
    ∀ loaded, List.Forall₂ (Names store) paths loaded →
      ∃ order, IsBreadthFirst store loaded order ∧
        (Bundle.load store paths).asked = paths.filterMap Location.parse? ++
          (upTo (fun d => ¬ Scans store d) order).flatMap fun d =>
            (upTo (fun part => ¬ part.Leads store d.location) (Outline.of d.content).parts).flatMap
              (Part.asked store d.location) := by
  constructor
  · rintro before path after rfl named unnamed
    exact asked_load_of_unnamed named unnamed
  · intro loaded members
    have isIn : ∀ r ∈ loaded, r.IsIn store := by
      intro r member
      obtain ⟨path, -, named⟩ := names_of_mem_loaded members member
      exact named.2
    refine ⟨_, isBreadthFirst_order isIn, ?_⟩
    obtain ⟨next, split, reads⟩ := load_bind_eq store nonempty
    have made := (outcome_mapM_load_eq_ok_iff store paths loaded).2 members
    rw [split, Loading.asked_bind_of_ok made, asked_mapM_load members, reads, asked_expand_eq]
    rfl

/-- A schema that includes one below a fallback directory. -/
def circularMember : Resource := ⟨⟨["r.xsd"], by decide, by decide⟩, includingSchema "b.xsd"⟩

/-- The schema that is included, which includes the first one beside it. -/
def circularPart : Resource :=
  ⟨⟨["ebxml", "b.xsd"], by decide, by decide⟩, includingSchema "../r.xsd"⟩

def circularStore : Store where
  documents := [circularMember, circularPart].map fun d => (d.location, d.content)
  distinct := by decide

/-- A member that is listed twice is read twice; then a path that climbs ends the reading, or the
    references follow, each with the places it is looked for at. -/
theorem load_reads_circularStore :
    ((Bundle.load circularStore ["r.xsd", "./r.xsd", "../r.xsd", "c.xsd"]).asked.map Location.text =
        ["r.xsd", "r.xsd"] ∧
      ∃ failure, (Bundle.load circularStore ["r.xsd", "./r.xsd", "../r.xsd", "c.xsd"]).outcome =
        .error failure ∧ Refuses circularStore "../r.xsd" failure) ∧
    ∃ order, IsBreadthFirst circularStore [circularMember, circularMember] order ∧
      (Bundle.load circularStore ["r.xsd", "/r.xsd"]).asked =
        ["r.xsd", "/r.xsd"].filterMap Location.parse? ++
          (upTo (fun d => ¬ Scans circularStore d) order).flatMap (askedOf circularStore) ∧
      (Bundle.load circularStore ["r.xsd", "/r.xsd"]).asked.map Location.text =
        ["r.xsd", "r.xsd", "b.xsd", "ebxml/b.xsd", "r.xsd"] := by
  have named (path : String) (parsed : Location.parse? path = some circularMember.location) :
      Names circularStore path circularMember := ⟨parsed, by decide +kernel⟩
  have first := named "r.xsd" (by decide +kernel)
  constructor
  · have second := named "./r.xsd" (by decide +kernel)
    have third : ¬ ∃ d, Names circularStore "../r.xsd" d := by
      rintro ⟨d, parsed, -⟩
      have climbs : Location.parse? "../r.xsd" = none := by decide +kernel
      simp [climbs] at parsed
    obtain ⟨reads, failure, failed, refuses⟩ :=
      (load_reads circularStore (by simp)).1 ["r.xsd", "./r.xsd"] "../r.xsd" ["c.xsd"] rfl
        (by simpa using ⟨⟨_, first⟩, _, second⟩) third
    rw [List.cons_append, List.singleton_append] at reads failed
    exact ⟨by rw [reads]; decide +kernel, failure, failed, refuses⟩
  · obtain ⟨order, breadthFirst, reads⟩ := (load_reads circularStore (by simp)).2 _
      (.cons first (.cons (named "/r.xsd" (by decide +kernel)) .nil))
    exact ⟨order, breadthFirst, reads, by decide +kernel⟩

end Schema
end MessageConformance
