import MessageConformance.Proofs.Schema.Bundles

/-!
# Wrapper documents among loaded ones

Wrapper documents are put into a catalog after the documents of the closure, and what is put at a
location replaces what is there. So at each location a catalog holds the wrapper document that is
made there (`IsWrapper`), and without one the document of the closure (`Catalog.IsOf`): documents
are kept except where a wrapper document of another text is made at their location.
-/

namespace MessageConformance.Schema

open Bytes Resolver

variable {store : Store} {paths : List String} {loaded : List Resource}

/-! ## Members and their namespaces -/

/-- The members that some paths name, in the order of their first occurrences, with their target
    namespaces. -/
def namedMembers (store : Store) (paths : List String) : List (Location × Option String) :=
  (paths.filterMap Location.parse?).eraseDups.map fun l =>
    (l, (store.document? l).bind namespaceOf)

theorem members_start (members : List.Forall₂ (Names store) paths loaded) :
    (start store loaded).members = namedMembers store paths := by
  rw [namedMembers, ← map_queue_start members, Frontier.members, List.map_map]
  refine List.map_congr_left fun d waits => ?_
  obtain ⟨-, -, -, isIn⟩ := (mem_queue_start_iff members d).1 waits
  have read : store.document? d.location = some d.content := isIn
  simp [read]

/-- A wrapper document is made at a location: at the position that is in the name of the location a
    group is begun whose namespace has several members, and the document includes these. -/
def IsWrapper (store : Store) (paths : List String) (l : Location) (content : Bytes) : Prop :=
  ∃ n first uri, l = wrapperLocation n ∧
    (heads (namedMembers store paths))[n]? = some (first, some uri) ∧
    2 ≤ (membersOf uri (namedMembers store paths)).length ∧
    content = writeSchema (some uri) ((membersOf uri (namedMembers store paths)).map .includes)

theorem wrapper?_groupOf_eq_some_iff {members : List (Location × Option String)}
    {head : Location × Option String} (listed : head ∈ members) (content : Bytes) :
    (groupOf members head).wrapper? = some content ↔
      ∃ uri, head.2 = some uri ∧ 2 ≤ (membersOf uri members).length ∧
        content = writeSchema (some uri) ((membersOf uri members).map .includes) := by
  obtain ⟨l, _ | uri⟩ := head
  · simp [groupOf, Group.wrapper?]
  · have inhabited : 0 < (membersOf uri members).length :=
      List.length_pos_of_mem (mem_membersOf_iff.2 listed)
    have several : (membersOf uri members).length ≠ 1 ↔ 2 ≤ (membersOf uri members).length := by
      omega
    simp [Group.wrapper?_eq_some_iff, groupOf, several]

theorem wrapperAt?_namedMembers_eq_some_iff (l : Location) (content : Bytes) :
    wrapperAt? l 0 (groupsOf (namedMembers store paths)) = some content ↔
      IsWrapper store paths l content := by
  rw [wrapperAt?_eq_some_iff, groupsOf_eq_map_heads]
  simp only [Nat.zero_add, List.getElem?_map, Option.map_eq_some_iff]
  constructor
  · rintro ⟨n, _, place, ⟨⟨first, targetNamespace⟩, begins, rfl⟩, wrapped⟩
    obtain ⟨uri, same, rest⟩ := (wrapper?_groupOf_eq_some_iff (mem_of_begins begins) content).1 wrapped
    exact ⟨n, first, uri, place, by rw [begins, ← same], rest⟩
  · rintro ⟨n, first, uri, place, begins, rest⟩
    refine ⟨n, _, place, ⟨_, begins, rfl⟩, ?_⟩
    exact (wrapper?_groupOf_eq_some_iff (mem_of_begins begins) content).2 ⟨uri, rfl, rest⟩

/-! ## Catalogs -/

/-- A catalog is that of a group. At each location it holds the wrapper document that is made there,
    and without one what is stored of the document of the closure. So a document of the closure is
    kept exactly if no wrapper document of another text is made at its location. -/
structure Catalog.IsOf (catalog : Catalog) (store : Store) (paths : List String) : Prop where
  holds : ∀ l content, catalog.document? l = some content ↔
    IsWrapper store paths l content ∨
      (∀ wrapper, ¬ IsWrapper store paths l wrapper) ∧
        ∃ d : Resource, d.location = l ∧ d.IsIn store ∧ InClosure store paths l ∧
          content = stored store d
  keeps : ∀ d : Resource, d.IsIn store → InClosure store paths d.location →
    (catalog.document? d.location = some (stored store d) ↔
      ∀ wrapper, IsWrapper store paths d.location wrapper → wrapper = stored store d)

theorem document?_load {bundle : Bundle} (made : (Bundle.load store paths).outcome = .ok bundle)
    (l : Location) (content : Bytes) :
    bundle.catalog.document? l = some content ↔
      IsWrapper store paths l content ∨
        (∀ wrapper, ¬ IsWrapper store paths l wrapper) ∧
          ∃ d : Resource, d.location = l ∧ d.IsIn store ∧ InClosure store paths l ∧
            content = stored store d := by
  obtain ⟨-, loaded, members, -, -, rfl⟩ := (outcome_load_eq_ok_iff store paths bundle).1 made
  have unwrapped : wrapperAt? l 0 (groupsOf (namedMembers store paths)) = none ↔
      ∀ wrapper, ¬ IsWrapper store paths l wrapper := by
    rw [Option.eq_none_iff_forall_ne_some]
    simp only [Ne, wrapperAt?_namedMembers_eq_some_iff]
  rw [Bundle.of, members_start members, Catalog.document?_withWrappers_eq_or, Option.or_eq_some_iff,
    wrapperAt?_namedMembers_eq_some_iff, unwrapped, document?_order_start_eq_some_iff members]

/-- The catalog of a group is that of its wrapper documents and of its closure. -/
theorem isOf_load (store : Store) (paths : List String) {bundle : Bundle}
    (made : (Bundle.load store paths).outcome = .ok bundle) :
    bundle.catalog.IsOf store paths := by
  refine ⟨document?_load made, fun d isIn inside => ?_⟩
  constructor
  · intro kept wrapper here
    have found := (document?_load made d.location wrapper).2 (.inl here)
    exact Option.some.inj (found.symm.trans kept)
  · intro same
    refine (document?_load made d.location _).2 ?_
    by_cases wrapped : ∃ wrapper, IsWrapper store paths d.location wrapper
    · obtain ⟨wrapper, here⟩ := wrapped
      exact .inl (same wrapper here ▸ here)
    · exact .inr ⟨not_exists.1 wrapped, d, rfl, isIn, inside, rfl⟩

/-! ## Two members, one of them numbered -/

/-- Two documents of one namespace, of which the first has the location of a wrapper document. -/
def numberedStore (position : Nat) : Store where
  documents :=
    [(wrapperLocation position, sharedSchema), (plainDocument.location, sharedSchema)]
  distinct := by simp [wrapperLocation, plainDocument]

/-- The paths of both documents. -/
def numberedPaths (position : Nat) : List String := [wrapperPath position, "b.xsd"]

/-- The document at the location of a wrapper document. -/
def numberedDocument (position : Nat) : Resource := ⟨wrapperLocation position, sharedSchema⟩

/-- The wrapper document of the two is made at position 0, so the document numbered 1 is kept. -/
theorem isOf_numberedStore :
    ∃ bundle, (Bundle.load (numberedStore 1) (numberedPaths 1)).outcome = .ok bundle ∧
      bundle.catalog.IsOf (numberedStore 1) (numberedPaths 1) ∧
      bundle.catalog.document? (wrapperLocation 1) =
        some (stored (numberedStore 1) (numberedDocument 1)) := by
  have loads : (Bundle.load (numberedStore 1) (numberedPaths 1)).outcome.map
      (·.catalog.document? (wrapperLocation 1)) =
        .ok (some (stored (numberedStore 1) (numberedDocument 1))) := by decide +kernel
  obtain ⟨bundle, made, kept⟩ := map_eq_ok_iff.1 loads
  exact ⟨bundle, made, isOf_load _ _ made, kept⟩

/-- The document numbered 0 is a member, but the wrapper document is found in its place. -/
theorem displaces_document :
    ∃ bundle, (Bundle.load (numberedStore 0) (numberedPaths 0)).outcome = .ok bundle ∧
      (numberedDocument 0).IsIn (numberedStore 0) ∧
      InClosure (numberedStore 0) (numberedPaths 0) (wrapperLocation 0) ∧
      bundle.catalog.document? (wrapperLocation 0) =
        some (writeSchema (some "u")
          [.includes (wrapperLocation 0), .includes plainDocument.location]) ∧
      bundle.catalog.document? (wrapperLocation 0) ≠
        some (stored (numberedStore 0) (numberedDocument 0)) := by
  have loads : (Bundle.load (numberedStore 0) (numberedPaths 0)).outcome.map
      (·.catalog.document? (wrapperLocation 0)) =
        .ok (some (writeSchema (some "u")
          [.includes (wrapperLocation 0), .includes plainDocument.location])) := by decide +kernel
  have differs : writeSchema (some "u")
        [.includes (wrapperLocation 0), .includes plainDocument.location] ≠
      stored (numberedStore 0) (numberedDocument 0) := by decide +kernel
  obtain ⟨bundle, made, wrapper⟩ := map_eq_ok_iff.1 loads
  refine ⟨bundle, made, by decide +kernel, ?_, wrapper, ?_⟩
  · exact .member (List.mem_cons_self ..) (parse?_wrapperPath 0)
  · rw [wrapper]
    exact fun same => differs (Option.some.inj same)

end MessageConformance.Schema
