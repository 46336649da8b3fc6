import MessageConformance.Proofs.Schema.Drivers
import MessageConformance.Proofs.Schema.NulFree

/-!
# Loading bundles

A bundle is loaded in three steps: the members are read, the documents of their closure are
stored, and the driver is built (`outcome_load_eq_ok_iff`). Reading goes from the members to the
references of each document, once each (`asked_load`). `Loads` says for which paths there is a
bundle, `IsLoaded` what it then holds; `load_closure` is that both are exact.
-/

namespace MessageConformance.Schema

open Bytes Resolver

variable {store : Store} {paths : List String} {loaded : List Resource}

/-! ## The steps -/

/-- The members to begin with and their target namespaces. -/
def Frontier.members (f : Frontier) : List (Location × Option String) :=
  f.queue.map fun d => (d.location, namespaceOf d.content)

/-- The bundle that is made of members that were read. -/
def Bundle.of (store : Store) (loaded : List Resource) : Bundle :=
  let f := start store loaded
  { driver := writeSchema none (linksOf 0 (groupsOf f.members))
    catalog := Catalog.withWrappers ⟨(f.order store).map fun d => (d.location, stored store d)⟩ 0
      (groupsOf f.members)
    members := f.queue.map (·.location) }

theorem map_lookup_start (store : Store) (loaded : List Resource) :
    ((start store loaded).queue.map (·.location)).map (fun l => (l,
        ((((start store loaded).order store).map
          fun d => (d.location, namespaceOf d.content)).lookup l).join)) =
      (start store loaded).members := by
  rw [Frontier.members, List.map_map]
  refine List.map_congr_left fun d waits => ?_
  have found := (Store.lookup_map_eq_some_iff (fun d => namespaceOf d.content)
    (nodup_order_start store loaded) d.location _).2
    ⟨d, Frontier.mem_order_of_mem_queue waits, rfl, rfl⟩
  simp [found]

theorem outcome_mapM_load_eq_ok_iff (store : Store) (paths : List String)
    (loaded : List Resource) :
    Loading.outcome (paths.mapM (Resolver.load store)) = .ok loaded ↔
      List.Forall₂ (Names store) paths loaded := by
  rw [Loading.outcome_mapM_eq_ok_iff]
  simp only [Resolver.outcome_load_eq_ok_iff]

theorem load_eq (store : Store) (nonempty : paths ≠ []) :
    Bundle.load store paths = (do
      let loaded ← paths.mapM (Resolver.load store)
      let closure ← expand store {} (start store loaded)
      let members := (start store loaded).queue.map (·.location)
      let (catalog, driver) ← liftExcept (buildDriver closure.catalog
        (members.map fun member => (member, (closure.namespaces.lookup member).join)))
      return ⟨driver, catalog, members⟩) := by
  cases paths with
  | nil => simp at nonempty
  | cons path paths => rfl

/-- A bundle is loaded when there are members, all of them are read, the documents of their
    closure scan, and no wrapper document has a NUL byte. -/
theorem outcome_load_eq_ok_iff (store : Store) (paths : List String) (bundle : Bundle) :
    (Bundle.load store paths).outcome = .ok bundle ↔
      paths ≠ [] ∧ ∃ loaded, List.Forall₂ (Names store) paths loaded ∧
        (∀ d ∈ (start store loaded).order store, Scans store d) ∧
        (∀ group ∈ groupsOf (start store loaded).members, ∀ content,
          group.wrapper? = some content → 0 ∉ content) ∧
        bundle = Bundle.of store loaded := by
  by_cases nonempty : paths = []
  · subst nonempty
    simp [Bundle.load]
  · rw [load_eq store nonempty]
    simp only [Loading.outcome_bind_eq_ok_iff, outcome_mapM_load_eq_ok_iff,
      Loading.outcome_liftExcept, buildDriver_eq_ok_iff, Loading.outcome_pure]
    refine (and_iff_right nonempty).symm.trans (and_congr_right fun _ => exists_congr fun loaded => ?_)
    have expands (closure : Closure) :
        (expand store {} (start store loaded)).outcome = .ok closure ↔ _ :=
      outcome_expand_eq_ok_iff (nodup_places_start store loaded) closure
    simp only [and_congr_right_iff]
    intro members
    constructor
    · rintro ⟨closure, expanded, _, ⟨nulFree, rfl⟩, made⟩
      obtain ⟨scans, rfl⟩ := (expands closure).1 expanded
      rw [map_lookup_start] at nulFree made
      exact ⟨scans, nulFree, (Except.ok.inj made).symm⟩
    · rintro ⟨scans, nulFree, rfl⟩
      refine ⟨_, (expands _).2 ⟨scans, rfl⟩, _, ⟨?_, rfl⟩, ?_⟩
      · rwa [map_lookup_start]
      · rw [map_lookup_start]
        rfl

/-- The members of a bundle are the locations that the paths name, in the order of their first
    occurrences. -/
theorem members_of_load {bundle : Bundle} (made : (Bundle.load store paths).outcome = .ok bundle) :
    bundle.members = (paths.filterMap Location.parse?).eraseDups := by
  obtain ⟨-, loaded, members, -, -, rfl⟩ := (outcome_load_eq_ok_iff store paths bundle).1 made
  exact map_queue_start members

theorem asked_mapM_load {loaded : List Resource}
    (members : List.Forall₂ (Names store) paths loaded) :
    Loading.asked (paths.mapM (Resolver.load store)) = paths.filterMap Location.parse? := by
  rw [Loading.asked_mapM ((outcome_mapM_load_eq_ok_iff store paths loaded).2 members)]
  induction members with
  | nil => rfl
  | cons first _ ih => simp [Resolver.asked_load first.1, first.1, ih]

/-- The members are read first, and then the references of each document of their closure. -/
theorem asked_load (nonempty : paths ≠ []) (members : List.Forall₂ (Names store) paths loaded)
    (scans : ∀ d ∈ (start store loaded).order store, Scans store d) :
    (Bundle.load store paths).asked =
      paths.filterMap Location.parse? ++
        ((start store loaded).order store).flatMap (askedFor store) := by
  have expanded := (outcome_expand_eq_ok_iff (nodup_places_start store loaded) _).2 ⟨scans, rfl⟩
  rw [load_eq store nonempty,
    Loading.asked_bind_of_ok ((outcome_mapM_load_eq_ok_iff store _ loaded).2 members),
    asked_mapM_load members, Loading.asked_bind_of_ok expanded, asked_expand expanded,
    Loading.asked_bind]
  simp only [Loading.asked_liftExcept, Loading.outcome_liftExcept, Loading.asked_pure]
  split <;> simp

/-! ## Members -/

/-- A document is one of the members of a group. -/
def IsMember (store : Store) (paths : List String) (d : Resource) : Prop :=
  ∃ path ∈ paths, Names store path d

/-- Two documents at different locations have one target namespace. -/
def SharesNamespace (d e : Resource) : Prop :=
  d.location ≠ e.location ∧
    ∃ uri, namespaceOf d.content = some uri ∧ namespaceOf e.content = some uri

theorem mem_queue_start_iff (members : List.Forall₂ (Names store) paths loaded) (d : Resource) :
    d ∈ (start store loaded).queue ↔ IsMember store paths d := by
  have named : ∀ d ∈ (start store loaded).queue, IsMember store paths d := by
    intro d waits
    obtain waits | met := Frontier.mem_queue_or_met _ loaded waits
    · simp at waits
    · exact names_of_mem_loaded members met
  refine ⟨named d, ?_⟩
  rintro ⟨path, listed, parsed, isIn⟩
  have place : d.location ∈ (start store loaded).queue.map (·.location) := by
    rw [map_queue_start members, List.mem_eraseDups]
    exact List.mem_filterMap.2 ⟨path, listed, parsed⟩
  obtain ⟨d', waits, same⟩ := List.mem_map.1 place
  obtain ⟨-, -, -, isIn'⟩ := named d' waits
  exact isIn'.eq_of_location isIn same ▸ waits

theorem mem_membersOf_start_iff (members : List.Forall₂ (Names store) paths loaded) (uri : String)
    (l : Location) :
    l ∈ membersOf uri (start store loaded).members ↔
      ∃ d, IsMember store paths d ∧ namespaceOf d.content = some uri ∧ d.location = l := by
  simp only [membersOf, Frontier.members, List.filter_map, List.map_map, List.mem_map,
    List.mem_filter, mem_queue_start_iff members, Function.comp_apply, decide_eq_true_eq, and_assoc]

theorem nodup_members_start (store : Store) (loaded : List Resource) :
    ((start store loaded).members.map (·.1)).Nodup := by
  rw [Frontier.members, List.map_map]
  exact (List.nodup_append.1 (nodup_places_start store loaded)).2.1

theorem nodup_membersOf_start (store : Store) (loaded : List Resource) (uri : String) :
    (membersOf uri (start store loaded).members).Nodup :=
  (nodup_members_start store loaded).sublist (List.filter_sublist.map _)

/-- Where a namespace has several members, each of them shares it with another. -/
theorem exists_sharesNamespace (members : List.Forall₂ (Names store) paths loaded) {uri : String}
    {m : Location} (member : m ∈ membersOf uri (start store loaded).members)
    (several : 2 ≤ (membersOf uri (start store loaded).members).length) :
    ∃ d e, IsMember store paths d ∧ IsMember store paths e ∧ SharesNamespace d e ∧ d.location = m := by
  have listed := mem_membersOf_start_iff members uri
  have notOne : membersOf uri (start store loaded).members ≠ [m] := by
    intro one
    simp [one] at several
  obtain none | ⟨m', member', other⟩ :=
    ((nodup_membersOf_start store loaded uri).ne_singleton_iff m).1 notOne
  · simp [none] at several
  · obtain ⟨d, first, target, rfl⟩ := (listed m).1 member
    obtain ⟨e, second, target', rfl⟩ := (listed m').1 member'
    exact ⟨d, e, first, second, ⟨other.symm, uri, target, target'⟩, rfl⟩

/-- Wrapper documents are made where members share a namespace. They have no NUL byte when no
    such member has a NUL in its location. -/
theorem wrappers_nulFree_iff_of_scans (members : List.Forall₂ (Names store) paths loaded)
    (scans : ∀ d, IsMember store paths d → Scans store d) :
    (∀ group ∈ groupsOf (start store loaded).members, ∀ content,
      group.wrapper? = some content → 0 ∉ content) ↔
    ∀ d e, IsMember store paths d → IsMember store paths e → SharesNamespace d e →
      '\x00' ∉ d.location.text.toList := by
  have listed := mem_membersOf_start_iff members
  rw [wrappers_nulFree_iff]
  constructor
  · rintro nulFree d e first second ⟨other, uri, target, target'⟩
    have left := (listed uri d.location).2 ⟨d, first, target, rfl⟩
    have right := (listed uri e.location).2 ⟨e, second, target', rfl⟩
    have both : [d.location, e.location] ⊆ membersOf uri (start store loaded).members := by
      simp [left, right]
    have several := List.Nodup.length_le_of_subset (by simpa using other) both
    exact (nulFree uri several).2 d.location left
  · intro nulFree uri several
    constructor
    · obtain ⟨m, member⟩ := List.exists_mem_of_length_pos (Nat.lt_of_lt_of_le Nat.two_pos several)
      obtain ⟨d, isMember, target, -⟩ := (listed uri m).1 member
      exact nul_not_mem_namespaceOf (scans d isMember) target
    · intro m member
      obtain ⟨d, e, first, second, shares, rfl⟩ := exists_sharesNamespace members member several
      exact nulFree d e first second shares

/-! ## Groups that can be loaded -/

/-- A group of schemas can be loaded: it has members, every path names one, the documents of the
    closure scan, and where members share a namespace there is no NUL in their locations. -/
structure Loads (store : Store) (paths : List String) : Prop where
  nonempty : paths ≠ []
  named : ∀ path ∈ paths, ∃ d, Names store path d
  scans : ∀ d : Resource, d.IsIn store → InClosure store paths d.location → Scans store d
  nulFree : ∀ d e, IsMember store paths d → IsMember store paths e → SharesNamespace d e →
    '\x00' ∉ d.location.text.toList

/-- What is loaded of a group, given the locations that are read: the members are the locations
    that the paths name, each once; after the members the references of each document of the
    closure are looked for once, and no more documents are gone through than the store has; and
    the documents of the closure are in the catalog, and apart from wrappers no others. -/
structure IsLoaded (store : Store) (paths : List String) (bundle : Bundle)
    (asked : List Location) : Prop where
  members : bundle.members = (paths.filterMap Location.parse?).eraseDups
  asked : ∃ order : List Resource, (order.map (·.location)).Nodup ∧
    (∀ d, d ∈ order ↔ d.IsIn store ∧ InClosure store paths d.location) ∧
    order.length ≤ store.size ∧
    asked = paths.filterMap Location.parse? ++ order.flatMap (askedFor store)
  catalog : ∀ l, (∀ n, l ≠ wrapperLocation n) → ∀ content,
    bundle.catalog.document? l = some content ↔
      ∃ d : Resource, d.location = l ∧ d.IsIn store ∧ InClosure store paths l ∧
        content = stored store d

theorem exists_loaded_iff (store : Store) (paths : List String) :
    (∃ loaded, List.Forall₂ (Names store) paths loaded) ↔ ∀ path ∈ paths, ∃ d, Names store path d := by
  induction paths with
  | nil => simp
  | cons path paths ih =>
    rw [List.forall_mem_cons, ← ih]
    constructor
    · rintro ⟨_, members⟩
      cases members with
      | @cons _ d _ loaded here later => exact ⟨⟨d, here⟩, loaded, later⟩
    · rintro ⟨⟨d, here⟩, loaded, later⟩
      exact ⟨d :: loaded, .cons here later⟩

theorem IsMember.inClosure {d : Resource} (isMember : IsMember store paths d) :
    d.IsIn store ∧ InClosure store paths d.location := by
  obtain ⟨path, listed, parsed, isIn⟩ := isMember
  exact ⟨isIn, .member listed parsed⟩

/-- A bundle is loaded exactly for the groups that can be. -/
theorem load_succeeds_iff (store : Store) (paths : List String) :
    (∃ bundle, (Bundle.load store paths).outcome = .ok bundle) ↔ Loads store paths := by
  simp only [outcome_load_eq_ok_iff]
  constructor
  · rintro ⟨_, nonempty, loaded, members, scanned, nulFree, -⟩
    have scans (d : Resource) (isIn : d.IsIn store) (inside : InClosure store paths d.location) :
        Scans store d :=
      scanned d ((mem_order_start_iff members d).2 ⟨isIn, inside⟩)
    refine ⟨nonempty, (exists_loaded_iff store paths).1 ⟨loaded, members⟩, scans, ?_⟩
    refine (wrappers_nulFree_iff_of_scans members fun d isMember => ?_).1 nulFree
    exact scans d isMember.inClosure.1 isMember.inClosure.2
  · rintro ⟨nonempty, named, scans, nulFree⟩
    obtain ⟨loaded, members⟩ := (exists_loaded_iff store paths).2 named
    refine ⟨_, nonempty, loaded, members, fun d rewritten => ?_, ?_, rfl⟩
    · obtain ⟨isIn, inside⟩ := (mem_order_start_iff members d).1 rewritten
      exact scans d isIn inside
    · refine (wrappers_nulFree_iff_of_scans members fun d isMember => ?_).2 nulFree
      exact scans d isMember.inClosure.1 isMember.inClosure.2

/-- Before wrappers are made, a catalog holds the documents of the closure. -/
theorem document?_order_start_eq_some_iff (members : List.Forall₂ (Names store) paths loaded)
    (l : Location) (content : Bytes) :
    Catalog.document? ⟨((start store loaded).order store).map fun d => (d.location, stored store d)⟩
        l = some content ↔
      ∃ d : Resource, d.location = l ∧ d.IsIn store ∧ InClosure store paths l ∧
        content = stored store d := by
  rw [Catalog.document?,
    Store.lookup_map_eq_some_iff (stored store) (nodup_order_start store loaded)]
  simp only [mem_order_start_iff members]
  constructor
  · rintro ⟨d, ⟨isIn, inside⟩, rfl, rfl⟩
    exact ⟨d, rfl, isIn, inside, rfl⟩
  · rintro ⟨d, rfl, isIn, inside, rfl⟩
    exact ⟨d, ⟨isIn, inside⟩, rfl, rfl⟩

/-- A bundle that is made of the members that were read is complete. -/
theorem isLoaded_of (nonempty : paths ≠ []) (members : List.Forall₂ (Names store) paths loaded)
    (scans : ∀ d ∈ (start store loaded).order store, Scans store d) :
    IsLoaded store paths (Bundle.of store loaded) (Bundle.load store paths).asked := by
  refine ⟨map_queue_start members, ?_, ?_⟩
  · exact ⟨_, nodup_order_start store loaded, mem_order_start_iff members,
      length_order_le store loaded, asked_load nonempty members scans⟩
  · intro l other content
    rw [Bundle.of, Catalog.document?_withWrappers other]
    exact document?_order_start_eq_some_iff members l content

/-- A group is loaded exactly if it can be, and then completely. -/
theorem load_closure (store : Store) (paths : List String) :
    ((∃ bundle, (Bundle.load store paths).outcome = .ok bundle) ↔ Loads store paths) ∧
    ∀ bundle, (Bundle.load store paths).outcome = .ok bundle →
      IsLoaded store paths bundle (Bundle.load store paths).asked := by
  refine ⟨load_succeeds_iff store paths, fun bundle made => ?_⟩
  obtain ⟨nonempty, loaded, members, scans, -, rfl⟩ :=
    (outcome_load_eq_ok_iff store paths bundle).1 made
  exact isLoaded_of nonempty members scans

/-! ## Two groups -/

/-- A schema that includes another one. -/
def includingSchema (reference : String) : Bytes :=
  ascii "<xs:schema xmlns:xs=\"http://www.w3.org/2001/XMLSchema\"><xs:include schemaLocation=\"" ++
    ascii reference ++ ascii "\"/></xs:schema>"

/-- Two documents that include each other. -/
def mutualStore : Store where
  documents :=
    [(⟨["a.xsd"], by decide, by decide⟩, includingSchema "b.xsd"),
      (⟨["b.xsd"], by decide, by decide⟩, includingSchema "a.xsd")]
  distinct := by decide

/-- Documents that include each other are loaded. -/
theorem isLoaded_mutualStore :
    ∃ bundle, (Bundle.load mutualStore ["a.xsd"]).outcome = .ok bundle ∧
      IsLoaded mutualStore ["a.xsd"] bundle (Bundle.load mutualStore ["a.xsd"]).asked := by
  have succeeds : (Bundle.load mutualStore ["a.xsd"]).outcome.isOk = true := by decide +kernel
  cases made : (Bundle.load mutualStore ["a.xsd"]).outcome with
  | error cause => simp [made, Except.isOk, Except.toBool] at succeeds
  | ok bundle => exact ⟨bundle, rfl, (load_closure mutualStore ["a.xsd"]).2 bundle made⟩

/-- A schema that declares nothing. -/
def sharedSchema : Bytes :=
  ascii "<xs:schema xmlns:xs=\"http://www.w3.org/2001/XMLSchema\" targetNamespace=\"u\"/>"

/-- A document whose location has a NUL. -/
def nulDocument : Resource := ⟨⟨["a\x00.xsd"], by decide, by decide⟩, sharedSchema⟩

/-- A document of the same namespace. -/
def plainDocument : Resource := ⟨⟨["b.xsd"], by decide, by decide⟩, sharedSchema⟩

/-- The two documents that share a namespace. -/
def nulStore : Store where
  documents := [nulDocument, plainDocument].map fun d => (d.location, d.content)
  distinct := by decide

theorem scans_of_isIn_nulStore {d : Resource} (isIn : d.IsIn nulStore) : Scans nulStore d := by
  have scans {d : Resource} (processed : (process nulStore {} d).outcome.isOk = true) :
      Scans nulStore d := by
    cases made : (process nulStore {} d).outcome with
    | error cause => simp [made, Except.isOk, Except.toBool] at processed
    | ok closure => exact ((outcome_process_eq_ok_iff {} closure d).1 made).1
  have place : d.location = nulDocument.location ∨ d.location = plainDocument.location := by
    simpa [nulStore] using Store.mem_documents_of_document? isIn
  obtain nul | plain := place
  · obtain rfl := isIn.eq_of_location (by decide +kernel) nul
    exact scans (by decide +kernel)
  · obtain rfl := isIn.eq_of_location (by decide +kernel) plain
    exact scans (by decide +kernel)

/-- Documents that share a namespace are refused for a NUL in the location of one, though each of
    them scans. -/
theorem refuses_nulStore :
    ["a\x00.xsd", "b.xsd"] ≠ [] ∧
    (∀ path ∈ ["a\x00.xsd", "b.xsd"], ∃ d, Names nulStore path d) ∧
    (∀ d : Resource, d.IsIn nulStore →
      InClosure nulStore ["a\x00.xsd", "b.xsd"] d.location → Scans nulStore d) ∧
    (Bundle.load nulStore ["a\x00.xsd", "b.xsd"]).outcome =
      .error (.invalid ".bundle/0.xsd" "document contains a NUL byte") := by
  refine ⟨by simp, fun path listed => ?_, fun d isIn _ => scans_of_isIn_nulStore isIn,
    by decide +kernel⟩
  obtain rfl | listed := List.mem_cons.1 listed
  · exact ⟨nulDocument, by decide +kernel⟩
  · exact ⟨plainDocument, List.mem_singleton.1 listed ▸ by decide +kernel⟩

end MessageConformance.Schema
