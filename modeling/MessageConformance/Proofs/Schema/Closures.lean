import MessageConformance.Proofs.Schema.Worklists
import MessageConformance.Proofs.Store.Resolution

/-!
# Closures of schemas

`InClosure` is the least set of locations that contains the members of a group and all that the
documents in it refer to. Whatever the references look like, cycles included, the documents that
are rewritten are those of the closure, each once (`mem_order_iff_inClosure`,
`nodup_order_start`).
-/

namespace MessageConformance.Schema

open Resolver (Resolves Names)

variable {store : Store} {paths : List String} {loaded : List Resource}

/-- A location belongs to a group of schemas: it is that of a member, or a document of the group
    refers to it. -/
inductive InClosure (store : Store) (paths : List String) : Location → Prop
  | member {path : String} {l : Location} (listed : path ∈ paths)
      (parsed : Location.parse? path = some l) : InClosure store paths l
  | referred {base l : Location} {content : Bytes} {r : Reference}
      (inside : InClosure store paths base) (read : store.document? base = some content)
      (refers : Part.reference r ∈ (Outline.of content).parts)
      (resolves : Resolves store base r.target l) : InClosure store paths l

theorem mem_discovered_iff (store : Store) (d found : Resource) :
    found ∈ discovered store d ↔
      ∃ r, Part.reference r ∈ (Outline.of d.content).parts ∧
        Resolves store d.location r.target found.location ∧ found.IsIn store := by
  rw [discovered, List.mem_filterMap]
  constructor
  · rintro ⟨part, member, leads⟩
    cases part with
    | copied token => simp [Part.found?] at leads
    | reference r =>
      exact ⟨r, member, (Resolver.value_resolve_eq_some_iff store d.location r.target found).1 leads⟩
  · rintro ⟨r, member, leads⟩
    exact ⟨.reference r, member,
      (Resolver.value_resolve_eq_some_iff store d.location r.target found).2 leads⟩

/-! ## The start -/

/-- The members wait, and all else in the store is unseen. -/
def start (store : Store) (loaded : List Resource) : Frontier :=
  Frontier.meetAll ⟨store.documents.map (·.1), []⟩ loaded

theorem mem_places_start (store : Store) (loaded : List Resource) (l : Location) :
    l ∈ (start store loaded).places ↔ l ∈ store.documents.map (·.1) := by
  rw [start, (Frontier.places_meetAll _ loaded).mem_iff]
  simp [Frontier.places]

theorem nodup_places_start (store : Store) (loaded : List Resource) :
    (start store loaded).places.Nodup := by
  rw [start, (Frontier.places_meetAll _ loaded).nodup_iff]
  simpa [Frontier.places] using store.distinct

theorem nodup_order_start (store : Store) (loaded : List Resource) :
    ((Frontier.order store (start store loaded)).map (·.location)).Nodup :=
  (Frontier.nodup_order (nodup_places_start store loaded)).1

/-- No more documents are rewritten than the store has. -/
theorem length_order_le (store : Store) (loaded : List Resource) :
    (Frontier.order store (start store loaded)).length ≤ store.size := by
  have within : (Frontier.order store (start store loaded)).map (·.location) ⊆
      store.documents.map (·.1) := fun l member =>
    (mem_places_start store loaded l).1
      ((Frontier.nodup_order (nodup_places_start store loaded)).2 l member)
  simpa [Store.size] using (nodup_order_start store loaded).length_le_of_subset within

/-! ## Members -/

theorem names_of_mem_loaded (members : List.Forall₂ (Names store) paths loaded) {r : Resource}
    (member : r ∈ loaded) : ∃ path ∈ paths, Names store path r := by
  induction members with
  | nil => simp at member
  | @cons path first paths loaded named _ ih =>
    obtain rfl | member := List.mem_cons.1 member
    · exact ⟨path, List.mem_cons_self .., named⟩
    · obtain ⟨path', listed, named⟩ := ih member
      exact ⟨path', List.mem_cons_of_mem path listed, named⟩

/-- The members are the locations that the paths name, in the order of their first occurrences. -/
theorem map_queue_start (members : List.Forall₂ (Names store) paths loaded) :
    (start store loaded).queue.map (·.location) =
      (paths.filterMap Location.parse?).eraseDups := by
  have named : loaded.map (·.location) = paths.filterMap Location.parse? := by
    induction members with
    | nil => rfl
    | cons first _ ih => simp [first.1, ih]
  have stored : ∀ l ∈ loaded.map (·.location), l ∈ store.documents.map (·.1) := by
    intro l listed
    obtain ⟨r, member, rfl⟩ := List.mem_map.1 listed
    obtain ⟨path, -, named⟩ := names_of_mem_loaded members member
    exact Store.mem_documents_of_document? named.2
  rw [start, Frontier.map_queue_meetAll loaded store.distinct, ← named]
  simp [List.filter_eq_self.2 fun l member => decide_eq_true (stored l member)]

/-- The documents that are rewritten are documents of the store, and of the closure. -/
theorem inClosure_of_mem_order (members : List.Forall₂ (Names store) paths loaded) {d : Resource}
    (rewritten : d ∈ Frontier.order store (start store loaded)) :
    d.IsIn store ∧ InClosure store paths d.location := by
  suffices all : ∀ d ∈ Frontier.order store (start store loaded),
      d.IsIn store ∧ InClosure store paths d.location from all d rewritten
  apply Frontier.of_mem_order
  · rintro d ⟨isIn, inside⟩ r found
    obtain ⟨reference, refers, resolves, found⟩ := (mem_discovered_iff store d r).1 found
    exact ⟨found, .referred inside isIn refers resolves⟩
  · intro d waits
    obtain waits | met := Frontier.mem_queue_or_met _ loaded waits
    · simp at waits
    · obtain ⟨path, listed, named⟩ := names_of_mem_loaded members met
      exact ⟨named.2, .member listed named.1⟩

/-- The documents that are rewritten are those of the closure. -/
theorem mem_order_iff_inClosure (members : List.Forall₂ (Names store) paths loaded)
    (l : Location) :
    l ∈ (Frontier.order store (start store loaded)).map (·.location) ↔
      InClosure store paths l := by
  constructor
  · intro member
    obtain ⟨d, rewritten, rfl⟩ := List.mem_map.1 member
    exact (inClosure_of_mem_order members rewritten).2
  · intro inside
    induction inside with
    | @member path l listed parsed =>
      have waits : l ∈ (start store loaded).queue.map (·.location) := by
        rw [map_queue_start members, List.mem_eraseDups]
        exact List.mem_filterMap.2 ⟨path, listed, parsed⟩
      obtain ⟨d, waiting, rfl⟩ := List.mem_map.1 waits
      exact List.mem_map_of_mem (Frontier.mem_order_of_mem_queue waiting)
    | @referred base l content r inside read refers resolves ih =>
      obtain ⟨d, rewritten, rfl⟩ := List.mem_map.1 ih
      have isIn := (inClosure_of_mem_order members rewritten).1
      obtain rfl : content = d.content := Option.some.inj (read.symm.trans isIn)
      obtain ⟨content, here⟩ := Option.isSome_iff_exists.1 resolves.1
      have found : ⟨l, content⟩ ∈ discovered store d :=
        (mem_discovered_iff store d _).2 ⟨r, refers, resolves, here⟩
      have place := (mem_places_start store loaded l).2 (Store.mem_documents_of_document? here)
      exact Frontier.mem_order_of_discovered rewritten found place

theorem mem_order_start_iff (members : List.Forall₂ (Names store) paths loaded) (d : Resource) :
    d ∈ Frontier.order store (start store loaded) ↔
      d.IsIn store ∧ InClosure store paths d.location := by
  refine ⟨inClosure_of_mem_order members, ?_⟩
  rintro ⟨isIn, inside⟩
  obtain ⟨d', rewritten, same⟩ := List.mem_map.1 ((mem_order_iff_inClosure members _).2 inside)
  exact (inClosure_of_mem_order members rewritten).1.eq_of_location isIn same ▸ rewritten

end MessageConformance.Schema
