import MessageConformance.Proofs.Cache.Histories
import MessageConformance.Proofs.Schema.Reads

/-!
# No read leaves the store

Whatever is read to find a member, to follow a reference, to load a group or to answer a request
of a cache, it is read at a location that some path leads to without climbing above the root at
any point (`reads_stay_inside`). That path is the one of a member, or a reference beside its
document or below a fallback directory.
-/

namespace MessageConformance

open Schema (Bundle IsTried)

theorem mem_asked_totalTrace {es : List Event} {l : Location} (asked : l ∈ (totalTrace es).asked) :
    ∃ e ∈ es, l ∈ e.trace.asked := by
  induction es with
  | nil => simp [totalTrace] at asked
  | cons e es ih =>
    have total : (totalTrace (e :: es)).asked = e.trace.asked ++ (totalTrace es).asked := rfl
    rw [total, List.mem_append] at asked
    obtain here | later := asked
    · exact ⟨e, List.mem_cons_self .., here⟩
    · obtain ⟨e', member, there⟩ := ih later
      exact ⟨e', List.mem_cons_of_mem e member, there⟩

/-- A lookup reads nothing but what loading its group reads. -/
theorem Event.asked_subset (e : Event) :
    e.trace.asked ⊆ (Bundle.load e.visit.store e.visit.paths).asked := by
  cases kept : e.cache.find? e.key with
  | some compiled =>
    rw [(hit kept).2.2]
    exact List.nil_subset _
  | none =>
    rw [(missed kept).2.2]
    exact List.Subset.refl _

/-- A request reads nothing but what may be tried for the groups that it looks up. -/
theorem Request.exists_tried_of_mem_asked {r : Request} {c : Cache} {l : Location}
    (asked : l ∈ (r.perform.trace c).asked) :
    ∃ v ∈ r.visits, ∃ path, IsTried v.store v.paths path ∧ Location.parse? path = some l := by
  rw [(r.comesDownTo c).trace] at asked
  obtain ⟨e, member, asked⟩ := mem_asked_totalTrace asked
  exact ⟨e.visit, visit_mem_of_mem_visitAll member,
    Schema.exists_tried_of_mem_asked (e.asked_subset asked)⟩

/-- All that is read of a store is read at locations inside it, to which a path leads that does
    not climb: for a member its own path, for a reference one of its candidate paths, for a group
    and for a request of a cache a path that may be tried for it. A path that climbs, even if it
    comes back down, leads nowhere. -/
theorem reads_stay_inside :
    (∀ path, Climbs path → Location.parse? path = none) ∧
    (∀ store path, ∀ l ∈ (Resolver.load store path).asked, Location.Enters path l) ∧
    (∀ store reference base,
      (Resolver.resolve store reference base).asked <+:
        (Resolver.candidatePaths reference base).filterMap Location.parse? ∧
      ∀ l ∈ (Resolver.resolve store reference base).asked,
        ∃ path ∈ Resolver.candidatePaths reference base, Location.Enters path l) ∧
    (∀ store paths, ∀ l ∈ (Bundle.load store paths).asked,
      ∃ path, IsTried store paths path ∧ Location.Enters path l) ∧
    (∀ (r : Request) c, ∀ l ∈ (r.perform.trace c).asked,
      ∃ v ∈ r.visits, ∃ path, IsTried v.store v.paths path ∧ Location.Enters path l) := by
  refine ⟨fun path => Location.parse?_of_climbs, ?_, ?_, ?_, ?_⟩
  · intro store path l asked
    exact Location.enters_of_parse? (Resolver.parse?_of_mem_asked_load asked)
  · intro store reference base
    refine ⟨Schema.asked_resolve_initial store reference base, fun l asked => ?_⟩
    obtain ⟨path, candidate, parsed⟩ := Schema.exists_candidate_of_mem_asked asked
    exact ⟨path, candidate, Location.enters_of_parse? parsed⟩
  · intro store paths l asked
    obtain ⟨path, tried, parsed⟩ := Schema.exists_tried_of_mem_asked asked
    exact ⟨path, tried, Location.enters_of_parse? parsed⟩
  · intro r c l asked
    obtain ⟨v, member, path, tried, parsed⟩ := Request.exists_tried_of_mem_asked asked
    exact ⟨v, member, path, tried, Location.enters_of_parse? parsed⟩

def topLocation : Location := ⟨["top.xsd"], by decide, by decide⟩

def otherLocation : Location := ⟨["other.xsd"], by decide, by decide⟩

/-- Two documents at the top of a store, of which the first includes the second one by a path that
    climbs. -/
def climbingStore : Store where
  documents :=
    [(topLocation, Schema.includingSchema "../other.xsd"),
      (otherLocation, Schema.includingSchema "top.xsd")]
  distinct := by decide

/-- Beside the document and at the top the path climbs and is not read. Below the first fallback
    directory it leads to the second document, which is read. -/
theorem climbingStore_stays_inside :
    (Climbs "../other.xsd" ∧ Location.parse? "../other.xsd" = none) ∧
    (topLocation ∈ (Resolver.load climbingStore "w3/../top.xsd").asked ∧
      Location.Enters "w3/../top.xsd" topLocation) ∧
    (otherLocation ∈ (Resolver.resolve climbingStore "../other.xsd" (some topLocation)).asked ∧
      ∃ path ∈ Resolver.candidatePaths "../other.xsd" (some topLocation),
        Location.Enters path otherLocation) ∧
    (otherLocation ∈ (Bundle.load climbingStore ["top.xsd"]).asked ∧
      ∃ path, IsTried climbingStore ["top.xsd"] path ∧ Location.Enters path otherLocation) ∧
    (otherLocation ∈
        ((Request.getPaths ⟨.unavailable, climbingStore⟩ ["top.xsd"]).perform.trace .empty).asked ∧
      ∃ v ∈ (Request.getPaths ⟨.unavailable, climbingStore⟩ ["top.xsd"]).visits,
        ∃ path, IsTried v.store v.paths path ∧ Location.Enters path otherLocation) := by
  obtain ⟨climbing, load, resolve, group, request⟩ := reads_stay_inside
  have climbs : Climbs "../other.xsd" := ⟨[".."], by decide, by decide⟩
  have loaded : topLocation ∈ (Resolver.load climbingStore "w3/../top.xsd").asked := by
    decide +kernel
  have resolved : otherLocation ∈
      (Resolver.resolve climbingStore "../other.xsd" (some topLocation)).asked := by decide +kernel
  have grouped : otherLocation ∈ (Bundle.load climbingStore ["top.xsd"]).asked := by decide +kernel
  have requested : otherLocation ∈ ((Request.getPaths ⟨.unavailable, climbingStore⟩
      ["top.xsd"]).perform.trace .empty).asked := by decide +kernel
  exact ⟨⟨climbs, climbing _ climbs⟩, ⟨loaded, load _ _ _ loaded⟩,
    ⟨resolved, (resolve _ _ _).2 _ resolved⟩, ⟨grouped, group _ _ _ grouped⟩,
    ⟨requested, request _ _ _ requested⟩⟩

end MessageConformance
