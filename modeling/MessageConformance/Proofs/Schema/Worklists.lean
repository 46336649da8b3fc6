import MessageConformance.Schema.Bundle
import Mathlib.Data.List.Nodup

/-!
# The order of a closure

The order in which the documents of a closure are rewritten does not depend on how they are
rewritten (`Frontier.order`): the first document that waits comes next, and the documents that
it leads to are met. A location is unseen, waiting or done, and is moved on but never copied
(`Frontier.places_meetAll`), so every document comes once (`Frontier.nodup_order`). All that
waits has its turn (`Frontier.mem_order_of_mem_queue`), whatever the documents lead to comes
along (`Frontier.mem_order_of_discovered`), and nothing else does (`Frontier.of_mem_order`).
-/

namespace MessageConformance.Schema

/-- The document that a part of the document at `base` leads to. -/
def Part.found? (store : Store) (base : Location) : Part → Option Resource
  | .copied _ => none
  | .reference r => (Resolver.resolve store r.target (some base)).value

/-- The documents that a document leads to, in the order of its references. -/
def discovered (store : Store) (d : Resource) : List Resource :=
  (Outline.of d.content).parts.filterMap (Part.found? store d.location)

namespace Frontier

/-- The documents that wait and those that they lead to, in the order they are rewritten. -/
def order (store : Store) : Frontier → List Resource
  | ⟨_, []⟩ => []
  | ⟨unseen, d :: queue⟩ => d :: order store (meetAll ⟨unseen, queue⟩ (discovered store d))
termination_by f => f.size
decreasing_by
  rw [size_meetAll]
  simp [size]

/-- The locations that may still be rewritten: the unseen ones and those that wait. -/
def places (f : Frontier) : List Location := f.unseen ++ f.queue.map (·.location)

/-- The first document that waits has its location among the others. -/
theorem places_cons (unseen : List Location) (d : Resource) (queue : List Resource) :
    (places ⟨unseen, d :: queue⟩).Perm (d.location :: places ⟨unseen, queue⟩) := by
  simp only [places, List.map_cons]
  exact List.perm_middle

theorem places_meet (f : Frontier) (r : Resource) : (f.meet r).places.Perm f.places := by
  unfold meet places
  split
  · next unseen =>
    have moved : f.unseen.Perm (r.location :: f.unseen.erase r.location) := List.perm_cons_erase unseen
    simp only [List.map_append, List.map_cons, List.map_nil, ← List.append_assoc]
    exact (List.perm_append_singleton ..).trans (moved.symm.append_right _)
  · exact .refl _

theorem places_meetAll (f : Frontier) (rs : List Resource) :
    (f.meetAll rs).places.Perm f.places := by
  induction rs generalizing f with
  | nil => exact .refl _
  | cons r rs ih => exact (ih (f.meet r)).trans (places_meet f r)

theorem mem_queue_meetAll (f : Frontier) (rs : List Resource) {d : Resource}
    (waits : d ∈ f.queue) : d ∈ (f.meetAll rs).queue := by
  induction rs generalizing f with
  | nil => exact waits
  | cons r rs ih =>
    refine ih (f.meet r) ?_
    unfold meet
    split
    · exact List.mem_append_left _ waits
    · exact waits

theorem mem_queue_of_unseen (f : Frontier) {rs : List Resource} {r : Resource} (met : r ∈ rs)
    (unseen : r.location ∈ f.unseen) :
    r.location ∈ (f.meetAll rs).queue.map (·.location) := by
  induction rs generalizing f with
  | nil => simp at met
  | cons r' rs ih =>
    by_cases same : r'.location = r.location
    · have waits : r' ∈ (f.meet r').queue := by simp [meet, same, unseen]
      exact same ▸ List.mem_map_of_mem (mem_queue_meetAll (f.meet r') rs waits)
    · have later : r ∈ rs := (List.mem_cons.1 met).resolve_left fun equal => same (equal ▸ rfl)
      refine ih (f.meet r') later ?_
      unfold meet
      split
      · exact (List.mem_erase_of_ne fun equal => same equal.symm).2 unseen
      · exact unseen

/-- All that waits after some documents were met waited before or is one of them. -/
theorem mem_queue_or_met (f : Frontier) (rs : List Resource) {d : Resource}
    (waits : d ∈ (f.meetAll rs).queue) : d ∈ f.queue ∨ d ∈ rs := by
  induction rs generalizing f with
  | nil => exact .inl waits
  | cons r rs ih =>
    obtain waits | met := ih (f.meet r) waits
    · unfold meet at waits
      split at waits
      · obtain waits | here := List.mem_append.1 waits
        · exact .inl waits
        · exact .inr (List.mem_cons.2 (.inl (List.mem_singleton.1 here)))
      · exact .inl waits
    · exact .inr (List.mem_cons_of_mem r met)

variable {store : Store} {f : Frontier}

/-- Whatever holds of the documents that wait, and passes from a document to those it leads to,
    holds of all that are rewritten. -/
theorem of_mem_order {holds : Resource → Prop}
    (passes : ∀ d, holds d → ∀ r ∈ discovered store d, holds r) (first : ∀ d ∈ f.queue, holds d) :
    ∀ d ∈ order store f, holds d := by
  fun_induction order store f with
  | case1 unseen => simp
  | case2 unseen d queue ih =>
    have here : holds d := first d (List.mem_cons_self ..)
    have later := ih fun d' waits => by
      obtain waits | met := mem_queue_or_met ⟨unseen, queue⟩ _ waits
      · exact first d' (List.mem_cons_of_mem d waits)
      · exact passes d here d' met
    intro d' member
    obtain rfl | member := List.mem_cons.1 member
    · exact here
    · exact later d' member

theorem mem_order_of_mem_queue {d : Resource} (waits : d ∈ f.queue) : d ∈ order store f := by
  fun_induction order store f with
  | case1 unseen => simp at waits
  | case2 unseen d' queue ih =>
    obtain rfl | waits := List.mem_cons.1 waits
    · exact List.mem_cons_self ..
    · exact List.mem_cons_of_mem d' (ih (mem_queue_meetAll ⟨unseen, queue⟩ _ waits))

/-- Each location is rewritten once, and none but those that were unseen or waited. -/
theorem nodup_order (distinct : f.places.Nodup) :
    ((order store f).map (·.location)).Nodup ∧
      ∀ l ∈ (order store f).map (·.location), l ∈ f.places := by
  fun_induction order store f with
  | case1 unseen => simp
  | case2 unseen d queue ih =>
    -- Meeting moves locations about, so what is without repeats before is so after.
    have rest := places_meetAll ⟨unseen, queue⟩ (discovered store d)
    obtain ⟨fresh, distinct⟩ := List.nodup_cons.1 ((places_cons unseen d queue).nodup_iff.1 distinct)
    obtain ⟨nodup, within⟩ := ih (rest.nodup_iff.2 distinct)
    have placed : ∀ l ∈ (order store _).map (·.location), l ∈ places ⟨unseen, queue⟩ :=
      fun l member => rest.mem_iff.1 (within l member)
    rw [List.map_cons]
    refine ⟨List.nodup_cons.2 ⟨fun again => fresh (placed _ again), nodup⟩, fun l member => ?_⟩
    rw [(places_cons unseen d queue).mem_iff]
    obtain rfl | member := List.mem_cons.1 member
    · exact List.mem_cons_self ..
    · exact List.mem_cons_of_mem _ (placed l member)

/-- The documents that a rewritten document leads to are rewritten, unless their locations were
    done before. -/
theorem mem_order_of_discovered {d r : Resource} (rewritten : d ∈ order store f)
    (found : r ∈ discovered store d) (place : r.location ∈ f.places) :
    r.location ∈ (order store f).map (·.location) := by
  fun_induction order store f with
  | case1 unseen => simp at rewritten
  | case2 unseen d' queue ih =>
    rw [(places_cons unseen d' queue).mem_iff] at place
    rw [List.map_cons]
    obtain same | other := List.mem_cons.1 place
    · exact List.mem_cons.2 (.inl same)
    · refine List.mem_cons_of_mem _ ?_
      obtain rfl | rewritten := List.mem_cons.1 rewritten
      -- Once `d` has its turn, the location waits, whether it is met now or was before.
      · have waits : r.location ∈
            (meetAll ⟨unseen, queue⟩ (discovered store d)).queue.map (·.location) := by
          obtain unseen | waits := List.mem_append.1 other
          · exact mem_queue_of_unseen _ found unseen
          · obtain ⟨w, waits, same⟩ := List.mem_map.1 waits
            exact same ▸ List.mem_map_of_mem (mem_queue_meetAll ⟨_, queue⟩ _ waits)
        obtain ⟨w, waits, same⟩ := List.mem_map.1 waits
        exact same ▸ List.mem_map_of_mem (mem_order_of_mem_queue waits)
      · exact ih rewritten ((places_meetAll ⟨unseen, queue⟩ _).mem_iff.2 other)

/-- Documents that are met wait in the order of their first occurrences. -/
theorem map_queue_meetAll (rs : List Resource) (distinct : f.unseen.Nodup) :
    (f.meetAll rs).queue.map (·.location) =
      f.queue.map (·.location) ++
        ((rs.map (·.location)).filter (· ∈ f.unseen)).eraseDups := by
  induction rs generalizing f with
  | nil => simp [meetAll]
  | cons r rs ih =>
    show ((f.meet r).meetAll rs).queue.map (·.location) = _
    by_cases unseen : r.location ∈ f.unseen
    · have met : f.meet r = ⟨f.unseen.erase r.location, f.queue ++ [r]⟩ := by simp [meet, unseen]
      have others : (fun l => decide (l ∈ f.unseen.erase r.location)) =
          fun l => (!l == r.location) && decide (l ∈ f.unseen) := by
        funext l
        rw [Bool.eq_iff_iff]
        simp [distinct.mem_erase_iff]
      rw [met, ih (distinct.erase _), others, List.map_cons, List.filter_cons]
      simp [unseen, List.eraseDups_cons, List.filter_filter]
    · have kept : f.meet r = f := by simp [meet, unseen]
      rw [kept, ih distinct, List.map_cons, List.filter_cons]
      simp [unseen]

end Frontier

end MessageConformance.Schema
