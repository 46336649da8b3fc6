import MessageConformance.Proofs.Schema.Bundles

/-!
# What is read for a bundle

While a group of schemas is loaded, nothing is read but what its paths name and what the
references in the documents of its closure are looked for at (`exists_tried_of_mem_asked`). This
holds also when loading fails, at whatever step.
-/

namespace MessageConformance.Schema

open Resolver

variable {store : Store} {paths : List String}

/-- A path that may be tried for a group: that of a member, or one at which a reference in a
    document of the closure is looked for. -/
inductive IsTried (store : Store) (paths : List String) : String → Prop
  | member {path : String} (listed : path ∈ paths) : IsTried store paths path
  | reference {base : Location} {content : Bytes} {r : Reference} {path : String}
      (inside : InClosure store paths base) (read : store.document? base = some content)
      (refers : Part.reference r ∈ (Outline.of content).parts)
      (candidate : path ∈ candidatePaths r.target (some base)) : IsTried store paths path

/-- For a reference, what its paths name is read in order, and nothing else. -/
theorem asked_resolve_initial (store : Store) (reference : String) (base : Option Location) :
    (resolve store reference base).asked <+:
      (candidatePaths reference base).filterMap Location.parse? := by
  rw [← candidates_eq_filterMap]
  exact asked_firstReadable_initial store _

theorem exists_candidate_of_mem_asked {reference : String} {base : Option Location} {l : Location}
    (asked : l ∈ (resolve store reference base).asked) :
    ∃ path ∈ candidatePaths reference base, Location.parse? path = some l :=
  List.mem_filterMap.1 ((asked_resolve_initial store reference base).subset asked)

/-- Whatever is read for a document is read for one of its references. -/
theorem exists_reference_of_mem_asked_rewrite {d : Resource} {l : Location}
    (asked : l ∈ (rewrite store d).asked) :
    ∃ r, Part.reference r ∈ (Outline.of d.content).parts ∧
      l ∈ (resolve store r.target (some d.location)).asked := by
  obtain asked | ⟨parts, -, none⟩ := Loading.mem_asked_bind asked
  · obtain ⟨part, member, asked⟩ := Loading.mem_asked_mapM asked
    rw [Part.asked_rewritePart] at asked
    cases part with
    | copied token => simp [Part.asked] at asked
    | reference r => exact ⟨r, member, asked⟩
  · cases outlined : (Outline.of d.content).targetNamespace <;> simp [outlined] at none

theorem mem_asked_rewrite_of_process {closure : Closure} {d : Resource} {l : Location}
    (asked : l ∈ (process store closure d).asked) : l ∈ (rewrite store d).asked := by
  obtain asked | ⟨rewritten, -, later⟩ := Loading.mem_asked_bind asked
  · exact asked
  · obtain none | ⟨catalog, -, none⟩ := Loading.mem_asked_bind later <;> simp at none

/-- While a group is loaded, nothing is read but what may be tried for it. -/
theorem exists_tried_of_mem_asked {l : Location} (asked : l ∈ (Bundle.load store paths).asked) :
    ∃ path, IsTried store paths path ∧ Location.parse? path = some l := by
  by_cases nonempty : paths = []
  · subst nonempty
    simp [Bundle.load] at asked
  · rw [load_eq store nonempty] at asked
    obtain first | ⟨loaded, members, later⟩ := Loading.mem_asked_bind asked
    · obtain ⟨path, listed, asked⟩ := Loading.mem_asked_mapM first
      exact ⟨path, .member listed, parse?_of_mem_asked_load asked⟩
    · rw [outcome_mapM_load_eq_ok_iff] at members
      obtain expanded | ⟨closure, -, later⟩ := Loading.mem_asked_bind later
      · rw [expand_eq_foldlM] at expanded
        obtain ⟨d, rewritten, closure, asked⟩ := Loading.mem_asked_foldlM expanded
        obtain ⟨isIn, inside⟩ := inClosure_of_mem_order members rewritten
        obtain ⟨r, refers, asked⟩ :=
          exists_reference_of_mem_asked_rewrite (mem_asked_rewrite_of_process asked)
        obtain ⟨path, candidate, parsed⟩ := exists_candidate_of_mem_asked asked
        exact ⟨path, .reference inside isIn refers candidate, parsed⟩
      · obtain none | ⟨made, -, none⟩ := Loading.mem_asked_bind later <;> simp at none

end MessageConformance.Schema
