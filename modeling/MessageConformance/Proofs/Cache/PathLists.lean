import MessageConformance.Proofs.Cache.Histories
import MessageConformance.Proofs.Schema.Bundles
import MessageConformance.Proofs.Text.Pieces
import Mathlib.Data.List.Induction

/-!
# Schemas of path lists

The key of a path list is its paths with a bar between any two, so two lists have one key exactly
if their paths are cut at the bars into the same pieces (`Key.ofPaths_eq_iff`). Lists whose paths
have no bars are therefore told apart. Under a key a cache keeps what came of the first list that
was compiled for it (`Source`), and hands this out for every list with that key
(`shares_by_pieces`). Where a bar stands in a path this may be another list
(`bar_shares_schema`).
-/

namespace MessageConformance

open Schema (Bundle)

/-! ## Keys -/

/-- What the paths of a list are made of between bars. -/
def pathPieces (paths : List String) : List String := paths.flatMap (Text.split '|')

/-- Path lists have one key exactly if they have the same pieces. -/
theorem Key.ofPaths_eq_iff {paths others : List String} (nonempty : paths ≠ [])
    (nonempty' : others ≠ []) :
    ofPaths paths = ofPaths others ↔ pathPieces paths = pathPieces others := by
  have joined (list : List String) :
      ofPaths list = .paths ((String.singleton '|').intercalate list) := rfl
  rw [joined, joined, Key.paths.injEq]
  exact Text.intercalate_eq_iff nonempty nonempty'

theorem pathPieces_of_free {paths : List String} (free : ∀ path ∈ paths, '|' ∉ path.toList) :
    pathPieces paths = paths :=
  Text.flatMap_split_of_free free

/-! ## What a list is compiled to -/

/-- The locations that paths name, in order and without repeats. -/
def namedBy (paths : List String) : List Location := (paths.filterMap Location.parse?).eraseDups

theorem members_of_compile {v : Visit} {number : Nat} {compiled : CompiledSchema}
    (made : v.compile number = .ok compiled) : compiled.members = namedBy v.paths := by
  unfold Visit.compile at made
  cases loaded : (Bundle.load v.store v.paths).outcome with
  | error cause => simp [loaded] at made
  | ok bundle =>
    simp only [loaded] at made
    cases driven : (compiledDriver v.engine bundle).2 with
    | error cause => simp [driven, Except.map] at made
    | ok input =>
      rw [driven] at made
      obtain rfl := Except.ok.inj made
      exact Schema.members_of_load loaded

/-- The lookup of a path list. -/
def World.visitPaths (w : World) (paths : List String) : Visit :=
  ⟨w.engine, w.store, .ofPaths paths, paths⟩

namespace Request

variable {w : World} {paths : List String} {compiled : CompiledSchema} {c : Cache}

theorem visitAll_getPaths (nonempty : paths ≠ []) :
    visitAll (getPaths w paths).visits c = [⟨w.visitPaths paths, c⟩] := by
  have given : ¬ paths.isEmpty = true := by simpa using nonempty
  rw [visits, if_neg given, visitAll_singleton]
  rfl

theorem outcome_getPaths_eq_ok_iff :
    (getPaths w paths).perform.outcome c = .ok (.schema compiled) ↔
      paths ≠ [] ∧ Event.outcome ⟨w.visitPaths paths, c⟩ = .ok compiled := by
  rw [((getPaths w paths).comesDownTo c).answer]
  by_cases given : paths = []
  · subst given
    simp [visits, visitAll, answer]
  · rw [visitAll_getPaths given, List.map_singleton]
    have mapped : (getPaths w paths).answer [Event.outcome ⟨w.visitPaths paths, c⟩] =
        (Event.outcome ⟨w.visitPaths paths, c⟩).map .schema := rfl
    rw [mapped]
    cases Event.outcome ⟨w.visitPaths paths, c⟩ <;> simp [Except.map, given]

theorem find?_after_getPaths
    (answered : (getPaths w paths).perform.outcome c = .ok (.schema compiled)) :
    ((getPaths w paths).perform.after c).find? (.ofPaths paths) = some compiled := by
  obtain ⟨nonempty, outcome⟩ := outcome_getPaths_eq_ok_iff.1 answered
  have follows := ((getPaths w paths).comesDownTo c).follows
  rw [visitAll_getPaths nonempty] at follows
  rw [← List.nil_append [_]] at follows
  exact follows.find?_of_success outcome

/-- What is kept under the key of a path list is what the list is answered with. -/
theorem outcome_getPaths_of_kept (nonempty : paths ≠ [])
    (kept : c.find? (.ofPaths paths) = some compiled) :
    (getPaths w paths).perform.outcome c = .ok (.schema compiled) :=
  outcome_getPaths_eq_ok_iff.2 ⟨nonempty, (Event.hit (e := ⟨w.visitPaths paths, c⟩) kept).1⟩

end Request

/-! ## The list behind a key -/

/-- A request for a path list with this key is answered with a schema. -/
def Provides (key : Key) (occasion : Request × Cache) : Prop :=
  ∃ w paths compiled, occasion.1 = .getPaths w paths ∧ Key.ofPaths paths = key ∧
    occasion.1.perform.outcome occasion.2 = .ok (.schema compiled)

/-- The path list whose compilation is kept under a key: it has the key, is answered with a
    schema, and no list with the key was before. -/
structure Source (requests : List Request) (key : Key) (w : World) (paths : List String) :
    Prop where
  named : Key.ofPaths paths = key
  first : ∃ before after, requests = before ++ .getPaths w paths :: after ∧
    Provides key (.getPaths w paths, cacheAfter before .empty) ∧
    ∀ occasion ∈ occasions before .empty, ¬ Provides key occasion

theorem cacheAfter_append (before after : List Request) (c : Cache) :
    cacheAfter (before ++ after) c = cacheAfter after (cacheAfter before c) :=
  List.foldl_append

/-- The list behind a key stays the same however many requests follow. -/
theorem Source.append {requests : List Request} {key : Key} {w : World} {paths : List String}
    (source : Source requests key w paths) (later : List Request) :
    Source (requests ++ later) key w paths := by
  obtain ⟨before, after, rfl, provides, unprovided⟩ := source.first
  exact ⟨source.named, before, after ++ later, by simp, provides, unprovided⟩

/-- Only a request for a path list looks up the key of one, and it provides the key if it
    succeeds. -/
theorem provides_of_succeeds {r : Request} {c : Cache} {paths : List String} {e : Event}
    (member : e ∈ visitAll r.visits c) (same : e.key = .ofPaths paths) (succeeds : e.Succeeds) :
    Provides (.ofPaths paths) (r, c) := by
  have visit := visit_mem_of_mem_visitAll member
  cases r with
  | get w context | sessionFor w context =>
    rw [Event.key, List.mem_singleton.1 visit] at same
    cases same
  | warmUp w =>
    obtain ⟨context, -, visited⟩ := List.mem_map.1 visit
    rw [Event.key, ← visited] at same
    cases same
  | getPaths w others =>
    have nonempty : others ≠ [] := by
      rintro rfl
      cases visit
    rw [Request.visitAll_getPaths nonempty, List.mem_singleton] at member
    subst member
    obtain ⟨compiled, made⟩ := succeeds
    exact ⟨w, others, compiled, rfl, same, Request.outcome_getPaths_eq_ok_iff.2 ⟨nonempty, made⟩⟩

theorem contains_of_provides {requests : List Request} {key : Key} {occasion : Request × Cache}
    (member : occasion ∈ occasions requests .empty) (provides : Provides key occasion) :
    (cacheAfter requests .empty).contains key = true := by
  obtain ⟨r, c⟩ := occasion
  obtain ⟨w, paths, compiled, rfl, rfl, answered⟩ := provides
  obtain ⟨nonempty, outcome⟩ := Request.outcome_getPaths_eq_ok_iff.1 answered
  refine ((follows_lookups requests .empty).contains_iff _).2 (.inr ⟨_, ?_, rfl, compiled, outcome⟩)
  refine List.mem_flatMap.2 ⟨_, member, ?_⟩
  show _ ∈ visitAll (Request.getPaths w paths).visits c
  rw [Request.visitAll_getPaths nonempty]
  exact List.mem_singleton_self _

/-- What is kept under the key of a path list has the members that the first list with this key
    names. -/
theorem exists_source {requests : List Request} {paths : List String} {compiled : CompiledSchema}
    (kept : (cacheAfter requests .empty).find? (.ofPaths paths) = some compiled) :
    ∃ w source, Source requests (.ofPaths paths) w source ∧ source ≠ [] ∧
      compiled.members = namedBy source := by
  induction requests using List.reverseRecOn with
  | nil => cases kept
  | append_singleton requests r ih =>
    have follows := (r.comesDownTo (cacheAfter requests .empty)).follows
    rw [cacheAfter_append] at kept
    cases held : (cacheAfter requests .empty).find? (.ofPaths paths) with
    | some earlier =>
      have same : some earlier = some compiled := (follows.find?_of_kept held).symm.trans kept
      obtain ⟨w, source, behind, nonempty, members⟩ := ih (held.trans same)
      exact ⟨w, source, behind.append [r], nonempty, members⟩
    | none =>
      -- The last request put the schema there, so it is the first with this key.
      have unheld : ¬ (cacheAfter requests .empty).contains (.ofPaths paths) = true := by
        simp [Cache.contains, held]
      have contained : (r.perform.after (cacheAfter requests .empty)).contains (.ofPaths paths) =
          true := Option.isSome_iff_exists.2 ⟨compiled, kept⟩
      obtain contained | ⟨e, member, same, succeeds⟩ := (follows.contains_iff _).1 contained
      · exact absurd contained unheld
      have provides := provides_of_succeeds member same succeeds
      obtain ⟨w, source, compiled', rfl, named, answered⟩ := id provides
      refine ⟨w, source, ⟨named, requests, [], rfl, provides, fun occasion member provided =>
        unheld (contains_of_provides member provided)⟩, ?_⟩
      have kept' := Request.find?_after_getPaths answered
      obtain ⟨nonempty, outcome⟩ := Request.outcome_getPaths_eq_ok_iff.1 answered
      rw [named] at kept'
      obtain rfl := Option.some.inj (kept'.symm.trans kept)
      rw [← named] at held
      have compiles := (Event.missed (e := ⟨w.visitPaths source, _⟩) held).1
      exact ⟨nonempty, members_of_compile (compiles.symm.trans outcome)⟩

/-- Lists whose paths have no bars have one key only if they are the same list. -/
theorem Source.eq_of_free {requests : List Request} {w : World} {paths source : List String}
    (behind : Source requests (.ofPaths paths) w source) (nonempty : source ≠ [])
    (given : paths ≠ []) (free : ∀ path ∈ source ++ paths, '|' ∉ path.toList) : source = paths := by
  rw [List.forall_mem_append] at free
  rw [← pathPieces_of_free free.1, ← pathPieces_of_free free.2]
  exact (Key.ofPaths_eq_iff nonempty given).1 behind.named

/-- What stands behind a schema that a path list was answered with, after some requests. -/
structure SharesByPieces (before : List Request) (w : World) (paths : List String)
    (compiled : CompiledSchema) : Prop where
  /-- The lists with the same key are those with the same pieces. -/
  keyed : ∀ others ≠ [],
    (Key.ofPaths others = Key.ofPaths paths ↔ pathPieces others = pathPieces paths)
  /-- From then on all of them are answered with this schema. -/
  shared : ∀ others ≠ [], pathPieces others = pathPieces paths → ∀ w',
    (Request.getPaths w' others).perform.outcome
      (cacheAfter (before ++ [.getPaths w paths]) .empty) = .ok (.schema compiled)
  /-- Its members are those that the first list with the key names. They are what the list itself
      is loaded to exactly if the first list names the same, and without bars in the paths the
      first list is the list itself. -/
  behind : ∃ w' source, Source (before ++ [.getPaths w paths]) (.ofPaths paths) w' source ∧
    compiled.members = namedBy source ∧
    (∀ store bundle, (Bundle.load store paths).outcome = .ok bundle →
      (compiled.members = bundle.members ↔ namedBy source = namedBy paths)) ∧
    ((∀ path ∈ source ++ paths, '|' ∉ path.toList) → source = paths)

/-- A schema that a path list is answered with is shared by all lists with the same pieces, and by
    no others. -/
theorem shares_by_pieces {before : List Request} {w : World} {paths : List String}
    {compiled : CompiledSchema}
    (answered : (Request.getPaths w paths).perform.outcome (cacheAfter before .empty) =
      .ok (.schema compiled)) :
    SharesByPieces before w paths compiled := by
  have given := (Request.outcome_getPaths_eq_ok_iff.1 answered).1
  have kept : (cacheAfter (before ++ [.getPaths w paths]) .empty).find? (.ofPaths paths) =
      some compiled := by
    rw [cacheAfter_append]
    exact Request.find?_after_getPaths answered
  constructor
  case keyed => exact fun others nonempty => Key.ofPaths_eq_iff nonempty given
  case shared =>
    intro others nonempty pieces w'
    have same := (Key.ofPaths_eq_iff nonempty given).2 pieces
    exact Request.outcome_getPaths_of_kept nonempty (same ▸ kept)
  case behind =>
    obtain ⟨w', source, behind, nonempty, members⟩ := exists_source kept
    refine ⟨w', source, behind, members, fun store bundle loaded => ?_,
      behind.eq_of_free nonempty given⟩
    rw [members, Schema.members_of_load loaded]
    rfl

/-- An engine that compiles every schema without asking for anything. -/
def readyEngine : Engine where
  requests _ := some []
  compile _ := ([], true)
  opens _ := true
  pass _ _ := .checked [] 0
  fetch _ := none

/-- Three documents, of which the last one has a bar in its name. -/
def barStore : Store where
  documents :=
    [(⟨["x.xsd"], by decide, by decide⟩, Schema.sharedSchema),
      (⟨["y.xsd"], by decide, by decide⟩, Schema.sharedSchema),
      (⟨["x.xsd|y.xsd"], by decide, by decide⟩, Schema.sharedSchema)]
  distinct := by decide

/-- What the first two documents are compiled to is handed out for the document with the bar. -/
theorem bar_shares_schema :
    Key.ofPaths ["x.xsd|y.xsd"] = Key.ofPaths ["x.xsd", "y.xsd"] ∧
    ((Bundle.load barStore ["x.xsd|y.xsd"]).outcome.toOption.map
      fun bundle => bundle.members.map (·.text)) = some ["x.xsd|y.xsd"] ∧
    ((getPaths readyEngine barStore ["x.xsd|y.xsd"]).outcome
        (cacheAfter [.getPaths ⟨readyEngine, barStore⟩ ["x.xsd", "y.xsd"]] .empty)).toOption.map
      (fun compiled => compiled.members.map (·.text)) = some ["x.xsd", "y.xsd"] := by
  refine ⟨by decide, ?_, ?_⟩ <;> decide +kernel

/-- The schema of the document with the bar is shared like any other. -/
theorem barStore_shares_by_pieces :
    ∃ compiled,
      (Request.getPaths ⟨readyEngine, barStore⟩ ["x.xsd|y.xsd"]).perform.outcome
          (cacheAfter [.getPaths ⟨readyEngine, barStore⟩ ["x.xsd", "y.xsd"]] .empty) =
        .ok (.schema compiled) ∧
      SharesByPieces [.getPaths ⟨readyEngine, barStore⟩ ["x.xsd", "y.xsd"]]
        ⟨readyEngine, barStore⟩ ["x.xsd|y.xsd"] compiled := by
  have succeeds : (Event.outcome ⟨World.visitPaths ⟨readyEngine, barStore⟩ ["x.xsd|y.xsd"],
      cacheAfter [.getPaths ⟨readyEngine, barStore⟩ ["x.xsd", "y.xsd"]] .empty⟩).isOk = true := by
    decide +kernel
  obtain ⟨compiled, made⟩ := isOk_iff.1 succeeds
  have answered := Request.outcome_getPaths_eq_ok_iff.2 ⟨List.cons_ne_nil _ _, made⟩
  exact ⟨compiled, answered, shares_by_pieces answered⟩

end MessageConformance
