import MessageConformance.Proofs.Schema.Displacement
import MessageConformance.Proofs.Schema.Mentions

/-!
# What a driver leads to

Each group is given one reference in the driver, in the order of the members that begin the groups
(`linksOf_groupsOf`). No two references lead to one location, unless a document of the closure
stands where a wrapper document is made (`nodup_location_driverLinks`). So a driver that is read
back, and the wrapper documents that it imports, lead to every member once, by way of its namespace
if it has one (`Bundle.IsLinked`, `isLinked_load`).
-/

namespace MessageConformance.Schema

open Bytes Resolver

/-! ## References to groups -/

/-- A member shares its target namespace with others. -/
def IsShared (members : List (Location × Option String)) (member : Location × Option String) :
    Prop :=
  ∃ uri, member.2 = some uri ∧ 2 ≤ (membersOf uri members).length

/-- The reference to the group that a member begins, given its position: a member without namespace
    is included, and a namespace is imported from its wrapper document or from its only member. -/
def linkOf (members : List (Location × Option String)) (position : Nat)
    (head : Location × Option String) : Link :=
  match head.2 with
  | none => .includes head.1
  | some uri =>
    .imports uri (if 2 ≤ (membersOf uri members).length then wrapperLocation position else head.1)

section

variable {members : List (Location × Option String)} {head : Location × Option String}

theorem links_groupOf (member : head ∈ members) (position : Nat) :
    (groupOf members head).links position = [linkOf members position head] := by
  obtain ⟨l, _ | uri⟩ := head
  · rfl
  · have listed : l ∈ membersOf uri members := mem_membersOf_iff.2 member
    rw [groupOf, linkOf]
    rcases shape : membersOf uri members with _ | ⟨only, _ | ⟨second, rest⟩⟩
    · simp [shape] at listed
    · obtain rfl : l = only := by simpa [shape] using listed
      simp [Group.links, shape]
    · simp [Group.links, shape]

theorem linksOf_map_groupOf {heads : List (Location × Option String)} (listed : heads ⊆ members)
    (position : Nat) :
    linksOf position (heads.map (groupOf members)) =
      heads.mapIdx fun n => linkOf members (position + n) := by
  induction heads generalizing position with
  | nil => rfl
  | cons head heads ih =>
    rw [List.cons_subset] at listed
    rw [List.map_cons, linksOf, links_groupOf listed.1, ih listed.2, List.mapIdx_cons]
    simp [Nat.add_assoc, Nat.add_comm 1]

/-- Each group is referred to once, in the order of their first members. -/
theorem linksOf_groupsOf (members : List (Location × Option String)) :
    linksOf 0 (groupsOf members) = (heads members).mapIdx (linkOf members) := by
  rw [groupsOf_eq_map_heads, linksOf_map_groupOf (heads_sublist members).subset]
  simp

/-! ### Where references lead -/

/-- The location that a reference leads to. -/
def Link.location : Link → Location
  | includes l | imports _ l => l

/-- The namespace that a reference imports. -/
def Link.uri? : Link → Option String
  | includes _ => none
  | imports uri _ => some uri

theorem uri?_linkOf (position : Nat) : (linkOf members position head).uri? = head.2 := by
  obtain ⟨l, _ | uri⟩ := head <;> rfl

theorem location_linkOf_of_isShared (position : Nat) (shared : IsShared members head) :
    (linkOf members position head).location = wrapperLocation position := by
  obtain ⟨uri, same, several⟩ := shared
  simp [linkOf, same, several, Link.location]

theorem location_linkOf_of_not_isShared (position : Nat) (alone : ¬ IsShared members head) :
    (linkOf members position head).location = head.1 := by
  obtain ⟨l, _ | uri⟩ := head
  · rfl
  · have few : ¬ 2 ≤ (membersOf uri members).length := fun several => alone ⟨uri, rfl, several⟩
    simp [linkOf, few, Link.location]

theorem Link.mention_location? (link : Link) :
    link.mention.location? = some (address link.location) := by
  cases link <;> rfl

theorem Link.mention_uri? (link : Link) : link.mention.uri? = link.uri? := by
  cases link <;> rfl

theorem address_injective {l l' : Location} (same : address l = address l') : l = l' :=
  Location.text_injective (String.append_right_inj addressStart |>.1 same)

end

/-! ## Members of a group that is loaded -/

variable {store : Store} {paths : List String} {bundle : Bundle}

theorem nodup_namedMembers (made : (Bundle.load store paths).outcome = .ok bundle) :
    ((namedMembers store paths).map (·.1)).Nodup := by
  obtain ⟨-, loaded, members, -⟩ := (outcome_load_eq_ok_iff store paths bundle).1 made
  rw [← members_start members]
  exact nodup_members_start store loaded

theorem exists_member (made : (Bundle.load store paths).outcome = .ok bundle)
    {member : Location × Option String} (listed : member ∈ namedMembers store paths) :
    ∃ d : Resource, d.location = member.1 ∧ d.IsIn store ∧ InClosure store paths d.location := by
  obtain ⟨-, loaded, members, -⟩ := (outcome_load_eq_ok_iff store paths bundle).1 made
  rw [← members_start members, Frontier.members] at listed
  obtain ⟨d, waits, rfl⟩ := List.mem_map.1 listed
  have isMember := (mem_queue_start_iff members d).1 waits
  exact ⟨d, rfl, isMember.inClosure.1, isMember.inClosure.2⟩

/-- The references of a driver in order. -/
def driverLinks (store : Store) (paths : List String) : List Link :=
  (heads (namedMembers store paths)).mapIdx (linkOf (namedMembers store paths))

theorem mem_driverLinks_iff {link : Link} :
    link ∈ driverLinks store paths ↔
      ∃ n head, (heads (namedMembers store paths))[n]? = some head ∧
        linkOf (namedMembers store paths) n head = link := by
  rw [driverLinks, List.mem_mapIdx]
  constructor
  · rintro ⟨n, inside, rfl⟩
    exact ⟨n, _, List.getElem?_eq_getElem inside, rfl⟩
  · rintro ⟨n, head, begins, rfl⟩
    obtain ⟨inside, rfl⟩ := List.getElem?_eq_some_iff.1 begins
    exact ⟨n, inside, rfl⟩

theorem driver_load (made : (Bundle.load store paths).outcome = .ok bundle) :
    bundle.driver = writeSchema none (driverLinks store paths) := by
  obtain ⟨-, loaded, members, -, -, rfl⟩ := (outcome_load_eq_ok_iff store paths bundle).1 made
  rw [Bundle.of, members_start members, linksOf_groupsOf, driverLinks]

/-- No document of the closure stands where a wrapper document is made. -/
def WrappersAreApart (store : Store) (paths : List String) : Prop :=
  ∀ d : Resource, d.IsIn store → InClosure store paths d.location →
    ∀ wrapper, ¬ IsWrapper store paths d.location wrapper

/-- No member stands where a wrapper document is made. -/
theorem member_ne_wrapperLocation (made : (Bundle.load store paths).outcome = .ok bundle)
    (apart : WrappersAreApart store paths) {member head : Location × Option String}
    (listed : member ∈ namedMembers store paths) {n : Nat}
    (begins : (heads (namedMembers store paths))[n]? = some head)
    (shared : IsShared (namedMembers store paths) head) : member.1 ≠ wrapperLocation n := by
  obtain ⟨d, place, isIn, inside⟩ := exists_member made listed
  obtain ⟨first, targetNamespace⟩ := head
  obtain ⟨uri, rfl, several⟩ := shared
  intro here
  exact apart d isIn inside _ ⟨n, first, uri, place.trans here, begins, several, rfl⟩

/-- No two references of a driver lead to one location. -/
theorem nodup_location_driverLinks (made : (Bundle.load store paths).outcome = .ok bundle)
    (apart : WrappersAreApart store paths) :
    ((driverLinks store paths).map Link.location).Nodup := by
  have distinct : ((heads (namedMembers store paths)).map (·.1)).Nodup :=
    (nodup_namedMembers made).sublist ((heads_sublist _).map _)
  rw [List.nodup_iff_getElem?_ne_getElem?] at distinct ⊢
  intro i j before inside same
  rw [driverLinks, List.length_map, List.length_mapIdx] at inside
  obtain ⟨a, first⟩ : ∃ a, (heads (namedMembers store paths))[i]? = some a :=
    ⟨_, List.getElem?_eq_getElem (Nat.lt_trans before inside)⟩
  obtain ⟨b, second⟩ : ∃ b, (heads (namedMembers store paths))[j]? = some b :=
    ⟨_, List.getElem?_eq_getElem inside⟩
  have other : a.1 ≠ b.1 := by
    simpa [first, second] using distinct i j before (by simpa using inside)
  replace same : (linkOf (namedMembers store paths) i a).location =
      (linkOf (namedMembers store paths) j b).location := by
    simpa [driverLinks, first, second] using same
  by_cases left : IsShared (namedMembers store paths) a <;>
    by_cases right : IsShared (namedMembers store paths) b
  · rw [location_linkOf_of_isShared i left, location_linkOf_of_isShared j right] at same
    exact Nat.ne_of_lt before (wrapperLocation_injective same)
  · rw [location_linkOf_of_isShared i left, location_linkOf_of_not_isShared j right] at same
    exact member_ne_wrapperLocation made apart (mem_of_begins second) first left same.symm
  · rw [location_linkOf_of_not_isShared i left, location_linkOf_of_isShared j right] at same
    exact member_ne_wrapperLocation made apart (mem_of_begins first) second right same
  · rw [location_linkOf_of_not_isShared i left, location_linkOf_of_not_isShared j right] at same
    exact other same

/-! ## Drivers that are read back -/

/-- The one element with a key. -/
theorem filter_eq_singleton {α β : Type} [DecidableEq β] {key : α → β} {k : β} {items : List α}
    {item : α} (member : item ∈ items) (named : key item = k)
    (only : items.Pairwise fun a b => key a = k → key b ≠ k) :
    items.filter (key · = k) = [item] := by
  induction items with
  | nil => simp at member
  | cons first items ih =>
    rw [List.pairwise_cons] at only
    obtain rfl | later := List.mem_cons.1 member
    · rw [List.filter_cons_of_pos (by simpa using named)]
      have none : items.filter (key · = k) = [] :=
        List.filter_eq_nil_iff.2 fun b listed => by simpa using only.1 b listed named
      rw [none]
    · rw [List.filter_cons_of_neg, ih later only.2]
      simpa using fun here => only.1 item later here named

/-- The reference that includes a member. -/
def includeOf (l : Location) : Mention := ⟨.includes, none, some (address l)⟩

/-- The reference that imports a namespace from a location. -/
def importOf (uri : String) (l : Location) : Mention := ⟨.imports, some uri, some (address l)⟩

/-- A bundle leads to every member once. The driver, which has no target namespace, refers to the
    groups in the order of their first members, each at a location of its own. A member without
    namespace is included; a namespace is imported once, from the member that alone has it, or from
    the wrapper document of those that share it. That document is in the catalog, has the namespace,
    and includes these members in their order and nothing else, and no other reference of the driver
    leads to them. -/
structure Bundle.IsLinked (bundle : Bundle) (store : Store) (paths : List String) : Prop where
  members : bundle.members = (namedMembers store paths).map (·.1)
  driver : RefersTo bundle.driver none ((driverLinks store paths).map Link.mention)
  apart : ((mentions bundle.driver).map (·.location?)).Nodup
  unnamed : ∀ l, (l, none) ∈ namedMembers store paths →
    (mentions bundle.driver).filter (·.location? = some (address l)) = [includeOf l]
  alone : ∀ uri l, membersOf uri (namedMembers store paths) = [l] →
    (mentions bundle.driver).filter (·.uri? = some uri) = [importOf uri l]
  shared : ∀ uri, 2 ≤ (membersOf uri (namedMembers store paths)).length → ∃ n wrapper,
    (mentions bundle.driver).filter (·.uri? = some uri) = [importOf uri (wrapperLocation n)] ∧
    bundle.catalog.document? (wrapperLocation n) = some wrapper ∧
    RefersTo wrapper (some uri) ((membersOf uri (namedMembers store paths)).map includeOf) ∧
    ∀ l ∈ membersOf uri (namedMembers store paths),
      (mentions wrapper).filter (·.location? = some (address l)) = [includeOf l] ∧
      ∀ m ∈ mentions bundle.driver, m.location? ≠ some (address l)

section

variable (made : (Bundle.load store paths).outcome = .ok bundle)

include made

theorem refersTo_driver :
    RefersTo bundle.driver none ((driverLinks store paths).map Link.mention) := by
  rw [driver_load made]
  exact refersTo_writeSchema none _

theorem nodup_location?_driver (apart : WrappersAreApart store paths) :
    ((mentions bundle.driver).map (·.location?)).Nodup := by
  rw [(refersTo_driver made).mentions, List.map_map]
  have located : (fun m : Mention => m.location?) ∘ Link.mention =
      (fun l => some (address l)) ∘ Link.location := funext Link.mention_location?
  rw [located, ← List.map_map]
  exact (nodup_location_driverLinks made apart).map fun _ _ same =>
    address_injective (Option.some.inj same)

/-- No namespace is imported twice. -/
theorem pairwise_uri?_driver (uri : String) :
    (mentions bundle.driver).Pairwise fun a b => a.uri? = some uri → b.uri? ≠ some uri := by
  have named : (mentions bundle.driver).map (·.uri?) =
      (heads (namedMembers store paths)).map (·.2) := by
    rw [(refersTo_driver made).mentions, driverLinks, List.map_map]
    refine List.ext_getElem? fun n => ?_
    simp [Function.comp_def, Link.mention_uri?, uri?_linkOf]
  suffices apart : ((mentions bundle.driver).map (·.uri?)).Pairwise
      fun a b => a = some uri → b ≠ some uri from List.pairwise_map.1 apart
  rw [named, List.pairwise_map]
  refine (pairwise_heads _).imp fun {a b} other here => ?_
  simpa [here] using other

/-- The reference to the group that a member begins is the only one with its namespace. -/
theorem filter_uri?_driver {n : Nat} {head : Location × Option String} {uri : String}
    (begins : (heads (namedMembers store paths))[n]? = some head) (same : head.2 = some uri) :
    (mentions bundle.driver).filter (·.uri? = some uri) =
      [(linkOf (namedMembers store paths) n head).mention] := by
  refine filter_eq_singleton ?_ ?_ (pairwise_uri?_driver made uri)
  · rw [(refersTo_driver made).mentions]
    exact List.mem_map_of_mem (mem_driverLinks_iff.2 ⟨n, head, begins, rfl⟩)
  · rw [Link.mention_uri?, uri?_linkOf, same]

/-- Nothing in a driver leads to a member that shares its namespace. -/
theorem location?_ne_of_isShared (apart : WrappersAreApart store paths)
    {member : Location × Option String} (listed : member ∈ namedMembers store paths)
    (shared : IsShared (namedMembers store paths) member) :
    ∀ m ∈ mentions bundle.driver, m.location? ≠ some (address member.1) := by
  rw [(refersTo_driver made).mentions, List.forall_mem_map]
  intro link among
  obtain ⟨n, head, begins, rfl⟩ := mem_driverLinks_iff.1 among
  rw [Link.mention_location?]
  intro here
  replace here := address_injective (Option.some.inj here)
  by_cases wrapped : IsShared (namedMembers store paths) head
  · rw [location_linkOf_of_isShared n wrapped] at here
    exact member_ne_wrapperLocation made apart listed begins wrapped here.symm
  · rw [location_linkOf_of_not_isShared n wrapped] at here
    have equal :=
      List.inj_on_of_nodup_map (nodup_namedMembers made) (mem_of_begins begins) listed here
    exact wrapped (equal ▸ shared)

/-- A member without namespace is included, and nothing else leads to it. -/
theorem filter_location?_driver (apart : WrappersAreApart store paths) {l : Location}
    (member : (l, none) ∈ namedMembers store paths) :
    (mentions bundle.driver).filter (·.location? = some (address l)) = [includeOf l] := by
  obtain ⟨n, begins⟩ := List.mem_iff_getElem?.1 (mem_heads_of_none _ member)
  refine filter_eq_singleton ?_ rfl ?_
  · rw [(refersTo_driver made).mentions]
    exact List.mem_map.2 ⟨.includes l, mem_driverLinks_iff.2 ⟨n, _, begins, rfl⟩, rfl⟩
  · exact (List.pairwise_map.1 (nodup_location?_driver made apart)).imp
      fun other here there => other (here.trans there.symm)

end

/-- A wrapper document makes the references that it is made for. -/
theorem refersTo_wrapper (uri : String) (ls : List Location) :
    RefersTo (writeSchema (some uri) (ls.map .includes)) (some uri) (ls.map includeOf) := by
  have refers := refersTo_writeSchema (some uri) (ls.map .includes)
  rwa [List.map_map] at refers

theorem filter_location?_map_includeOf {ls : List Location} (once : ls.Nodup) {l : Location}
    (member : l ∈ ls) :
    (ls.map includeOf).filter (·.location? = some (address l)) = [includeOf l] := by
  refine filter_eq_singleton (List.mem_map_of_mem member) rfl ?_
  rw [List.pairwise_map]
  refine once.imp fun {a b} other here there => other ?_
  exact address_injective (Option.some.inj (here.trans there.symm))

/-- A bundle whose wrapper documents are apart from the documents of its closure leads to every
    member once. -/
theorem isLinked_load (made : (Bundle.load store paths).outcome = .ok bundle)
    (apart : WrappersAreApart store paths) : bundle.IsLinked store paths := by
  refine ⟨?_, refersTo_driver made, nodup_location?_driver made apart,
    fun l member => filter_location?_driver made apart member, ?_, ?_⟩
  · rw [members_of_load made, namedMembers, List.map_map]
    exact (List.map_id _).symm
  · intro uri l only
    have member : (l, some uri) ∈ namedMembers store paths := by simp [← mem_membersOf_iff, only]
    obtain ⟨n, first, begins⟩ := exists_begins member
    obtain rfl : first = l := by
      simpa [only] using mem_membersOf_iff.2 (mem_of_begins begins)
    rw [filter_uri?_driver made begins rfl]
    simp [linkOf, only, Link.mention, importOf]
  · intro uri several
    obtain ⟨l, member⟩ := List.exists_mem_of_length_pos (Nat.lt_of_lt_of_le Nat.two_pos several)
    obtain ⟨n, first, begins⟩ := exists_begins (mem_membersOf_iff.1 member)
    have wrapper : IsWrapper store paths (wrapperLocation n) _ :=
      ⟨n, first, uri, rfl, begins, several, rfl⟩
    have refers := refersTo_wrapper uri (membersOf uri (namedMembers store paths))
    have once : (membersOf uri (namedMembers store paths)).Nodup :=
      (nodup_namedMembers made).sublist (List.filter_sublist.map _)
    refine ⟨n, _, ?_, (document?_load made _ _).2 (.inl wrapper), refers, fun l member => ⟨?_, ?_⟩⟩
    · rw [filter_uri?_driver made begins rfl]
      simp [linkOf, several, Link.mention, importOf]
    · rw [refers.mentions, filter_location?_map_includeOf once member]
    · exact location?_ne_of_isShared made apart (mem_membersOf_iff.1 member) ⟨uri, rfl, several⟩

/-! ## Members with markup in their names -/

/-- A schema that holds nothing, with the value of its target namespace as it is written. -/
def namedSchema (value : String) : Bytes :=
  ascii "<xs:schema xmlns:xs=\"http://www.w3.org/2001/XMLSchema\" targetNamespace=\"" ++
    ascii value ++ ascii "\"/>"

/-- Two members of one namespace, one without namespace between them, and one of another. -/
def markupStore : Store where
  documents :=
    [(⟨["a&b.xsd"], by decide, by decide⟩, namedSchema "u&#60;&#38;'"),
      (⟨["<.xsd"], by decide, by decide⟩, writeSchema none []),
      (⟨["b\".xsd"], by decide, by decide⟩, namedSchema "u&#60;&#38;'"),
      (⟨["c'.xsd"], by decide, by decide⟩, namedSchema "v&#34;")]
  distinct := by decide

def markupPaths : List String := ["a&b.xsd", "<.xsd", "b\".xsd", "c'.xsd"]

theorem wrappersAreApart_markupStore : WrappersAreApart markupStore markupPaths := by
  rintro d isIn - wrapper ⟨n, -, -, place, -⟩
  have short : ∀ l ∈ markupStore.documents.map (·.1), l.segments.length = 1 := by decide
  have one := short _ (Store.mem_documents_of_document? isIn)
  rw [place] at one
  simp [wrapperLocation] at one

/-- Members are led to whatever markup there is in their locations and namespaces. -/
theorem isLinked_markupStore :
    ∃ bundle, (Bundle.load markupStore markupPaths).outcome = .ok bundle ∧
      namedMembers markupStore markupPaths =
        (markupStore.documents.map (·.1)).zip [some "u<&'", none, some "u<&'", some "v\""] ∧
      bundle.IsLinked markupStore markupPaths := by
  have loads : (Bundle.load markupStore markupPaths).outcome.isOk = true := by decide +kernel
  obtain ⟨bundle, made⟩ := isOk_iff.1 loads
  exact ⟨bundle, made, by decide +kernel, isLinked_load made wrappersAreApart_markupStore⟩

end MessageConformance.Schema
