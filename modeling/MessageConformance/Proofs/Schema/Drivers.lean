import MessageConformance.Proofs.Results
import MessageConformance.Proofs.Schema.Groups
import MessageConformance.Proofs.Store.Paths
import MessageConformance.Proofs.Text.AsciiBytes

/-!
# Building drivers

A group of several members is given a wrapper document at a location of its own
(`parse?_wrapperPath`, `wrapperLocation_injective`), which has a NUL byte exactly if there is a NUL
in its namespace or in the location of a member (`zero_mem_wrapper_iff`). A driver is built unless a wrapper has one
(`buildDriver_eq_ok_iff`, `wrappers_nulFree_iff`), and nothing but wrappers is added to the
catalog, each in the place of what was at its location (`document?_withWrappers_eq_or`).
-/

namespace MessageConformance.Schema

open Bytes

/-! ## Wrapper locations -/

/-- The name of a wrapper document. -/
def wrapperName (position : Nat) : String := toString position ++ ".xsd"

theorem wrapperName_injective {m n : Nat} (same : wrapperName m = wrapperName n) : m = n := by
  have texts : (toString m).toList = (toString n).toList := by
    simpa [wrapperName] using congrArg String.toList same
  have digits : Nat.toDigits 10 m = Nat.toDigits 10 n := by
    simpa only [Nat.toString_eq_repr, Nat.toList_repr] using texts
  simpa using congrArg (Nat.ofDigitChars 10 · 0) digits

theorem isPlain_wrapperName (position : Nat) : IsPlain (wrapperName position) := by
  have long : 4 < (wrapperName position).toList.length := by
    simp [wrapperName, Nat.toString_eq_repr, Nat.toList_repr, List.length_pos_iff,
      Nat.toDigits_ne_nil]
  have short {s : String} (few : s.toList.length ≤ 4) : wrapperName position ≠ s := by
    rintro rfl
    omega
  refine ⟨short (by decide), short (by decide), short (by decide), fun slash => ?_⟩
  simp only [wrapperName, String.toList_append, List.mem_append, Nat.toString_eq_repr,
    Nat.toList_repr] at slash
  obtain digit | extension := slash
  · exact absurd (Nat.isDigit_of_mem_toDigits (by decide) (by decide) digit) (by decide)
  · exact absurd extension (by decide)

/-- The location of a wrapper document. -/
def wrapperLocation (position : Nat) : Location where
  segments := [".bundle", wrapperName position]
  nonempty := by simp
  plain := by
    intro segment member
    obtain rfl | member := List.mem_cons.1 member
    · decide
    · exact List.mem_singleton.1 member ▸ isPlain_wrapperName position

theorem parse?_wrapperPath (position : Nat) :
    Location.parse? (wrapperPath position) = some (wrapperLocation position) := by
  have plain := isPlain_wrapperName position
  have path : wrapperPath position =
      ".bundle" ++ String.singleton '/' ++ wrapperName position := by
    simp only [wrapperPath, wrapperName, ← String.append_assoc]
    rfl
  rw [Location.parse?_eq_some_iff, path, Text.split_append, Text.split_of_free (by decide),
    Text.split_of_free plain.2.2.2]
  simp [Location.collapse, plain.1, plain.2.1, plain.2.2.1, wrapperLocation]

theorem wrapperLocation_injective {m n : Nat} (same : wrapperLocation m = wrapperLocation n) :
    m = n := by
  simp only [wrapperLocation, Location.mk.injEq, List.cons.injEq, true_and, and_true] at same
  exact wrapperName_injective same

/-! ## Written schemas -/

theorem zero_mem_written_ofText_iff {name : Bytes} (nulFree : 0 ∉ name) (value : String) :
    0 ∈ (Attribute.ofText name value).written ↔ '\x00' ∈ value.toList := by
  have space : (0 : UInt8) ≠ byte ' ' := by decide
  have equals : (0 : UInt8) ∉ ascii "=\"" := by decide
  have quote : (0 : UInt8) ≠ byte '"' := by decide
  simp [Attribute.written, Attribute.ofText, space, equals, quote, nulFree, zero_mem_ofText_iff,
    Markup.nul_mem_escapeText_iff]

theorem zero_mem_writeTag_iff (name : Bytes) (attributes : List Attribute) (isEmpty : Bool) :
    0 ∈ writeTag name attributes isEmpty ↔ 0 ∈ name ∨ ∃ a ∈ attributes, 0 ∈ a.written := by
  have start : (0 : UInt8) ≠ byte '<' := by decide
  have finish : (0 : UInt8) ∉ (if isEmpty then ascii "/>" else [byte '>']) := by
    cases isEmpty <;> decide
  simp [writeTag, start, finish, List.mem_flatMap]

theorem nul_mem_address_iff (l : Location) : '\x00' ∈ (address l).toList ↔ '\x00' ∈ l.text.toList := by
  have start : '\x00' ∉ addressStart.toList := by decide
  simp [address, start]

theorem zero_mem_written_includes_iff (l : Location) :
    0 ∈ (Link.includes l).written ↔ '\x00' ∈ l.text.toList := by
  have name : (0 : UInt8) ∉ ascii "xs:include" := by decide
  have location : (0 : UInt8) ∉ locationName := by decide
  simp [Link.written, zero_mem_writeTag_iff, name, zero_mem_written_ofText_iff location,
    nul_mem_address_iff]

/-- A wrapper document has a NUL byte when there is a NUL in its namespace or in the location of a
    member. -/
theorem zero_mem_wrapper_iff (uri : String) (members : List Location) :
    0 ∈ writeSchema (some uri) (members.map .includes) ↔
      '\x00' ∈ uri.toList ∨ ∃ m ∈ members, '\x00' ∈ m.text.toList := by
  have name : (0 : UInt8) ∉ ascii "xs:schema" := by decide
  have target : (0 : UInt8) ∉ targetName := by decide
  have space : (0 : UInt8) ∉ (⟨ascii "xmlns:xs", schemaSpace⟩ : Attribute).written := by decide
  have close : (0 : UInt8) ∉ ascii "</xs:schema>" := by decide
  simp [writeSchema, zero_mem_writeTag_iff, name, space, close, List.flatMap_map, List.mem_flatMap,
    zero_mem_written_ofText_iff target, zero_mem_written_includes_iff]

/-! ## Wrappers -/

namespace Group

/-- The wrapper document of a group, if it has one. -/
def wrapper? : Group → Option Bytes
  | ⟨none, _⟩ => none
  | ⟨some _, [_]⟩ => none
  | ⟨some uri, members⟩ => some (writeSchema (some uri) (members.map .includes))

/-- The references to a group at a position. -/
def links (position : Nat) : Group → List Link
  | ⟨none, members⟩ => members.map .includes
  | ⟨some uri, [member]⟩ => [.imports uri member]
  | ⟨some uri, _⟩ => [.imports uri (wrapperLocation position)]

theorem wrapper?_eq_some_iff (group : Group) (content : Bytes) :
    group.wrapper? = some content ↔
      group.members.length ≠ 1 ∧ ∃ uri, group.targetNamespace = some uri ∧
        content = writeSchema (some uri) (group.members.map .includes) := by
  obtain ⟨targetNamespace, members⟩ := group
  cases targetNamespace with
  | none => simp [wrapper?]
  | some uri =>
    match members with
    | [] => simp [wrapper?, eq_comm (a := content)]
    | [_] => simp [wrapper?]
    | _ :: _ :: _ => simp [wrapper?, eq_comm (a := content)]

end Group

/-- The wrapper document that is made at a location for some groups, numbered from a position
    on. -/
def wrapperAt? (l : Location) (position : Nat) : List Group → Option Bytes
  | [] => none
  | group :: groups =>
    (wrapperAt? l (position + 1) groups).or
      (if l = wrapperLocation position then group.wrapper? else none)

theorem wrapperAt?_eq_some_iff (l : Location) (position : Nat) (groups : List Group)
    (content : Bytes) :
    wrapperAt? l position groups = some content ↔
      ∃ n group, l = wrapperLocation (position + n) ∧ groups[n]? = some group ∧
        group.wrapper? = some content := by
  induction groups generalizing position content with
  | nil => simp [wrapperAt?]
  | cons group groups ih =>
    rw [wrapperAt?, Option.or_eq_some_iff]
    constructor
    · rintro (later | ⟨-, here⟩)
      · obtain ⟨n, group', rfl, listed, wrapped⟩ := (ih (position + 1) content).1 later
        exact ⟨n + 1, group', by rw [Nat.add_right_comm, Nat.add_assoc], listed, wrapped⟩
      · by_cases place : l = wrapperLocation position
        · rw [if_pos place] at here
          exact ⟨0, group, place, rfl, here⟩
        · simp [place] at here
    · rintro ⟨n, group', rfl, listed, wrapped⟩
      cases n with
      | zero =>
        obtain rfl : group = group' := by simpa using listed
        refine .inr ⟨?_, by simpa using wrapped⟩
        -- Later groups have later positions.
        refine Option.eq_none_iff_forall_ne_some.2 fun content' later => ?_
        obtain ⟨m, -, same, -⟩ := (ih (position + 1) content').1 later
        have := wrapperLocation_injective same
        omega
      | succ n =>
        refine .inl ((ih (position + 1) content).2 ⟨n, group', ?_, by simpa using listed, wrapped⟩)
        rw [Nat.add_right_comm, Nat.add_assoc]

namespace Catalog

/-- A catalog with the wrapper document of a group at a position, if it has one. -/
def withWrapper (catalog : Catalog) (position : Nat) (group : Group) : Catalog :=
  match group.wrapper? with
  | none => catalog
  | some content => ⟨Store.put (wrapperLocation position) content catalog.documents⟩

/-- A catalog with the wrapper documents of groups, numbered from a position on. -/
def withWrappers (catalog : Catalog) (position : Nat) : List Group → Catalog
  | [] => catalog
  | group :: groups => (catalog.withWrapper position group).withWrappers (position + 1) groups

/-- A wrapper document is found in the place of what was at its location. -/
theorem document?_withWrappers_eq_or (l : Location) (catalog : Catalog) (position : Nat)
    (groups : List Group) :
    (catalog.withWrappers position groups).document? l =
      (wrapperAt? l position groups).or (catalog.document? l) := by
  induction groups generalizing catalog position with
  | nil => rfl
  | cons group groups ih =>
    have here : (catalog.withWrapper position group).document? l =
        (if l = wrapperLocation position then group.wrapper? else none).or
          (catalog.document? l) := by
      rw [withWrapper]
      cases group.wrapper? with
      | none => simp
      | some content =>
        rw [document?, Store.lookup_put]
        by_cases place : l = wrapperLocation position <;> simp [place, document?]
    rw [withWrappers, ih, here, wrapperAt?, Option.or_assoc]

theorem document?_withWrappers {l : Location} (other : ∀ n, l ≠ wrapperLocation n)
    (catalog : Catalog) (position : Nat) (groups : List Group) :
    (catalog.withWrappers position groups).document? l = catalog.document? l := by
  have unwrapped : wrapperAt? l position groups = none := by
    refine Option.eq_none_iff_forall_ne_some.2 fun content here => ?_
    obtain ⟨n, -, same, -⟩ := (wrapperAt?_eq_some_iff l position groups content).1 here
    exact other (position + n) same
  rw [document?_withWrappers_eq_or, unwrapped, Option.none_or]

end Catalog

/-- The references to groups, numbered from a position on. -/
def linksOf (position : Nat) : List Group → List Link
  | [] => []
  | group :: groups => group.links position ++ linksOf (position + 1) groups

theorem linkGroup_eq_ok_iff (catalog : Catalog) (position : Nat) (group : Group)
    (made : Catalog × List Link) :
    linkGroup catalog position group = .ok made ↔
      (∀ content, group.wrapper? = some content → 0 ∉ content) ∧
        made = (catalog.withWrapper position group, group.links position) := by
  obtain ⟨targetNamespace, members⟩ := group
  cases targetNamespace with
  | none =>
    simp [linkGroup, Catalog.withWrapper, Group.wrapper?, Group.links, eq_comm (a := made)]
  | some uri =>
    have several (ls : List Location) :
        (do
          let catalog ← catalog.insert (wrapperLocation position)
            (writeSchema (some uri) (ls.map .includes))
          return (catalog, [Link.imports uri (wrapperLocation position)]) :
            Except SchemaFailure (Catalog × List Link)) = .ok made ↔
        0 ∉ writeSchema (some uri) (ls.map .includes) ∧
          made = (⟨Store.put (wrapperLocation position)
            (writeSchema (some uri) (ls.map .includes)) catalog.documents⟩,
            [.imports uri (wrapperLocation position)]) := by
      rw [bind_eq_ok_iff, Catalog.insert]
      by_cases nul : 0 ∈ writeSchema (some uri) (ls.map .includes)
      · simp [nul]
      · simp [nul, pure, Except.pure, eq_comm (a := made)]
    match members with
    | [member] =>
      simp [linkGroup, Catalog.withWrapper, Group.wrapper?, Group.links, eq_comm (a := made)]
    | [] =>
      simp only [linkGroup, parse?_wrapperPath]
      simpa [Catalog.withWrapper, Group.wrapper?, Group.links] using several []
    | first :: second :: rest =>
      simp only [linkGroup, parse?_wrapperPath]
      simpa [Catalog.withWrapper, Group.wrapper?, Group.links]
        using several (first :: second :: rest)

theorem linkGroups_eq_ok_iff (catalog : Catalog) (position : Nat) (groups : List Group)
    (made : Catalog × List Link) :
    linkGroups catalog position groups = .ok made ↔
      (∀ group ∈ groups, ∀ content, group.wrapper? = some content → 0 ∉ content) ∧
        made = (catalog.withWrappers position groups, linksOf position groups) := by
  induction groups generalizing catalog position made with
  | nil => simp [linkGroups, Catalog.withWrappers, linksOf, eq_comm (a := made)]
  | cons group groups ih =>
    simp only [linkGroups, bind_eq_ok_iff, linkGroup_eq_ok_iff, ih, List.forall_mem_cons,
      Catalog.withWrappers, linksOf]
    constructor
    · rintro ⟨_, ⟨here, rfl⟩, _, ⟨later, rfl⟩, rest⟩
      exact ⟨⟨here, later⟩, (Except.ok.inj rest).symm⟩
    · rintro ⟨⟨here, later⟩, rfl⟩
      exact ⟨_, ⟨here, rfl⟩, _, ⟨later, rfl⟩, rfl⟩

/-- A driver is built unless a wrapper document has a NUL byte. -/
theorem buildDriver_eq_ok_iff (catalog : Catalog) (members : List (Location × Option String))
    (made : Catalog × Bytes) :
    buildDriver catalog members = .ok made ↔
      (∀ group ∈ groupsOf members, ∀ content, group.wrapper? = some content → 0 ∉ content) ∧
        made = (catalog.withWrappers 0 (groupsOf members),
          writeSchema none (linksOf 0 (groupsOf members))) := by
  simp only [buildDriver, bind_eq_ok_iff, linkGroups_eq_ok_iff]
  constructor
  · rintro ⟨_, ⟨nulFree, rfl⟩, rest⟩
    exact ⟨nulFree, (Except.ok.inj rest).symm⟩
  · rintro ⟨nulFree, rfl⟩
    exact ⟨_, ⟨nulFree, rfl⟩, rfl⟩

/-- No wrapper document has a NUL byte when there is a NUL in no namespace that members share and
    in the location of no member that shares its own. -/
theorem wrappers_nulFree_iff (members : List (Location × Option String)) :
    (∀ group ∈ groupsOf members, ∀ content, group.wrapper? = some content → 0 ∉ content) ↔
      ∀ uri, 2 ≤ (membersOf uri members).length →
        '\x00' ∉ uri.toList ∧ ∀ m ∈ membersOf uri members, '\x00' ∉ m.text.toList := by
  have clean (uri : String) (ls : List Location) :
      0 ∉ writeSchema (some uri) (ls.map .includes) ↔
        '\x00' ∉ uri.toList ∧ ∀ m ∈ ls, '\x00' ∉ m.text.toList := by
    simp [zero_mem_wrapper_iff]
  simp only [Group.wrapper?_eq_some_iff]
  constructor
  · intro nulFree uri several
    have listed := (mem_groupsOf_iff uri (membersOf uri members) members).2
      ⟨rfl, List.ne_nil_of_length_pos (by omega)⟩
    exact (clean uri _).1 (nulFree _ listed _ ⟨Nat.ne_of_gt several, uri, rfl, rfl⟩)
  · rintro nulFree ⟨_, ls⟩ listed _ ⟨notOne, uri, rfl, rfl⟩
    obtain ⟨rfl, some⟩ := (mem_groupsOf_iff uri ls members).1 listed
    refine (clean uri _).2 (nulFree uri ?_)
    have := List.length_pos_iff.2 some
    have : (membersOf uri members).length ≠ 1 := notOne
    omega

end MessageConformance.Schema
