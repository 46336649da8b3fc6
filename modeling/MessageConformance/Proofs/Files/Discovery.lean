import MessageConformance.Proofs.Files.Trees
import MessageConformance.Proofs.Store.Paths

/-!
# Which files are found

A search that follows no links finds the files of a tree that are reached through readable
directories, not too deep, and that have one of the extensions sought (`IsSought`), each once and
in ascending order of the steps of their paths; and it counts the directories that it had to look
into and could not (`IsLost`). `discover_isOf` says so for every tree, and that the order in which
its directories are listed makes no difference.
-/

namespace MessageConformance

/-! ## Extensions -/

namespace Files

/-- The extension of a name is what follows its last dot, unless the name begins with that. -/
theorem extensionOf?_eq_some_iff {name extension : String} :
    extensionOf? name = some extension ↔
      ∃ stem, stem ≠ "" ∧ name = stem ++ "." ++ extension ∧ '.' ∉ extension.toList := by
  have shape (stem : String) : name = stem ++ "." ++ extension ↔
      name.toList.reverse = extension.toList.reverse ++ '.' :: stem.toList.reverse := by
    rw [← String.toList_inj, ← List.reverse_inj]
    simp
  unfold extensionOf?
  constructor
  · intro found
    split at found
    · next after before cut =>
      obtain ⟨c, parts, dot, passed⟩ := Text.cutOnce_eq_some_iff.1 cut
      split at found
      · cases found
      · next nonempty =>
        obtain rfl := Option.some.inj found
        obtain rfl : c = '.' := by simpa using dot
        refine ⟨.ofList before.reverse, ?_, (shape _).2 (by simpa using parts), ?_⟩
        · intro empty
          have nothing : before = [] := by simpa [← String.toList_inj] using empty
          simp [nothing] at nonempty
        · intro member
          rw [String.toList_ofList, List.mem_reverse] at member
          simpa using passed '.' member
    · cases found
  · rintro ⟨stem, nonempty, parts, last⟩
    have cut : Text.cutOnce (· == '.') name.toList.reverse =
        some (extension.toList.reverse, stem.toList.reverse) := by
      refine Text.cutOnce_eq_some_iff.2 ⟨'.', (shape stem).1 parts, by simp, ?_⟩
      intro b member
      simpa using fun same : b = '.' => last (same ▸ List.mem_reverse.1 member)
    simp [cut, nonempty]

/-- A plain name is the one step of itself as a path. -/
theorem steps_of_isPlain {name : String} (plain : IsPlain name) : steps name = [name] := by
  obtain ⟨named, notHere, -, free⟩ := plain
  simp [steps, Text.split_of_free free, named, notHere]

/-- A name has an extension whose lower-case form is that of one of some others. -/
def HasExtensionOf (configured : List String) (name : String) : Prop :=
  ∃ stem extension, stem ≠ "" ∧ name = stem ++ "." ++ extension ∧ '.' ∉ extension.toList ∧
    ∃ sought ∈ configured, Text.lower sought = Text.lower extension

theorem accepts_iff {s : Search} {configured : List String}
    (lowered : s.extensions = configured.map Text.lower) {name : String} (plain : IsPlain name) :
    s.accepts name = true ↔ HasExtensionOf configured name := by
  have own : extension? name = extensionOf? name := by
    simp [extension?, fileName?, steps_of_isPlain plain, Option.filter, plain.2.2.1]
  have accepted : s.accepts name = true ↔
      ∃ extension, extensionOf? name = some extension ∧
        ∃ sought ∈ configured, Text.lower sought = Text.lower extension := by
    rw [Search.accepts, hasExtension, own, lowered]
    cases extensionOf? name <;> simp
  rw [accepted]
  simp only [extensionOf?_eq_some_iff, HasExtensionOf]
  constructor
  · rintro ⟨extension, ⟨stem, nonempty, parts, last⟩, among⟩
    exact ⟨stem, extension, nonempty, parts, last, among⟩
  · rintro ⟨stem, extension, nonempty, parts, last, among⟩
    exact ⟨extension, ⟨stem, nonempty, parts, last⟩, among⟩

/-! ## Order -/

/-- Names come first or are the same exactly if the others do not come before them. -/
theorem comesFirst_iff (a b : List String) : comesFirst a b = true ↔ ¬ b < a := by
  induction a generalizing b with
  | nil => simp [comesFirst]
  | cons first as ih =>
    cases b with
    | nil => simp [comesFirst]
    | cons second bs =>
      rw [List.cons_lt_cons_iff, comesFirst, Bool.or_eq_true, Bool.and_eq_true, ih]
      simp only [decide_eq_true_eq, beq_iff_eq, not_or, not_and]
      constructor
      · rintro (before | ⟨rfl, after⟩)
        · exact ⟨String.lt_asymm before,
            fun same => absurd (same ▸ before) (String.lt_irrefl _)⟩
        · exact ⟨String.lt_irrefl _, fun _ => after⟩
      · rintro ⟨notAfter, tie⟩
        by_cases same : first = second
        · exact .inr ⟨same, tie same.symm⟩
        · refine .inl (Classical.byContradiction fun notBefore => same ?_)
          exact String.le_antisymm (String.not_lt.1 notAfter) (String.not_lt.1 notBefore)

/-- Below a path, a name is one more step. -/
theorem steps_join_plain (path : String) {name : String} (plain : IsPlain name) :
    steps (join path name) = steps path ++ [name] := by
  have single : (Location.mk [name] (by simp) (by simpa using plain)).text = name :=
    String.intercalate_singleton
  have joined := Location.steps_join path (Location.mk [name] (by simp) (by simpa using plain))
  rwa [single] at joined

theorem steps_foldl_join (path : String) {names : List String}
    (plain : ∀ name ∈ names, IsPlain name) :
    steps (names.foldl join path) = steps path ++ names := by
  induction names generalizing path with
  | nil => simp
  | cons name names ih =>
    rw [List.forall_mem_cons] at plain
    rw [List.foldl_cons, ih _ plain.2, steps_join_plain path plain.1, List.append_assoc]
    rfl

theorem comesFirst_trans (a b c : List String) (ab : comesFirst a b = true)
    (bc : comesFirst b c = true) : comesFirst a c = true := by
  rw [comesFirst_iff] at ab bc ⊢
  exact List.not_lt.2 (List.le_trans (List.not_lt.1 ab) (List.not_lt.1 bc))

theorem comesFirst_total (a b : List String) : (comesFirst a b || comesFirst b a) = true := by
  rw [Bool.or_eq_true, comesFirst_iff, comesFirst_iff, List.not_lt, List.not_lt]
  exact List.le_total a b

/-- Lists of names that differ, in order, are in strict order. -/
theorem pairwise_mergeSort_comesFirst {trails : List (List String)} (nodup : trails.Nodup) :
    (trails.mergeSort comesFirst).Pairwise (· < ·) := by
  have sorted := List.pairwise_mergeSort comesFirst_trans comesFirst_total trails
  have apart : (trails.mergeSort comesFirst).Nodup := (List.mergeSort_perm _ _).nodup_iff.2 nodup
  refine (sorted.and apart).imp ?_
  rintro a b ⟨first, different⟩
  refine Classical.byContradiction fun notBefore => different ?_
  exact List.le_antisymm (List.not_lt.1 ((comesFirst_iff a b).1 first)) (List.not_lt.1 notBefore)

/-- In order, lists of names depend on which they are, not on the order they were in. -/
theorem mergeSort_eq_of_perm {trails trails' : List (List String)} (same : trails.Perm trails') :
    trails.mergeSort comesFirst = trails'.mergeSort comesFirst := by
  have sorted (trails : List (List String)) :
      (trails.mergeSort comesFirst).Pairwise fun a b => comesFirst a b = true :=
    List.pairwise_mergeSort comesFirst_trans comesFirst_total trails
  refine List.Perm.eq_of_pairwise (fun a b _ _ ab ba => ?_) (sorted trails) (sorted trails') ?_
  · rw [comesFirst_iff] at ab ba
    exact List.le_antisymm (List.not_lt.1 ab) (List.not_lt.1 ba)
  · exact (List.mergeSort_perm _ _).trans (same.trans (List.mergeSort_perm _ _).symm)

/-! ## Findings -/

/-- Names lead to a file that is looked for: with no more directories between than the limit, and
    with one of the extensions. -/
def IsSought (configured : List String) (limit : Option Nat) (entries : Directory)
    (names : List String) : Prop :=
  (∃ content, Leads (.directory entries) names (.file content)) ∧
    (∀ most ∈ limit, names.dropLast.length ≤ most) ∧
    ∃ name ∈ names.getLast?, HasExtensionOf configured name

/-- Names lead to a directory that has to be looked into, as files in it would not be too deep,
    and that is closed. -/
def IsLost (limit : Option Nat) (entries : Directory) (names : List String) : Prop :=
  Leads (.directory entries) names .closed ∧ ∀ most ∈ limit, names.length ≤ most

/-- So many lists of names have a property. -/
def Counts (number : Nat) (holds : List String → Prop) : Prop :=
  ∃ all : List (List String), all.Nodup ∧ (∀ names, names ∈ all ↔ holds names) ∧
    number = all.length

/-- What is found below a path is what the tree there holds. -/
structure Discovery.IsOf (configured : List String) (limit : Option Nat) (path : String)
    (entries : Directory) (d : Discovery) : Prop where
  files : ∀ file, file ∈ d.files ↔
    ∃ names, IsSought configured limit entries names ∧ names.foldl join path = file
  ascending : d.files.Pairwise fun a b => steps a < steps b
  found : Counts d.found (IsSought configured limit entries)
  errors : Counts d.errors (IsLost limit entries)

/-- A search for some extensions, no deeper than a limit, that follows no links. -/
def Search.limited (configured : List String) (limit : Option Nat) : Search :=
  { Search.ofExtensions configured with maxDepth := limit }

section

variable {s : Search} {entries : Directory} {names : List String} {found : Entry}

/-- In a directory the leaves are the entries that are examined, as deep as there are names before
    the last one. -/
theorem mem_leavesIn_zero_iff : (names, found) ∈ leavesIn s 0 entries ↔
    Leads (.directory entries) names found ∧ s.examines names.dropLast.length found := by
  rw [mem_leavesIn_iff entries s.reaches_zero]
  constructor
  · rintro ⟨name, inner, entry, rfl, listed, leads, examined⟩
    refine ⟨.through listed leads, ?_⟩
    rwa [List.length_dropLast, List.length_cons, Nat.add_sub_cancel, ← Nat.zero_add inner.length]
  · rintro ⟨leads, examined⟩
    cases leads with
    | here => cases examined
    | through listed leads =>
      rw [List.length_dropLast, List.length_cons, Nat.add_sub_cancel] at examined
      exact ⟨_, _, _, rfl, listed, leads, (Nat.zero_add _).symm ▸ examined⟩

theorem mem_trails_ofLeaves_iff {found : List (List String × Entry)} :
    names ∈ (Haul.ofLeaves s found).trails ↔
      (∃ content, (names, .file content) ∈ found) ∧ s.accepts (names.getLast?.getD "") = true := by
  simp only [Haul.ofLeaves, List.mem_map, List.mem_filter, Bool.and_eq_true]
  constructor
  · rintro ⟨⟨names, entry⟩, ⟨member, isFile, accepted⟩, rfl⟩
    obtain ⟨content, rfl⟩ := entry.isFile_iff.1 isFile
    exact ⟨⟨content, member⟩, accepted⟩
  · rintro ⟨⟨content, member⟩, accepted⟩
    exact ⟨(names, .file content), ⟨member, rfl, accepted⟩, rfl⟩

end

/-- What a search that follows no links brings back from a directory. -/
def Search.haul (s : Search) (entries : Directory) : Haul := .ofLeaves s (leavesIn s 0 entries)

/-- A haul in order, below a path. -/
def Discovery.ofHaul (path : String) (haul : Haul) : Discovery :=
  ⟨(haul.trails.mergeSort comesFirst).map (·.foldl join path), haul.errors⟩

theorem discover_eq_ofHaul {v : Volume} {s : Search} (stays : s.followsLinks = false)
    {path : String} {place : Place} {entries : Directory} (located : v.locate path = .ok place)
    (readable : place.entry = .directory entries) :
    discover v s path = .ok (.ofHaul path (s.haul entries)) := by
  have explored := exploreAll_eq stays place.budget place.around 0 [] entries
  simp only [List.nil_append, List.map_id'] at explored
  simp only [discover, located, readable, explored]
  rfl

/-- The order in which directories are listed makes no difference to what is found. -/
theorem ofHaul_eq_of_relisted {entries entries' : Directory} (relisted : Relisted entries entries')
    (s : Search) (path : String) :
    Discovery.ofHaul path (s.haul entries) = .ofHaul path (s.haul entries') := by
  have same : (leavesIn s 0 entries).Perm (leavesIn s 0 entries') := perm_leavesIn relisted 0
  have trails : (s.haul entries).trails.Perm (s.haul entries').trails :=
    (same.filter _).map Prod.fst
  have errors : (s.haul entries).errors = (s.haul entries').errors := same.countP_eq _
  rw [Discovery.ofHaul, Discovery.ofHaul, mergeSort_eq_of_perm trails, errors]

section

variable {configured : List String} {limit : Option Nat} {entries : Directory}

theorem mem_trails_haul_iff (tree : IsTree entries) {names : List String} :
    names ∈ ((Search.limited configured limit).haul entries).trails ↔
      IsSought configured limit entries names := by
  have shallow (content : Option Bytes) :
      (Search.limited configured limit).examines names.dropLast.length (.file content) ↔
        ∀ most ∈ limit, names.dropLast.length ≤ most := Iff.rfl
  simp only [Search.haul, mem_trails_ofLeaves_iff, mem_leavesIn_zero_iff, IsSought, shallow,
    exists_and_right, and_assoc]
  refine and_congr_right ?_
  rintro ⟨content, leads⟩
  refine and_congr_right fun _ => ?_
  cases last : names.getLast? with
  | none =>
    obtain rfl := List.getLast?_eq_none_iff.1 last
    cases leads
  | some name =>
    have plain := tree.isPlain_of_leads leads name (List.mem_of_getLast? last)
    simpa using accepts_iff rfl plain

theorem nodup_trails_haul (tree : IsTree entries) (s : Search) : (s.haul entries).trails.Nodup :=
  (nodup_leavesIn tree 0).sublist (List.filter_sublist.map Prod.fst)

/-- The faults are the closed directories that are looked into. -/
theorem counts_errors_haul (tree : IsTree entries) :
    Counts ((Search.limited configured limit).haul entries).errors (IsLost limit entries) := by
  let lost := (leavesIn (.limited configured limit) 0 entries).filter (·.2.isClosed)
  refine ⟨lost.map Prod.fst, (nodup_leavesIn tree 0).sublist (List.filter_sublist.map _),
    fun names => ?_, ?_⟩
  · have closed : names ∈ lost.map Prod.fst ↔
        (names, .closed) ∈ leavesIn (.limited configured limit) 0 entries := by
      simp only [lost, List.mem_map, List.mem_filter]
      constructor
      · rintro ⟨⟨names, entry⟩, ⟨member, isClosed⟩, rfl⟩
        obtain rfl := entry.isClosed_iff.1 isClosed
        exact member
      · exact fun member => ⟨_, ⟨member, rfl⟩, rfl⟩
    rw [closed, mem_leavesIn_zero_iff]
    refine and_congr_right fun leads => ?_
    cases leads with
    | through listed leads => simp [Search.examines, Search.reaches, Search.limited]
  · rw [List.length_map]
    exact List.countP_eq_length_filter

theorem isOf_ofHaul (tree : IsTree entries) (path : String) :
    (Discovery.ofHaul path ((Search.limited configured limit).haul entries)).IsOf
      configured limit path entries where
  files file := by
    simp only [Discovery.ofHaul, List.mem_map, List.mem_mergeSort, mem_trails_haul_iff tree]
  ascending := by
    have order := pairwise_mergeSort_comesFirst
      (nodup_trails_haul tree (.limited configured limit))
    refine List.pairwise_map.2 (order.imp_of_mem fun {a b} memberA memberB before => ?_)
    have plain {names : List String} (member : names ∈
        ((Search.limited configured limit).haul entries).trails.mergeSort comesFirst) :
        ∀ name ∈ names, IsPlain name := by
      rw [List.mem_mergeSort, mem_trails_haul_iff tree] at member
      obtain ⟨⟨content, leads⟩, -⟩ := member
      exact tree.isPlain_of_leads leads
    rw [steps_foldl_join path (plain memberA), steps_foldl_join path (plain memberB)]
    exact List.append_left_lt before
  found := by
    refine ⟨_, nodup_trails_haul tree (.limited configured limit),
      fun names => mem_trails_haul_iff tree, ?_⟩
    simp [Discovery.ofHaul, Discovery.found]
  errors := counts_errors_haul tree

end

/-- In a directory that can be read, a search that follows no links finds what the tree there
    holds; and it finds the same when the directories of the tree are listed in other orders. -/
theorem discover_isOf {v : Volume} {path : String} {place : Place} {entries : Directory}
    (located : v.locate path = .ok place) (readable : place.entry = .directory entries)
    (tree : IsTree entries) (configured : List String) (limit : Option Nat) :
    ∃ d, discover v (.limited configured limit) path = .ok d ∧
      d.IsOf configured limit path entries ∧
      ∀ (v' : Volume) (place' : Place) (entries' : Directory), v'.locate path = .ok place' →
        place'.entry = .directory entries' → Relisted entries entries' →
          discover v' (.limited configured limit) path = .ok d := by
  refine ⟨_, discover_eq_ofHaul rfl located readable, isOf_ofHaul tree path, ?_⟩
  intro v' place' entries' located' readable' relisted
  rw [ofHaul_eq_of_relisted relisted]
  exact discover_eq_ofHaul rfl located' readable'

/-! ## An inbox -/

/-- An inbox that holds a directory, a file whose name comes after that directory, a closed
    directory and a link. -/
def inbox : Directory :=
  [("b", .directory [("y.Xml", .file none)]), ("b-c.xml", .file none), ("private", .closed),
    ("alias.xml", .link "b-c.xml")]

/-- The inbox, listed in another order. -/
def relistedInbox : Directory :=
  [("b-c.xml", .file none), ("b", .directory [("y.Xml", .file none)]), ("private", .closed),
    ("alias.xml", .link "b-c.xml")]

theorem isTree_inbox : IsTree inbox := by
  have inside : ∀ entries, Entry.directory [("y.Xml", .file none)] = .directory entries →
      IsTree entries := by
    rintro _ ⟨⟩
    exact .cons (by decide) (by decide) nofun .nil
  exact .cons (by decide) (by decide) inside <| .cons (by decide) (by decide) nofun <|
    .cons (by decide) (by decide) nofun <| .cons (by decide) (by decide) nofun .nil

/-- A volume that holds nothing but an inbox. -/
def mailbox (inbox : Directory) : Volume := ⟨[("in", .directory inbox)], []⟩

theorem locate_mailbox (inbox : Directory) : (mailbox inbox).locate "in" =
    .ok ⟨.directory inbox, [inbox, [("in", .directory inbox)]], linkLimit⟩ := by
  simp [mailbox, Volume.locate, Volume.around, walk, start, isAbsolute, Text.split, Text.pieces]

theorem haul_inbox : (Search.limited ["XML"] (some 1)).haul inbox =
    ⟨[["b", "y.Xml"], ["b-c.xml"]], 1⟩ := by
  have examined : leavesIn (.limited ["XML"] (some 1)) 0 inbox =
      [(["b", "y.Xml"], .file none), (["b-c.xml"], .file none), (["private"], .closed)] := by
    simp [inbox, leavesIn, leaves, Search.enters, Search.limited]
  rw [Search.haul, examined]
  rfl

/-- The file in the directory comes first, though a hyphen comes before a slash. -/
theorem discover_isOf_inbox :
    (Discovery.mk ["in/b/y.Xml", "in/b-c.xml"] 1).IsOf ["XML"] (some 1) "in" inbox ∧
    discover (mailbox relistedInbox) (.limited ["XML"] (some 1)) "in" =
      .ok ⟨["in/b/y.Xml", "in/b-c.xml"], 1⟩ := by
  have evaluated : discover (mailbox inbox) (.limited ["XML"] (some 1)) "in" =
      .ok ⟨["in/b/y.Xml", "in/b-c.xml"], 1⟩ := by
    rw [discover_eq_ofHaul rfl (locate_mailbox inbox) rfl, haul_inbox, Discovery.ofHaul,
      List.mergeSort_of_pairwise (by decide)]
    rfl
  obtain ⟨d, found, isOf, again⟩ :=
    discover_isOf (locate_mailbox inbox) rfl isTree_inbox ["XML"] (some 1)
  obtain rfl := Except.ok.inj (found.symm.trans evaluated)
  exact ⟨isOf, again _ _ _ (locate_mailbox relistedInbox) rfl (.swap _ _ _)⟩

end Files
end MessageConformance
