import MessageConformance.Files.Discovery
import MessageConformance.Location
import Mathlib.Data.List.Nodup

/-!
# Directory trees

Names lead from an entry to what can be reached from it through directories that can be listed,
and through no link (`Leads`). A search that follows no links examines the files and the closed
directories that are reached in this way and not too deep (`mem_leaves_iff`), each under its own
names (`nodup_leavesIn`), and what it brings back is what these come to (`explore_eq`). The order in
which directories are listed changes the order of the leaves only (`perm_leavesIn`).
-/

namespace MessageConformance.Files

/-! ## Trees -/

/-- The names in a directory can be told apart, and so can those in the directories in it. -/
inductive IsTree : Directory → Prop where
  | nil : IsTree []
  | cons {name : String} {entry : Entry} {rest : Directory} (plain : IsPlain name)
      (fresh : name ∉ rest.map Prod.fst)
      (inside : ∀ entries, entry = .directory entries → IsTree entries) (others : IsTree rest) :
      IsTree ((name, entry) :: rest)

/-- Names lead from an entry to another one, each through a directory that can be listed. -/
inductive Leads : Entry → List String → Entry → Prop where
  | here (entry : Entry) : Leads entry [] entry
  | through {entries : Directory} {name : String} {entry found : Entry} {names : List String}
      (listed : (name, entry) ∈ entries) (leads : Leads entry names found) :
      Leads (.directory entries) (name :: names) found

/-- One directory is another one, listed in another order; and so may be the directories in it. -/
inductive Relisted : Directory → Directory → Prop where
  | refl (entries : Directory) : Relisted entries entries
  | trans {first second third : Directory} :
      Relisted first second → Relisted second third → Relisted first third
  | swap (a b : String × Entry) (rest : Directory) : Relisted (a :: b :: rest) (b :: a :: rest)
  | cons (a : String × Entry) {rest rest' : Directory} :
      Relisted rest rest' → Relisted (a :: rest) (a :: rest')
  | inside (name : String) {entries entries' : Directory} (rest : Directory) :
      Relisted entries entries' →
        Relisted ((name, .directory entries) :: rest) ((name, .directory entries') :: rest)

theorem leads_nil_iff {entry found : Entry} : Leads entry [] found ↔ entry = found :=
  ⟨fun leads => by cases leads; rfl, fun same => same ▸ .here entry⟩

theorem leads_cons_iff {entry found : Entry} {name : String} {names : List String} :
    Leads entry (name :: names) found ↔
      ∃ entries inner, entry = .directory entries ∧ (name, inner) ∈ entries ∧
        Leads inner names found := by
  constructor
  · rintro (_ | ⟨listed, leads⟩)
    exact ⟨_, _, rfl, listed, leads⟩
  · rintro ⟨entries, inner, rfl, listed, leads⟩
    exact .through listed leads

/-- From anything but a directory no names lead on. -/
theorem leads_iff_of_ne_directory {entry found : Entry} {names : List String}
    (leaf : ∀ entries, entry ≠ .directory entries) :
    Leads entry names found ↔ names = [] ∧ found = entry := by
  cases names with
  | nil => simp [leads_nil_iff, eq_comm]
  | cons name names =>
    rw [leads_cons_iff]
    simp [leaf]

/-- The names that lead into a tree are plain. -/
theorem IsTree.isPlain_of_leads {entries : Directory} (tree : IsTree entries)
    {names : List String} {found : Entry} (leads : Leads (.directory entries) names found) :
    ∀ name ∈ names, IsPlain name := by
  have listed {entries : Directory} (tree : IsTree entries) {name : String} {entry : Entry}
      (member : (name, entry) ∈ entries) :
      IsPlain name ∧ ∀ inner, entry = .directory inner → IsTree inner := by
    induction tree with
    | nil => cases member
    | cons plain _ inside _ _ ih =>
      cases member with
      | head => exact ⟨plain, inside⟩
      | tail _ later => exact ih later
  induction names generalizing entries with
  | nil => simp
  | cons name names ih =>
    obtain ⟨_, inner, same, member, leads⟩ := leads_cons_iff.1 leads
    obtain rfl := Entry.directory.inj same
    obtain ⟨plain, inside⟩ := listed tree member
    refine List.forall_mem_cons.2 ⟨plain, ?_⟩
    cases names with
    | nil => simp
    | cons second names =>
      obtain ⟨entries, _, rfl, -, -⟩ := leads_cons_iff.1 leads
      exact ih (inside entries rfl) leads

/-! ## How far a search goes -/

namespace Search

/-- A search goes through so many directories. -/
def reaches (s : Search) (directories : Nat) : Prop := ∀ limit ∈ s.maxDepth, directories ≤ limit

theorem enters_iff (s : Search) (depth : Nat) : s.enters depth = true ↔ s.reaches (depth + 1) := by
  unfold enters reaches
  cases s.maxDepth with
  | none => exact iff_of_true rfl fun _ absent => absurd absent (Option.not_mem_none _)
  | some limit =>
    constructor
    · rintro below _ ⟨⟩
      exact of_decide_eq_true below
    · intro within
      exact decide_eq_true (within limit rfl)

theorem reaches_zero (s : Search) : s.reaches 0 := fun _ _ => Nat.zero_le _

theorem reaches.mono {s : Search} {deep shallow : Nat} (reached : s.reaches deep)
    (above : shallow ≤ deep) : s.reaches shallow :=
  fun limit bound => Nat.le_trans above (reached limit bound)

/-- Whether an entry that so many directories lie before is examined to the end: a file is looked
    at, and a closed directory is looked into. -/
def examines (s : Search) (directories : Nat) : Entry → Prop
  | .file _ => s.reaches directories
  | .closed => s.reaches (directories + 1)
  | _ => False

theorem reaches_of_examines {s : Search} {directories : Nat} {entry : Entry}
    (examined : s.examines directories entry) : s.reaches directories := by
  cases entry with
  | file content => exact examined
  | closed => exact reaches.mono examined (Nat.le_succ _)
  | directory entries => cases examined
  | link target => cases examined
  | special => cases examined

end Search

/-! ## Leaves -/

mutual

/-- The files and closed directories that a search examines at an entry at a depth or below it,
    with the names that lead to each, when it follows no links. -/
def leaves (s : Search) (depth : Nat) : Entry → List (List String × Entry)
  | .file content => [([], .file content)]
  | .directory entries => if s.enters depth then leavesIn s (depth + 1) entries else []
  | .closed => if s.enters depth then [([], .closed)] else []
  | .link _ => []
  | .special => []
termination_by entry => sizeOf entry

/-- The leaves at the entries of a directory or below them. -/
def leavesIn (s : Search) (depth : Nat) : Directory → List (List String × Entry)
  | [] => []
  | (name, entry) :: rest =>
    (leaves s depth entry).map (fun leaf => (name :: leaf.1, leaf.2)) ++ leavesIn s depth rest
termination_by entries => sizeOf entries

end

mutual

theorem mem_leaves_iff {s : Search} {depth : Nat} {names : List String} {found : Entry}
    (entry : Entry) (reached : s.reaches depth) :
    (names, found) ∈ leaves s depth entry ↔
      Leads entry names found ∧ s.examines (depth + names.length) found := by
  cases entry with
  | file content =>
    rw [leads_iff_of_ne_directory (by simp), leaves, List.mem_singleton, Prod.mk.injEq]
    refine (and_iff_left_of_imp ?_).symm
    rintro ⟨rfl, rfl⟩
    exact reached
  | closed =>
    rw [leads_iff_of_ne_directory (by simp), leaves]
    by_cases enters : s.enters depth = true
    · rw [if_pos enters, List.mem_singleton, Prod.mk.injEq]
      refine (and_iff_left_of_imp ?_).symm
      rintro ⟨rfl, rfl⟩
      exact (s.enters_iff depth).1 enters
    · rw [if_neg enters, iff_false_left List.not_mem_nil]
      rintro ⟨⟨rfl, rfl⟩, examined⟩
      exact enters ((s.enters_iff depth).2 examined)
  | link target =>
    rw [leads_iff_of_ne_directory (by simp), leaves, iff_false_left List.not_mem_nil]
    rintro ⟨⟨-, rfl⟩, examined⟩
    exact examined
  | special =>
    rw [leads_iff_of_ne_directory (by simp), leaves, iff_false_left List.not_mem_nil]
    rintro ⟨⟨-, rfl⟩, examined⟩
    exact examined
  | directory entries =>
    have deeper (name : String) (names : List String) :
        depth + (name :: names).length = depth + 1 + names.length := by
      rw [List.length_cons]
      omega
    rw [leaves]
    by_cases enters : s.enters depth = true
    · rw [if_pos enters, mem_leavesIn_iff entries ((s.enters_iff depth).1 enters)]
      constructor
      · rintro ⟨name, names, entry, rfl, listed, leads, examined⟩
        exact ⟨.through listed leads, deeper name names ▸ examined⟩
      · rintro ⟨leads, examined⟩
        cases leads with
        | here => cases examined
        | through listed leads => exact ⟨_, _, _, rfl, listed, leads, deeper _ _ ▸ examined⟩
    · rw [if_neg enters, iff_false_left List.not_mem_nil]
      rintro ⟨leads, examined⟩
      cases leads with
      | here => cases examined
      | through listed leads =>
        refine enters ((s.enters_iff depth).2 ?_)
        exact (Search.reaches_of_examines examined).mono (by rw [deeper]; omega)
termination_by sizeOf entry

theorem mem_leavesIn_iff {s : Search} {depth : Nat} {names : List String} {found : Entry}
    (entries : Directory) (reached : s.reaches depth) :
    (names, found) ∈ leavesIn s depth entries ↔
      ∃ name inner entry, names = name :: inner ∧ (name, entry) ∈ entries ∧
        Leads entry inner found ∧ s.examines (depth + inner.length) found := by
  match entries with
  | [] => simp [leavesIn]
  | (first, entry) :: rest =>
    rw [leavesIn, List.mem_append, mem_leavesIn_iff rest reached]
    constructor
    · rintro (here | ⟨name, inner, entry, rfl, listed, holds⟩)
      · obtain ⟨⟨inner, found⟩, member, same⟩ := List.mem_map.1 here
        obtain ⟨rfl, rfl⟩ := Prod.mk.inj same
        exact ⟨first, inner, entry, rfl, List.mem_cons_self, (mem_leaves_iff entry reached).1 member⟩
      · exact ⟨name, inner, entry, rfl, List.mem_cons_of_mem _ listed, holds⟩
    · rintro ⟨name, inner, entry', rfl, listed, holds⟩
      rcases List.mem_cons.1 listed with same | later
      · obtain ⟨rfl, rfl⟩ := Prod.mk.inj same
        exact .inl (List.mem_map.2 ⟨(inner, found), (mem_leaves_iff entry' reached).2 holds, rfl⟩)
      · exact .inr ⟨name, inner, entry', rfl, later, holds⟩
termination_by sizeOf entries

end

variable {s : Search}

/-- Names that lead into a directory begin with one that is listed there. -/
theorem head_mem_of_mem_leavesIn {depth : Nat} {entries : Directory} {leaf : List String × Entry}
    (member : leaf ∈ leavesIn s depth entries) :
    ∃ name inner, leaf.1 = name :: inner ∧ name ∈ entries.map Prod.fst := by
  induction entries with
  | nil => simp [leavesIn] at member
  | cons first rest ih =>
    rw [leavesIn, List.mem_append] at member
    rcases member with here | later
    · obtain ⟨below, -, rfl⟩ := List.mem_map.1 here
      exact ⟨first.1, below.1, rfl, List.mem_cons_self⟩
    · obtain ⟨name, inner, shape, listed⟩ := ih later
      exact ⟨name, inner, shape, List.mem_cons_of_mem _ listed⟩

/-- In a tree each leaf has names of its own. -/
theorem nodup_leavesIn {entries : Directory} (tree : IsTree entries) (depth : Nat) :
    ((leavesIn s depth entries).map Prod.fst).Nodup := by
  induction tree generalizing depth with
  | nil => simp [leavesIn]
  | @cons name entry rest _ fresh _ _ insideApart othersApart =>
    have own : ((leaves s depth entry).map Prod.fst).Nodup := by
      cases entry with
      | directory entries =>
        rw [leaves]
        split
        · exact insideApart entries rfl (depth + 1)
        · simp
      | closed =>
        rw [leaves]
        split <;> simp
      | file content => simp [leaves]
      | link target => simp [leaves]
      | special => simp [leaves]
    have longer : ((leaves s depth entry).map (fun leaf => (name :: leaf.1, leaf.2))).map Prod.fst =
        ((leaves s depth entry).map Prod.fst).map (name :: ·) := by
      simp [Function.comp_def]
    rw [leavesIn, List.map_append, longer, List.nodup_append]
    refine ⟨own.map fun _ _ same => (List.cons.inj same).2, othersApart depth, ?_⟩
    intro first here second later same
    obtain ⟨inner, -, rfl⟩ := List.mem_map.1 here
    obtain ⟨leaf, member, rfl⟩ := List.mem_map.1 later
    obtain ⟨head, _, shape, listed⟩ := head_mem_of_mem_leavesIn member
    obtain ⟨rfl, -⟩ := List.cons.inj (same.trans shape)
    exact fresh listed

/-- The order in which directories are listed is the order of the leaves, and nothing else. -/
theorem perm_leavesIn {entries entries' : Directory} (relisted : Relisted entries entries')
    (depth : Nat) : (leavesIn s depth entries).Perm (leavesIn s depth entries') := by
  induction relisted generalizing depth with
  | refl entries => exact .refl _
  | trans _ _ first second => exact (first depth).trans (second depth)
  | swap a b rest =>
    rw [leavesIn, leavesIn, leavesIn, leavesIn, ← List.append_assoc, ← List.append_assoc]
    exact List.perm_append_comm.append_right _
  | cons a _ ih =>
    rw [leavesIn, leavesIn]
    exact (ih depth).append_left _
  | inside name rest _ ih =>
    rw [leavesIn, leavesIn, leaves, leaves]
    refine List.Perm.append_right _ (List.Perm.map _ ?_)
    split
    · exact ih (depth + 1)
    · exact .refl _

/-! ## What is brought back -/

def Entry.isFile : Entry → Bool
  | .file _ => true
  | _ => false

theorem Entry.isFile_iff (entry : Entry) :
    entry.isFile = true ↔ ∃ content, entry = .file content := by
  cases entry <;> simp [isFile]

def Entry.isClosed : Entry → Bool
  | .closed => true
  | _ => false

theorem Entry.isClosed_iff (entry : Entry) : entry.isClosed = true ↔ entry = .closed := by
  cases entry <;> simp [isClosed]

/-- What some leaves come to: the files that are accepted, and a fault for each closed
    directory. -/
def Haul.ofLeaves (s : Search) (found : List (List String × Entry)) : Haul where
  trails := (found.filter fun leaf =>
    leaf.2.isFile && s.accepts (leaf.1.getLast?.getD "")).map Prod.fst
  errors := found.countP (·.2.isClosed)

theorem Haul.ofLeaves_append (s : Search) (first second : List (List String × Entry)) :
    ofLeaves s (first ++ second) = (ofLeaves s first).append (ofLeaves s second) := by
  simp [ofLeaves, Haul.append]

mutual

theorem explore_eq {s : Search} (stays : s.followsLinks = false) (budget : Nat)
    (around : List Directory) (depth : Nat) (trail : List String) (entry : Entry) :
    explore s budget around depth trail entry =
      .ofLeaves s ((leaves s depth entry).map fun leaf => (trail ++ leaf.1, leaf.2)) := by
  cases entry with
  | file content =>
    by_cases accepted : s.accepts (trail.getLast?.getD "") = true <;>
      simp [explore, leaves, Haul.ofLeaves, Entry.isFile, Entry.isClosed, accepted]
  | directory entries =>
    rw [explore, leaves]
    split
    · exact exploreAll_eq stays budget _ (depth + 1) trail entries
    · rfl
  | closed =>
    rw [explore, leaves]
    split <;> rfl
  | link target =>
    rw [explore.eq_def, leaves]
    simp [stays, Haul.ofLeaves]
  | special =>
    rw [explore, leaves]
    rfl
termination_by sizeOf entry

theorem exploreAll_eq {s : Search} (stays : s.followsLinks = false) (budget : Nat)
    (around : List Directory) (depth : Nat) (trail : List String) (entries : Directory) :
    exploreAll s budget around depth trail entries =
      .ofLeaves s ((leavesIn s depth entries).map fun leaf => (trail ++ leaf.1, leaf.2)) := by
  match entries with
  | [] =>
    rw [exploreAll, leavesIn]
    rfl
  | (name, entry) :: rest =>
    have longer : ((leaves s depth entry).map fun leaf => (name :: leaf.1, leaf.2)).map
          (fun leaf => (trail ++ leaf.1, leaf.2)) =
        (leaves s depth entry).map fun leaf => (trail ++ [name] ++ leaf.1, leaf.2) := by
      simp [Function.comp_def]
    rw [exploreAll, explore_eq stays budget around depth _ entry,
      exploreAll_eq stays budget around depth trail rest, ← Haul.ofLeaves_append, leavesIn,
      List.map_append, longer]
termination_by sizeOf entries

end

end MessageConformance.Files
