import MessageConformance.Schema.Driver

/-!
# Groups of members

The members without namespace and the first member of each namespace begin a group (`heads`), and
the members of a namespace make one group, in their order. So the groups are those of the members
that begin one, in the order of these (`groupsOf_eq_map_heads`).
-/

namespace MessageConformance.Schema

/-! ## Members that begin a group -/

/-- A member joins the group of a namespace: it has that namespace. -/
def joins (targetNamespace : Option String) (member : Location × Option String) : Bool :=
  member.2.isSome && targetNamespace = member.2

@[simp] theorem joins_none : joins none = fun _ => false := by
  funext ⟨l, targetNamespace⟩
  cases targetNamespace <;> rfl

@[simp] theorem joins_some (uri : String) :
    joins (some uri) = fun member => decide (member.2 = some uri) := by
  funext ⟨l, targetNamespace⟩
  cases targetNamespace <;> simp [joins, eq_comm]

/-- The members that begin a group: those without namespace, and the first of each namespace. -/
def heads (members : List (Location × Option String)) : List (Location × Option String) :=
  members.eraseDupsBy fun member head => joins head.2 member

theorem heads_cons (first : Location × Option String) (members : List (Location × Option String)) :
    heads (first :: members) = first :: heads (members.filter fun m => !joins first.2 m) := by
  simp [heads, List.eraseDupsBy_cons]

/-- The group of the first member is taken out, and then the same holds of the others. -/
theorem groups_induction {motive : List (Location × Option String) → Prop} (nil : motive [])
    (cons : ∀ first members, motive (members.filter fun m => !joins first.2 m) →
      motive (first :: members)) : ∀ members, motive members
  | [] => nil
  | first :: members => cons first members (groups_induction nil cons _)
termination_by members => members.length
decreasing_by exact Nat.lt_succ_of_le (List.length_filter_le ..)

section

variable (members : List (Location × Option String))

theorem heads_sublist : (heads members).Sublist members := by
  induction members using groups_induction with
  | nil => simp [heads]
  | cons first members ih =>
    rw [heads_cons]
    exact (ih.trans List.filter_sublist).cons_cons first

/-- No member that begins a group joins an earlier one. -/
theorem pairwise_heads : (heads members).Pairwise fun a b => joins a.2 b = false := by
  induction members using groups_induction with
  | nil => simp [heads]
  | cons first members ih =>
    rw [heads_cons, List.pairwise_cons]
    refine ⟨fun later member => ?_, ih⟩
    simpa using (List.mem_filter.1 ((heads_sublist _).subset member)).2

theorem mem_heads_of_none {l : Location} (member : (l, none) ∈ members) :
    (l, none) ∈ heads members := by
  induction members using groups_induction with
  | nil => simp at member
  | cons first members ih =>
    rw [heads_cons]
    obtain rfl | later := List.mem_cons.1 member
    · exact List.mem_cons_self ..
    · exact List.mem_cons_of_mem _ (ih (List.mem_filter.2 ⟨later, by simp [joins]⟩))

theorem exists_mem_heads {l : Location} {uri : String} (member : (l, some uri) ∈ members) :
    ∃ first, (first, some uri) ∈ heads members := by
  induction members using groups_induction with
  | nil => simp at member
  | cons first members ih =>
    rw [heads_cons]
    by_cases same : first.2 = some uri
    · exact ⟨first.1, same ▸ List.mem_cons_self ..⟩
    · have later : (l, some uri) ∈ members :=
        (List.mem_cons.1 member).resolve_left fun equal => same (equal ▸ rfl)
      obtain ⟨head, begins⟩ := ih (List.mem_filter.2 ⟨later, by simp [joins, same]⟩)
      exact ⟨head, List.mem_cons_of_mem _ begins⟩

end

section

variable {members : List (Location × Option String)}

theorem mem_of_begins {n : Nat} {head : Location × Option String}
    (begins : (heads members)[n]? = some head) : head ∈ members :=
  (heads_sublist members).subset (List.mem_of_getElem? begins)

/-- The group of a namespace is begun at some position. -/
theorem exists_begins {l : Location} {uri : String} (member : (l, some uri) ∈ members) :
    ∃ (n : Nat) (first : Location), (heads members)[n]? = some (first, some uri) := by
  obtain ⟨first, begins⟩ := exists_mem_heads members member
  obtain ⟨n, begins⟩ := List.mem_iff_getElem?.1 begins
  exact ⟨n, first, begins⟩

end

/-! ## The groups that they begin -/

/-- The members of a target namespace. -/
def membersOf (uri : String) (members : List (Location × Option String)) : List Location :=
  (members.filter (·.2 = some uri)).map (·.1)

theorem mem_membersOf_iff {uri : String} {members : List (Location × Option String)}
    {l : Location} : l ∈ membersOf uri members ↔ (l, some uri) ∈ members := by
  simp [membersOf]

/-- The group that a member begins. -/
def groupOf (members : List (Location × Option String)) (head : Location × Option String) :
    Group where
  targetNamespace := head.2
  members := match head.2 with
    | none => [head.1]
    | some uri => membersOf uri members

/-- Members are added to a group that was begun when they join it, and else to the other groups. -/
theorem foldl_addMember (group : Group) (groups : List Group)
    (members : List (Location × Option String)) :
    members.foldl (fun groups (member, targetNamespace) =>
        addMember targetNamespace member groups) (group :: groups) =
      { group with
        members := group.members ++
          (members.filter (joins group.targetNamespace)).map (·.1) } ::
        (members.filter fun m => !joins group.targetNamespace m).foldl
          (fun groups (member, targetNamespace) => addMember targetNamespace member groups)
          groups := by
  induction members generalizing group groups with
  | nil => simp
  | cons member members ih =>
    obtain ⟨l, targetNamespace⟩ := member
    simp only [List.foldl_cons]
    by_cases joined : joins group.targetNamespace (l, targetNamespace) = true
    · have added : addMember targetNamespace l (group :: groups) =
          { group with members := group.members ++ [l] } :: groups :=
        if_pos joined
      rw [added, ih]
      simp [joined]
    · have added : addMember targetNamespace l (group :: groups) =
          group :: addMember targetNamespace l groups :=
        if_neg joined
      rw [added, ih]
      simp [joined]

theorem groupsOf_cons (first : Location × Option String)
    (members : List (Location × Option String)) :
    groupsOf (first :: members) =
      ⟨first.2, first.1 :: (members.filter (joins first.2)).map (·.1)⟩ ::
        groupsOf (members.filter fun m => !joins first.2 m) := by
  rw [groupsOf, List.foldl_cons]
  exact foldl_addMember ⟨first.2, [first.1]⟩ [] members

/-- Members are grouped by those that begin a group. -/
theorem groupsOf_eq_map_heads (members : List (Location × Option String)) :
    groupsOf members = (heads members).map (groupOf members) := by
  induction members using groups_induction with
  | nil => rfl
  | cons first members ih =>
    rw [groupsOf_cons, heads_cons, List.map_cons, ih]
    congr 1
    · obtain ⟨l, _ | uri⟩ := first <;> simp [groupOf, membersOf]
    · refine List.map_congr_left fun head begins => ?_
      obtain ⟨l, _ | uri⟩ := head
      · rfl
      · -- The first member is not of this namespace, nor are those that join it.
        have other : first.2 ≠ some uri := by
          simpa [joins] using (List.mem_filter.1 ((heads_sublist _).subset begins)).2
        have kept (m : Location × Option String) :
            (decide (m.2 = some uri) && !joins first.2 m) = decide (m.2 = some uri) := by
          by_cases same : m.2 = some uri <;> simp [joins, same, other]
        simp [groupOf, membersOf, other, List.filter_filter, kept]

/-- The members of a namespace make one group, in their order. -/
theorem mem_groupsOf_iff (uri : String) (ls : List Location)
    (members : List (Location × Option String)) :
    ⟨some uri, ls⟩ ∈ groupsOf members ↔ ls = membersOf uri members ∧ ls ≠ [] := by
  rw [groupsOf_eq_map_heads, List.mem_map]
  constructor
  · rintro ⟨⟨l, targetNamespace⟩, begins, same⟩
    obtain ⟨rfl, rfl⟩ := Group.mk.inj same
    refine ⟨rfl, List.ne_nil_of_mem (a := l) (mem_membersOf_iff.2 ?_)⟩
    exact (heads_sublist members).subset begins
  · rintro ⟨rfl, nonempty⟩
    obtain ⟨l, member⟩ := List.exists_mem_of_ne_nil _ nonempty
    obtain ⟨first, begins⟩ := exists_mem_heads members (mem_membersOf_iff.1 member)
    exact ⟨(first, some uri), begins, rfl⟩

end MessageConformance.Schema
