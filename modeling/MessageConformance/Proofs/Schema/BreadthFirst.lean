import MessageConformance.Proofs.Schema.Closures

/-!
# Breadth first

`within` are the documents that some first ones lead to through a number of references at most,
in the order in which they are first referred to. The documents of a closure are rewritten in
just this order (`isBreadthFirst_order`): all that wait have their turn before those that they
lead to (`Frontier.order_append`), and what is met waits in the order of first occurrences
(`Frontier.queue_meetAll`).
-/

namespace MessageConformance.Schema

/-- The documents that are reached from the first ones through a number of references at most, in
    the order in which they are first referred to. -/
def within (store : Store) (first : List Resource) : Nat → List Resource
  | 0 => first.eraseDups
  | n + 1 => (first ++ (within store first n).flatMap (discovered store)).eraseDups

/-- Documents come in the order of a breadth-first search: before any other those that are reached
    through fewer references, and after some number of references there are no more. -/
structure IsBreadthFirst (store : Store) (first order : List Resource) : Prop where
  nearest : ∀ n, within store first n <+: order
  all : ∃ n, order = within store first n

variable {store : Store}

namespace Frontier

/-- Documents that are met wait behind those that wait already. -/
theorem meetAll_append (unseen : List Location) (ahead queue rs : List Resource) :
    meetAll ⟨unseen, ahead ++ queue⟩ rs =
      ⟨(meetAll ⟨unseen, queue⟩ rs).unseen, ahead ++ (meetAll ⟨unseen, queue⟩ rs).queue⟩ := by
  induction rs generalizing unseen queue with
  | nil => rfl
  | cons r rs ih =>
    show (meet ⟨unseen, ahead ++ queue⟩ r).meetAll rs = _
    by_cases new : r.location ∈ unseen
    · have met (waiting : List Resource) : meet ⟨unseen, waiting⟩ r =
          ⟨unseen.erase r.location, waiting ++ [r]⟩ := by simp [meet, new]
      rw [met, List.append_assoc, ih]
      simp only [meetAll, List.foldl_cons, met]
    · have kept (waiting : List Resource) : meet ⟨unseen, waiting⟩ r = ⟨unseen, waiting⟩ := by
        simp [meet, new]
      rw [kept, ih]
      simp only [meetAll, List.foldl_cons, kept]

/-- The documents that wait are rewritten before those that they lead to. -/
theorem order_append (unseen : List Location) (ahead queue : List Resource) :
    order store ⟨unseen, ahead ++ queue⟩ =
      ahead ++ order store (meetAll ⟨unseen, queue⟩ (ahead.flatMap (discovered store))) := by
  induction ahead generalizing unseen queue with
  | nil => rfl
  | cons d ahead ih =>
    rw [List.cons_append, order, meetAll_append, ih, List.cons_append, List.flatMap_cons]
    simp only [meetAll, List.foldl_append]

/-- Documents of a store that are met wait in the order of their first occurrences. -/
theorem queue_meetAll {f : Frontier} {rs : List Resource} (isIn : ∀ r ∈ rs, r.IsIn store)
    (distinct : f.unseen.Nodup) :
    (f.meetAll rs).queue = f.queue ++ (rs.filter (·.location ∈ f.unseen)).eraseDups := by
  induction rs generalizing f with
  | nil => simp [meetAll]
  | cons r rs ih =>
    rw [List.forall_mem_cons] at isIn
    show ((f.meet r).meetAll rs).queue = _
    by_cases new : r.location ∈ f.unseen
    · have met : f.meet r = ⟨f.unseen.erase r.location, f.queue ++ [r]⟩ := by simp [meet, new]
      -- There is one document at a location, so that of `r` is erased with `r`.
      have others : rs.filter (·.location ∈ f.unseen.erase r.location) =
          (rs.filter (·.location ∈ f.unseen)).filter (fun s => !s == r) := by
        rw [List.filter_filter]
        refine List.filter_congr fun s member => ?_
        have same : s.location = r.location ↔ s = r :=
          ⟨(isIn.2 s member).eq_of_location isIn.1, congrArg Resource.location⟩
        rw [Bool.eq_iff_iff]
        simp [distinct.mem_erase_iff, same]
      rw [met, ih isIn.2 (distinct.erase _), others, List.filter_cons]
      simp [new, List.eraseDups_cons]
    · have kept : f.meet r = f := by simp [meet, new]
      rw [kept, ih isIn.2 distinct, List.filter_cons]
      simp [new]

end Frontier

/-! ## The order of a closure -/

theorem isIn_of_mem_discovered {d r : Resource} (found : r ∈ discovered store d) :
    r.IsIn store := by
  obtain ⟨-, -, -, isIn⟩ := (mem_discovered_iff store d r).1 found
  exact isIn

theorem queue_start {rs : List Resource} (isIn : ∀ r ∈ rs, r.IsIn store) :
    (start store rs).queue = rs.eraseDups := by
  rw [start, Frontier.queue_meetAll isIn store.distinct, List.nil_append, List.filter_eq_self.2]
  intro r member
  exact decide_eq_true (Store.mem_documents_of_document? (isIn r member))

/-- Once some of the documents that wait have had their turn, those wait that they lead to. -/
theorem start_append_discovered {rs ahead ds : List Resource}
    (waits : (start store rs).queue = ahead ++ ds) :
    start store (rs ++ ds.flatMap (discovered store)) =
      ⟨(Frontier.meetAll ⟨(start store rs).unseen, []⟩ (ds.flatMap (discovered store))).unseen,
        ahead ++ ds ++
          (Frontier.meetAll ⟨(start store rs).unseen, []⟩ (ds.flatMap (discovered store))).queue⟩ := by
  have shape : start store rs = ⟨(start store rs).unseen, (ahead ++ ds) ++ []⟩ := by
    rw [List.append_nil, ← waits]
  rw [start, Frontier.meetAll, List.foldl_append]
  show (start store rs).meetAll _ = _
  rw [shape, Frontier.meetAll_append]

variable {first : List Resource}

theorem isIn_of_mem_referred (isIn : ∀ r ∈ first, r.IsIn store) {ds : List Resource} :
    ∀ r ∈ first ++ ds.flatMap (discovered store), r.IsIn store := by
  intro r member
  rcases List.mem_append.1 member with here | led
  · exact isIn r here
  · obtain ⟨d, -, found⟩ := List.mem_flatMap.1 led
    exact isIn_of_mem_discovered found

/-- The documents within a number of references are rewritten first, and then what waits: the
    further ones within one reference more, and those that they lead to. -/
theorem order_start_eq (isIn : ∀ r ∈ first, r.IsIn store) (n : Nat) :
    ∃ waiting : Frontier,
      start store (first ++ (within store first n).flatMap (discovered store)) =
        ⟨waiting.unseen, within store first n ++ waiting.queue⟩ ∧
      Frontier.order store (start store first) =
        within store first n ++ Frontier.order store waiting := by
  induction n with
  | zero =>
    have waits : (start store first).queue = [] ++ within store first 0 := queue_start isIn
    refine ⟨_, start_append_discovered waits, ?_⟩
    show _ = _ ++ Frontier.order store (Frontier.meetAll ⟨_, []⟩ _)
    rw [← Frontier.order_append, List.append_nil]
    exact congrArg (fun queue => Frontier.order store ⟨_, queue⟩) waits
  | succ n ih =>
    obtain ⟨waiting, met, ordered⟩ := ih
    have grown : within store first (n + 1) = within store first n ++ waiting.queue := by
      rw [within, ← queue_start (isIn_of_mem_referred isIn), met]
    have waits : (start store (first ++ (within store first n).flatMap (discovered store))).queue =
        within store first n ++ waiting.queue := by rw [met]
    have next := start_append_discovered waits
    rw [List.append_assoc, ← List.flatMap_append, ← grown] at next
    refine ⟨_, next, ?_⟩
    show _ = _ ++ Frontier.order store (Frontier.meetAll ⟨_, []⟩ _)
    rw [ordered, grown, List.append_assoc, ← Frontier.order_append, List.append_nil, met]

/-- The documents of a closure are rewritten breadth first. -/
theorem isBreadthFirst_order (isIn : ∀ r ∈ first, r.IsIn store) :
    IsBreadthFirst store first (Frontier.order store (start store first)) := by
  have nearest (n : Nat) :
      within store first n <+: Frontier.order store (start store first) := by
    obtain ⟨waiting, -, ordered⟩ := order_start_eq isIn n
    exact ⟨_, ordered.symm⟩
  -- As long as documents wait, there are more within the next number of references.
  have grows (n : Nat) : Frontier.order store (start store first) = within store first n ∨
      (within store first n).length < (within store first (n + 1)).length := by
    obtain ⟨⟨unseen, queue⟩, met, ordered⟩ := order_start_eq isIn n
    cases queue with
    | nil => exact .inl (by rw [ordered, Frontier.order, List.append_nil])
    | cons d queue =>
      rw [within, ← queue_start (isIn_of_mem_referred isIn), met]
      exact .inr (by simp)
  refine ⟨nearest, ?_⟩
  by_contra unending
  have long (n : Nat) : n ≤ (within store first n).length := by
    induction n with
    | zero => exact Nat.zero_le _
    | succ n ih =>
      have more := (grows n).resolve_left fun whole => unending ⟨n, whole⟩
      omega
  have most := (nearest (store.size + 1)).length_le
  have least := long (store.size + 1)
  have bound := length_order_le store first
  omega

end MessageConformance.Schema
