import MessageConformance.Message.Node
import Mathlib.Data.List.Nodup

/-!
# Positions in a message tree

A position is the list of child numbers that leads from a node to another (`Node.at?`). Equal
trees may stand at several positions, so what occurs once is said of positions
(`Query.OnlyBelow`, `Query.OnlyWithin`). `located` lists the positions below a node in document
order: with what stands there they are the nodes of `descendants` (`map_located`), each position
comes once (`nodup_located`), and all of them come (`mem_located`). Hence a query below a node
has one answer exactly when it is met at one position (`descendants_eq_singleton_iff`).
-/

namespace MessageConformance.Message

/-- Numbers of children, outermost first. -/
abbrev Position := List Nat

namespace Node

/-- The node that a position leads to. -/
def at? : Node → Position → Option Node
  | n, [] => some n
  | n, i :: rest => n.children[i]?.bind fun child => child.at? rest

mutual

/-- The positions below a node, with the nodes that stand there. -/
def located : Node → List (Position × Node)
  | element _ nodes => locatedFrom 0 nodes
  | _ => []

/-- The positions of some siblings, the first of which has number `i`, and of all below
    them. -/
def locatedFrom (i : Nat) : List Node → List (Position × Node)
  | [] => []
  | n :: ns =>
    ([i], n) :: (located n).map (fun (rest, m) => (i :: rest, m)) ++ locatedFrom (i + 1) ns

end

mutual

/-- The nodes at the positions below a node are the nodes below it, in order. -/
theorem map_located : (n : Node) → (located n).map (·.2) = n.descendants
  | .element _ nodes => by simp only [located, descendants, map_locatedFrom 0 nodes]
  | .text _ => by simp [located, descendants]
  | .comment _ => by simp [located, descendants]
  | .instruction _ => by simp [located, descendants]

theorem map_locatedFrom (i : Nat) : (nodes : List Node) →
    (locatedFrom i nodes).map (·.2) = preorder nodes
  | [] => by simp [locatedFrom, preorder]
  | n :: ns => by
    simp only [locatedFrom, preorder, List.map_append, List.map_cons, List.map_map,
      List.cons_append, map_locatedFrom (i + 1) ns, ← map_located n]
    rfl

end

mutual

theorem mem_located : (n : Node) → ∀ p m, (p, m) ∈ located n ↔ p ≠ [] ∧ n.at? p = some m
  | .element tag nodes => by
    intro p m
    rw [located, mem_locatedFrom 0 nodes]
    cases p with
    | nil => simp
    | cons i rest =>
      simp only [Nat.zero_add, List.cons.injEq, ne_eq, reduceCtorEq, not_false_eq_true, true_and,
        at?, children, Option.bind_eq_some_iff]
      constructor
      · rintro ⟨j, below, child, ⟨rfl, rfl⟩, here, there⟩; exact ⟨child, here, there⟩
      · rintro ⟨child, here, there⟩; exact ⟨i, rest, child, ⟨rfl, rfl⟩, here, there⟩
  | .text _ => by intro p m; cases p <;> simp [located, at?, children]
  | .comment _ => by intro p m; cases p <;> simp [located, at?, children]
  | .instruction _ => by intro p m; cases p <;> simp [located, at?, children]

theorem mem_locatedFrom (i : Nat) : (nodes : List Node) → ∀ p m,
    (p, m) ∈ locatedFrom i nodes ↔
      ∃ j rest child, p = (i + j) :: rest ∧ nodes[j]? = some child ∧ child.at? rest = some m
  | [] => by simp [locatedFrom]
  | n :: ns => by
    intro p m
    have below := mem_located n
    have later := mem_locatedFrom (i + 1) ns p m
    simp only [locatedFrom, List.mem_append, List.mem_cons, List.mem_map, Prod.mk.injEq, later]
    constructor
    · rintro ((⟨rfl, rfl⟩ | ⟨⟨rest, m'⟩, member, rfl, rfl⟩) | ⟨j, rest, child, rfl, here, there⟩)
      · exact ⟨0, [], m, rfl, rfl, rfl⟩
      · exact ⟨0, rest, n, rfl, rfl, ((below rest m').1 member).2⟩
      · exact ⟨j + 1, rest, child, by congr 1; omega, here, there⟩
    · rintro ⟨j, rest, child, rfl, here, there⟩
      cases j with
      | zero =>
        obtain rfl : n = child := by simpa using here
        cases rest with
        | nil => exact .inl (.inl ⟨rfl, by simpa [at?] using there.symm⟩)
        | cons k rest =>
          exact .inl (.inr ⟨(k :: rest, m), (below _ m).2 ⟨by simp, there⟩, rfl, rfl⟩)
      | succ j => exact .inr ⟨j, rest, child, by congr 1; omega, by simpa using here, there⟩

end

mutual

theorem nodup_located : (n : Node) → ((located n).map (·.1)).Nodup
  | .element _ nodes => by simpa only [located] using nodup_locatedFrom 0 nodes
  | .text _ => by simp [located]
  | .comment _ => by simp [located]
  | .instruction _ => by simp [located]

theorem nodup_locatedFrom (i : Nat) : (nodes : List Node) → ((locatedFrom i nodes).map (·.1)).Nodup
  | [] => by simp [locatedFrom]
  | n :: ns => by
    have inside : ((located n).map fun place => i :: place.1).Nodup := by
      have distinct := (nodup_located n).map (List.cons_injective (a := i))
      rwa [List.map_map] at distinct
    have nonempty : [i] ∉ (located n).map fun place => i :: place.1 := by
      intro member
      obtain ⟨⟨p, m⟩, place, same⟩ := List.mem_map.1 member
      obtain rfl : p = [] := by simpa using same
      exact ((mem_located n [] m).1 place).1 rfl
    -- Positions among later siblings begin with a greater number.
    have apart : ∀ p ∈ [i] :: (located n).map (fun place => i :: place.1),
        p ∉ (locatedFrom (i + 1) ns).map (·.1) := by
      intro p member later
      obtain ⟨⟨q, m⟩, place, rfl⟩ := List.mem_map.1 later
      obtain ⟨j, rest, child, rfl, -, -⟩ := (mem_locatedFrom (i + 1) ns q m).1 place
      rcases List.mem_cons.1 member with same | member
      · have := (List.cons.inj same).1; omega
      · obtain ⟨_, _, same⟩ := List.mem_map.1 member
        have := (List.cons.inj same).1; omega
    simp only [locatedFrom, List.map_append, List.map_cons, List.map_map, Function.comp_def]
    exact (List.nodup_cons.2 ⟨nonempty, inside⟩).append (nodup_locatedFrom (i + 1) ns) apart

end

end Node

/-- Among values under distinct keys one is selected exactly when one key leads to such a
    value. -/
private theorem filter_map_eq_singleton_iff {κ α : Type} {entries : List (κ × α)} (select : α → Bool)
    (distinct : (entries.map (·.1)).Nodup) (a : α) :
    (entries.map (·.2)).filter select = [a] ↔
      ∃ k, (k, a) ∈ entries ∧ select a ∧ ∀ k' a', (k', a') ∈ entries → select a' → k' = k := by
  rw [List.filter_map]
  constructor
  · intro one
    obtain ⟨⟨k, a'⟩, found, rfl⟩ := List.map_eq_singleton_iff.1 one
    have selected : ∀ entry, entry ∈ entries ∧ select entry.2 ↔ entry = (k, a') := by
      intro entry
      simpa [Function.comp_def] using congrArg (entry ∈ ·) found
    obtain ⟨member, chosen⟩ := (selected (k, a')).2 rfl
    exact ⟨k, member, chosen, fun k' b there accepted =>
      (Prod.mk.inj ((selected (k', b)).1 ⟨there, accepted⟩)).1⟩
  · rintro ⟨k, member, chosen, unique⟩
    have entriesDistinct : entries.Nodup := List.Nodup.of_map _ distinct
    have only : entries.filter (select ∘ (·.2)) = [(k, a)] := by
      refine List.perm_singleton.1 ((List.perm_ext_iff_of_nodup (entriesDistinct.filter _)
        (List.nodup_singleton _)).2 fun entry => ?_)
      simp only [List.mem_filter, Function.comp_apply, List.mem_singleton]
      constructor
      · rintro ⟨there, accepted⟩
        have sameKey := unique entry.1 entry.2 there accepted
        exact List.inj_on_of_nodup_map distinct there member sameKey
      · rintro rfl; exact ⟨member, chosen⟩
    simp [only]

namespace Query

variable {q : Query} {n m : Node}

/-- A query is met at some position of a node, the node itself counted. -/
def Within (q : Query) (n : Node) : Prop := ∃ p m, n.at? p = some m ∧ q.accepts m

/-- A query is met at one position of a node, the node itself counted, and there by `m`. -/
def OnlyWithin (q : Query) (n m : Node) : Prop :=
  ∃ p, n.at? p = some m ∧ q.accepts m ∧
    ∀ p' m', n.at? p' = some m' → q.accepts m' → p' = p

/-- A query is met at one position strictly below a node, and there by `m`. -/
def OnlyBelow (q : Query) (n m : Node) : Prop :=
  ∃ p, p ≠ [] ∧ n.at? p = some m ∧ q.accepts m ∧
    ∀ p' m', p' ≠ [] → n.at? p' = some m' → q.accepts m' → p' = p

/-- A query is met at no position strictly below a node. -/
def AbsentBelow (q : Query) (n : Node) : Prop :=
  ∀ p m, p ≠ [] → n.at? p = some m → ¬ q.accepts m

/-- A query is met at several positions strictly below a node. -/
def RepeatedBelow (q : Query) (n : Node) : Prop :=
  ∃ p m p' m', p ≠ p' ∧ (p ≠ [] ∧ n.at? p = some m ∧ q.accepts m) ∧
    p' ≠ [] ∧ n.at? p' = some m' ∧ q.accepts m'

theorem mem_located_within (n : Node) (p : Position) (m : Node) :
    (p, m) ∈ ([], n) :: n.located ↔ n.at? p = some m := by
  cases p with
  | nil => simp [Node.mem_located, Node.at?, eq_comm]
  | cons i rest => simp [Node.mem_located]

/-- A query below a node has one answer exactly when it is met at one position there. -/
theorem descendants_eq_singleton_iff : q.descendants n = [m] ↔ q.OnlyBelow n m := by
  rw [descendants, ← Node.map_located, filter_map_eq_singleton_iff _ (Node.nodup_located n)]
  simp only [Node.mem_located, OnlyBelow, and_assoc, and_imp]

theorem descendants_eq_nil_iff : q.descendants n = [] ↔ q.AbsentBelow n := by
  rw [descendants, List.filter_eq_nil_iff, ← Node.map_located, List.forall_mem_map]
  simp only [Prod.forall, Node.mem_located, and_imp, AbsentBelow]

/-- What is met below a node, but not at one position alone, is met at several. -/
theorem repeatedBelow_iff : q.RepeatedBelow n ↔ ¬ q.AbsentBelow n ∧ ∀ m, ¬ q.OnlyBelow n m := by
  constructor
  · rintro ⟨p, m, p', m', apart, ⟨below, here, met⟩, below', here', met'⟩
    refine ⟨fun absent => absent p m below here met, ?_⟩
    rintro only ⟨place, -, -, -, unique⟩
    exact apart ((unique p m below here met).trans (unique p' m' below' here' met').symm)
  · rintro ⟨present, notOne⟩
    simp only [AbsentBelow, not_forall, not_not] at present
    obtain ⟨p, m, below, here, met⟩ := present
    by_contra once
    refine notOne m ⟨p, below, here, met, fun p' m' below' here' met' => ?_⟩
    by_contra apart
    exact once ⟨p', m', p, m, apart, ⟨below', here', met'⟩, below, here, met⟩

theorem within_eq_singleton_iff :
    (n :: n.descendants).filter q.accepts = [m] ↔ q.OnlyWithin n m := by
  have listed : n :: n.descendants = (([], n) :: n.located).map (·.2) := by
    rw [List.map_cons, Node.map_located]
  have distinct : ((([], n) :: n.located).map (·.1)).Nodup := by
    refine List.nodup_cons.2 ⟨fun member => ?_, Node.nodup_located n⟩
    obtain ⟨⟨p, m⟩, place, root⟩ := List.mem_map.1 member
    exact ((Node.mem_located n p m).1 place).1 root
  rw [listed, filter_map_eq_singleton_iff _ distinct]
  simp only [mem_located_within, OnlyWithin]

/-- A query has an answer, the node itself counted, exactly when it is met somewhere. -/
theorem any_within_iff : (n :: n.descendants).any q.accepts = true ↔ q.Within n := by
  have listed : n :: n.descendants = (([], n) :: n.located).map (·.2) := by
    rw [List.map_cons, Node.map_located]
  rw [listed, List.any_map, List.any_eq_true]
  constructor
  · rintro ⟨⟨p, m⟩, place, accepted⟩
    exact ⟨p, m, (mem_located_within n p m).1 place, accepted⟩
  · rintro ⟨p, m, there, accepted⟩
    exact ⟨(p, m), (mem_located_within n p m).2 there, accepted⟩

end Query
end MessageConformance.Message
