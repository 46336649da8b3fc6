import MessageConformance.Receipt.Rules
import MessageConformance.Proofs.Message.Positions

/-!
# When a receipt conforms

The rules of the profile as properties of trees: `PartConforms` and `InformationConforms` speak
of children, `Conforms` of everything below a receipt. The check finds no fault exactly in the
receipts that conform (`check_eq_ok_iff`).
-/

namespace MessageConformance.Receipt

open Message

variable {r : Registry}

/-- A message part holds a digest reference and no identifier. -/
def PartConforms (r : Registry) (part : Node) : Prop :=
  (∃ child ∈ part.children, (referenceQuery r).accepts child) ∧
    ∀ child ∈ part.children, ¬ (identifierQuery r).accepts child

/-- Non-repudiation information has message parts, and all of them conform. -/
def InformationConforms (r : Registry) (information : Node) : Prop :=
  (∃ part ∈ information.children, (partQuery r).accepts part) ∧
    ∀ part ∈ information.children, (partQuery r).accepts part → PartConforms r part

/-- Non-repudiation information stands at one position below a receipt, and conforms. -/
def Conforms (r : Registry) (receipt : Node) : Prop :=
  ∃ information, (informationQuery r).OnlyBelow receipt information ∧
    InformationConforms r information

theorem partFault?_eq_none_iff (part : Node) : partFault? r part = none ↔ PartConforms r part := by
  have reference : ((referenceQuery r).children part).isEmpty = false ↔
      ∃ child ∈ part.children, (referenceQuery r).accepts child := by
    simp [Query.children]
  have identifier : ((identifierQuery r).children part).isEmpty = true ↔
      ∀ child ∈ part.children, ¬ (identifierQuery r).accepts child := by
    simp [Query.children]
  rw [PartConforms, ← reference, ← identifier, partFault?]
  cases ((referenceQuery r).children part).isEmpty <;>
    cases ((identifierQuery r).children part).isEmpty <;> simp

theorem informationFault?_eq_none_iff (information : Node) :
    informationFault? r information = none ↔ InformationConforms r information := by
  have parts : ∀ part, part ∈ (partQuery r).children information ↔
      part ∈ information.children ∧ (partQuery r).accepts part := by
    simp [Query.children]
  unfold informationFault? InformationConforms
  cases found : (partQuery r).children information with
  | nil =>
    simp only [found, List.not_mem_nil, false_iff, not_and] at parts
    simp only [reduceCtorEq, false_iff, not_and]
    rintro ⟨part, member, accepted⟩
    exact absurd accepted (parts part member)
  | cons first rest =>
    simp only [found] at parts
    simp only [List.findSome?_eq_none_iff, partFault?_eq_none_iff, parts, and_imp]
    exact (and_iff_right ⟨first, (parts first).1 (List.mem_cons_self ..)⟩).symm

theorem among_children (q : Query) (n : Node) : q.among n.children = q.descendants n := by
  cases n <;> simp [Query.among, Query.descendants, Node.children, Node.descendants, Node.preorder]

/-- The check passes exactly the receipts that conform. -/
theorem check_eq_ok_iff (receipt : Node) :
    check r (some receipt.children) = .ok () ↔ Conforms r receipt := by
  have passes : check r (some receipt.children) = .ok () ↔
      contentFault? r receipt.children = none := by
    cases fault : contentFault? r receipt.children <;> simp [check, fault?, fault]
  rw [passes, contentFault?, among_children, Conforms]
  simp only [← Query.descendants_eq_singleton_iff]
  match found : (informationQuery r).descendants receipt with
  | [] => simp
  | [information] => simp [informationFault?_eq_none_iff]
  | _ :: _ :: _ => simp

end MessageConformance.Receipt
