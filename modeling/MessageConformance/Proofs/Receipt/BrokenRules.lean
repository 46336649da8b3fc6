import MessageConformance.Proofs.Message.Elements
import MessageConformance.Proofs.Receipt.Conformance

/-!
# Which rule a receipt breaks

The rules are checked in a fixed order, and among message parts the first that does not conform
decides alone. `FirstBreaks` says for each code when its rule is the first that a receipt breaks, in
terms of what stands below the receipt and where. The check reports exactly that rule, and it looks
at nothing of a tree but the names and the nesting of elements (`check_reports_first_broken`).
-/

namespace MessageConformance.Receipt

open Message

variable {r : Registry}

/-! ## The first broken rule -/

/-- A message part holds a digest reference. -/
def HasReference (r : Registry) (part : Node) : Prop :=
  ∃ child ∈ part.children, (referenceQuery r).accepts child

/-- A message part holds an identifier. -/
def HasIdentifier (r : Registry) (part : Node) : Prop :=
  ∃ child ∈ part.children, (identifierQuery r).accepts child

/-- The first of the message parts of some information that does not conform. -/
def FirstViolating (r : Registry) (information part : Node) : Prop :=
  ∃ before after, information.children = before ++ part :: after ∧
    (partQuery r).accepts part ∧ ¬ PartConforms r part ∧
      ∀ earlier ∈ before, (partQuery r).accepts earlier → PartConforms r earlier

/-- The rule of a code is the first that a receipt breaks. -/
def FirstBreaks (r : Registry) (receipt : Node) : ConformanceCode → Prop
  | .missingNonRepudiationInformation => (informationQuery r).AbsentBelow receipt
  | .multipleNonRepudiationInformation => (informationQuery r).RepeatedBelow receipt
  | .missingMessagePart => ∃ information, (informationQuery r).OnlyBelow receipt information ∧
      ∀ part ∈ information.children, ¬ (partQuery r).accepts part
  | .referenceWithIdentifier => ∃ information, (informationQuery r).OnlyBelow receipt information ∧
      ∃ part, FirstViolating r information part ∧ HasReference r part ∧ HasIdentifier r part
  | .missingDigestReference => ∃ information, (informationQuery r).OnlyBelow receipt information ∧
      ∃ part, FirstViolating r information part ∧ ¬ HasReference r part
  | .receiptAbsent | .multipleReceipts | .messagingHeader => False

theorem partFault?_eq_some_iff (part : Node) (code : ConformanceCode) :
    partFault? r part = some code ↔
      code = .referenceWithIdentifier ∧ HasReference r part ∧ HasIdentifier r part ∨
        code = .missingDigestReference ∧ ¬ HasReference r part := by
  have reference : HasReference r part ↔ ((referenceQuery r).children part).isEmpty = false := by
    simp [Query.children, HasReference]
  have identifier : HasIdentifier r part ↔ ((identifierQuery r).children part).isEmpty = false := by
    simp [Query.children, HasIdentifier]
  rw [reference, identifier, partFault?]
  cases ((referenceQuery r).children part).isEmpty <;>
    cases ((identifierQuery r).children part).isEmpty <;> simp [eq_comm (a := code)]

/-- The first of some parts with a fault, between those before it that have none and the rest. -/
theorem findSome?_partFault?_eq_some_iff (information : Node) (code : ConformanceCode) :
    ((partQuery r).children information).findSome? (partFault? r) = some code ↔
      ∃ part, FirstViolating r information part ∧ partFault? r part = some code := by
  rw [List.findSome?_eq_some_iff]
  constructor
  · rintro ⟨before, part, after, split, fault, sound⟩
    obtain ⟨upTo, rest, shape, rfl, rest_eq⟩ := List.filter_eq_append_iff.1 split
    obtain ⟨skipped, later, rfl, others, accepted, -⟩ := List.filter_eq_cons_iff.1 rest_eq
    have violates : ¬ PartConforms r part := by
      rw [← partFault?_eq_none_iff, fault]
      exact Option.some_ne_none code
    refine ⟨part, ⟨upTo ++ skipped, later, by rw [shape, List.append_assoc], accepted, violates,
      fun earlier member isPart => ?_⟩, fault⟩
    obtain inside | passed := List.mem_append.1 member
    · exact (partFault?_eq_none_iff earlier).1 (sound earlier (List.mem_filter.2 ⟨inside, isPart⟩))
    · exact absurd isPart (others earlier passed)
  · rintro ⟨part, ⟨before, after, shape, accepted, -, conform⟩, fault⟩
    refine ⟨before.filter (partQuery r).accepts, part, after.filter (partQuery r).accepts, ?_, fault,
      fun earlier member => ?_⟩
    · rw [Query.children, shape, List.filter_append, List.filter_cons_of_pos accepted]
    · obtain ⟨inside, isPart⟩ := List.mem_filter.1 member
      exact (partFault?_eq_none_iff earlier).2 (conform earlier inside isPart)

theorem informationFault?_eq_some_iff (information : Node) (code : ConformanceCode) :
    informationFault? r information = some code ↔
      code = .missingMessagePart ∧
          (∀ part ∈ information.children, ¬ (partQuery r).accepts part) ∨
        ∃ part, FirstViolating r information part ∧ partFault? r part = some code := by
  have absent : (partQuery r).children information = [] ↔
      ∀ part ∈ information.children, ¬ (partQuery r).accepts part := List.filter_eq_nil_iff
  have first := findSome?_partFault?_eq_some_iff (r := r) information code
  rw [← absent, ← first, informationFault?]
  cases (partQuery r).children information with
  | nil => simp [eq_comm (a := code)]
  | cons part parts => simp

/-- The fault that is found in what a receipt holds is the first rule that the receipt breaks. -/
theorem contentFault?_eq_some_iff (receipt : Node) (code : ConformanceCode) :
    contentFault? r receipt.children = some code ↔ FirstBreaks r receipt code := by
  have listed := among_children (informationQuery r) receipt
  rw [contentFault?, listed]
  unfold FirstBreaks
  simp only [Query.repeatedBelow_iff, ← Query.descendants_eq_nil_iff,
    ← Query.descendants_eq_singleton_iff]
  rcases (informationQuery r).descendants receipt with _ | ⟨information, _ | ⟨second, rest⟩⟩
  · cases code <;> simp
  · simp only [List.cons.injEq, and_true, informationFault?_eq_some_iff, partFault?_eq_some_iff]
    cases code <;> simp
  · cases code <;> simp

/-! ## Receipts with the same elements -/

theorem findSome?_eq_of_forall₂ {α β : Type} {R : α → α → Prop} {f : α → Option β} {l l' : List α}
    (agree : ∀ a b, R a b → f a = f b) (related : List.Forall₂ R l l') :
    l.findSome? f = l'.findSome? f := by
  induction related with
  | nil => rfl
  | cons first _ ih => rw [List.findSome?_cons, List.findSome?_cons, agree _ _ first, ih]

theorem partFault?_eq_of_sameElements {part part' : Node}
    (same : SameElements part.children part'.children) : partFault? r part = partFault? r part' := by
  have empty (q : Query) : (q.children part).isEmpty = (q.children part').isEmpty := by
    have answers : List.Forall₂ _ (q.children part) (q.children part') := same.filter q
    generalize q.children part = children, q.children part' = children' at answers
    cases answers <;> rfl
  rw [partFault?, partFault?, empty, empty]

theorem informationFault?_eq_of_sameElements {information information' : Node}
    (same : SameElements information.children information'.children) :
    informationFault? r information = informationFault? r information' := by
  have parts : List.Forall₂ (fun n n' => SameElements n.children n'.children)
      ((partQuery r).children information) ((partQuery r).children information') :=
    same.filter (partQuery r)
  unfold informationFault?
  generalize (partQuery r).children information = nodes,
    (partQuery r).children information' = nodes' at parts
  cases parts with
  | nil => rfl
  | cons first rest =>
    exact findSome?_eq_of_forall₂ (fun _ _ => partFault?_eq_of_sameElements) (.cons first rest)

theorem contentFault?_eq_of_sameElements {content content' : List Node}
    (same : SameElements content content') : contentFault? r content = contentFault? r content' := by
  have met : List.Forall₂ (fun n n' => SameElements n.children n'.children)
      ((informationQuery r).among content) ((informationQuery r).among content') :=
    same.preorder.filter (informationQuery r)
  unfold contentFault?
  generalize (informationQuery r).among content = nodes,
    (informationQuery r).among content' = nodes' at met
  cases met with
  | nil => rfl
  | cons first rest =>
    cases rest with
    | nil => exact informationFault?_eq_of_sameElements first
    | cons => rfl

/-! ## The check -/

theorem check_eq_error_iff (receipt : Node) (v : Violation) :
    check r (some receipt.children) = .error v ↔
      v.message = Rule.message v.code ∧ FirstBreaks r receipt v.code := by
  rw [← contentFault?_eq_some_iff, check, fault?]
  obtain ⟨code, message⟩ := v
  cases contentFault? r receipt.children with
  | none => simp
  | some fault =>
    simp only [Except.error.injEq, broken, Violation.mk.injEq, Option.some.injEq]
    constructor
    · rintro ⟨rfl, rfl⟩
      exact ⟨rfl, rfl⟩
    · rintro ⟨rfl, rfl⟩
      exact ⟨rfl, rfl⟩

/-- A receipt passes exactly if it conforms. Otherwise the first rule that it breaks is reported, in
    the wording of that rule. Receipts whose elements have the same names and nesting get the same
    verdict, whatever else they hold. -/
theorem check_reports_first_broken (r : Registry) :
    (∀ receipt : Node, check r (some receipt.children) = .ok () ↔ Conforms r receipt) ∧
    (∀ (receipt : Node) (v : Violation), check r (some receipt.children) = .error v ↔
      v.message = Rule.message v.code ∧ FirstBreaks r receipt v.code) ∧
    ∀ receipt receipt' : Node, SameElements [receipt] [receipt'] →
      check r (some receipt.children) = check r (some receipt'.children) := by
  refine ⟨check_eq_ok_iff, check_eq_error_iff, fun receipt receipt' same => ?_⟩
  have content : SameElements receipt.children receipt'.children := by
    cases receipt <;> cases receipt' <;>
      simp_all [SameElements, Node.outlines, Node.children]
  rw [check, check, fault?, fault?, contentFault?_eq_of_sameElements content]

/-! ## Receipts that differ in more than elements -/

def shortRegistry : Registry := ⟨[("ds", "urn:d"), ("eb", "urn:e"), ("ebbp", "urn:b")]⟩

/-- An element with nothing but a name. -/
def bareElement (space localName : String) (children : List Node) : Node :=
  .element ⟨⟨some space, localName⟩, [], []⟩ children

def barePart (children : List Node) : Node :=
  bareElement "urn:b" "MessagePartNRInformation" children

/-- A part that conforms. -/
def soundPart : Node := barePart [bareElement "urn:d" "Reference" []]

/-- A part without a digest reference: the only one stands deeper. -/
def lackingPart : Node :=
  barePart [bareElement "urn:b" "Reference" [bareElement "urn:d" "Reference" []]]

/-- A part with an identifier beside its reference. -/
def identifiedPart : Node :=
  barePart [bareElement "urn:b" "MessagePartIdentifier" [], bareElement "urn:d" "Reference" []]

def receiptOf (parts : List Node) : Node :=
  bareElement "urn:e" "Receipt" [bareElement "urn:b" "NonRepudiationInformation" parts]

/-- A receipt whose second part lacks a reference. -/
def bareReceipt : Node := receiptOf [soundPart, lackingPart, identifiedPart]

/-- The receipt with its last two parts exchanged. -/
def exchangedReceipt : Node := receiptOf [soundPart, identifiedPart, lackingPart]

mutual

/-- A node with a binding, an attribute and a comment in each element, and text behind it. -/
def dressed : Node → List Node
  | .element tag nodes =>
    [.element ⟨tag.name, [⟨some "p", "urn:b"⟩], [⟨⟨none, "id"⟩, "1"⟩]⟩
      (.comment "ebbp:MessagePartIdentifier" :: dressedAll nodes), .text "\n"]
  | n => [n]

def dressedAll : List Node → List Node
  | [] => []
  | n :: ns => dressed n ++ dressedAll ns

end

/-- The same receipt with bindings, attributes, comments and text. -/
def dressedReceipt (receipt : Node) : Node :=
  .element ⟨⟨some "urn:e", "Receipt"⟩, [⟨none, "urn:e"⟩], []⟩
    (.instruction "a b" :: dressedAll receipt.children)

/-- However a receipt is dressed, the first part that does not conform decides: without a reference
    in the one receipt, with an identifier beside it in the other. -/
theorem check_dressedReceipt :
    (SameElements [bareReceipt] [dressedReceipt bareReceipt] ∧
      check shortRegistry (some bareReceipt.children) =
        check shortRegistry (some (dressedReceipt bareReceipt).children) ∧
      FirstBreaks shortRegistry bareReceipt .missingDigestReference ∧
      FirstBreaks shortRegistry (dressedReceipt bareReceipt) .missingDigestReference) ∧
    (SameElements [exchangedReceipt] [dressedReceipt exchangedReceipt] ∧
      check shortRegistry (some exchangedReceipt.children) =
        check shortRegistry (some (dressedReceipt exchangedReceipt).children) ∧
      FirstBreaks shortRegistry exchangedReceipt .referenceWithIdentifier ∧
      FirstBreaks shortRegistry (dressedReceipt exchangedReceipt) .referenceWithIdentifier) := by
  obtain ⟨-, breaks, agree⟩ := check_reports_first_broken shortRegistry
  have alike {receipt receipt' : Node} {code : ConformanceCode}
      (same : SameElements [receipt] [receipt'])
      (reported : check shortRegistry (some receipt.children) = .error (broken code)) :
      SameElements [receipt] [receipt'] ∧
        check shortRegistry (some receipt.children) =
          check shortRegistry (some receipt'.children) ∧
        FirstBreaks shortRegistry receipt code ∧ FirstBreaks shortRegistry receipt' code := by
    have verdict := agree receipt receipt' same
    exact ⟨same, verdict, ((breaks _ _).1 reported).2, ((breaks _ _).1 (verdict ▸ reported)).2⟩
  have lacking : check shortRegistry (some bareReceipt.children) =
      .error (broken .missingDigestReference) := by decide +kernel
  have identified : check shortRegistry (some exchangedReceipt.children) =
      .error (broken .referenceWithIdentifier) := by decide +kernel
  refine ⟨alike ?_ lacking, alike ?_ identified⟩ <;>
    simp [SameElements, Node.outlines, bareReceipt, exchangedReceipt, receiptOf, soundPart,
      lackingPart, identifiedPart, barePart, bareElement, dressedReceipt, dressed, dressedAll,
      Node.children, tellName]

end MessageConformance.Receipt
