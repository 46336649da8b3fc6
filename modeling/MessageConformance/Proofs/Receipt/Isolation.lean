import MessageConformance.Proofs.Message.Trees
import MessageConformance.Proofs.Receipt.Verdict

/-!
# The rest of an envelope

What an envelope holds beside its header has no influence. Trees that were read from the same
header in different envelopes are one `Branch`, placed inside each (`exists_branch`); where the
envelopes declare the same namespaces, two messages with the same header are inspected in the same
way, step by step (`inspect_eq_of_isEnvelope`).
-/

namespace MessageConformance.Receipt

open Message

/-! ## Trees without their surroundings -/

/-- A tree apart from what surrounds it: an element has the bindings that it declares itself. -/
inductive Branch where
  | element (name : Name) (declared : List Binding) (attributes : List Attribute)
      (inside : List Branch)
  | text (content : String)
  | comment (content : String)
  | instruction (content : String)

mutual

/-- The tree that a branch is where some bindings are in scope. -/
def Branch.place (outer : List Binding) : Branch → Node
  | .element name declared attributes inside =>
    .element ⟨name, scopeOf declared outer, attributes⟩ (placeAll (scopeOf declared outer) inside)
  | .text content => .text content
  | .comment content => .comment content
  | .instruction content => .instruction content

def Branch.placeAll (outer : List Binding) : List Branch → List Node
  | [] => []
  | b :: bs => b.place outer :: placeAll outer bs

end

theorem exists_placeAll {outer : List Binding} {nodes : List Node}
    (placed : ∀ n ∈ nodes, ∃ b : Branch, b.place outer = n) :
    ∃ bs, Branch.placeAll outer bs = nodes := by
  induction nodes with
  | nil => exact ⟨[], rfl⟩
  | cons n nodes ih =>
    obtain ⟨⟨b, first⟩, rest⟩ := List.forall_mem_cons.1 placed
    obtain ⟨bs, others⟩ := ih rest
    exact ⟨b :: bs, by rw [Branch.placeAll, first, others]⟩

/-- Every node of a message is a branch, placed where it stands. -/
theorem exists_branch {outer : List Binding} {n : Node} (sound : n.IsSound outer) :
    ∃ b : Branch, b.place outer = n := by
  induction sound with
  | @element outer tag nodes tagSound _ ih =>
    obtain ⟨declared, inherits⟩ := tagSound.inherits
    obtain ⟨inside, same⟩ := exists_placeAll ih
    refine ⟨.element tag.name declared tag.attributes inside, ?_⟩
    rw [Branch.place, ← inherits, same]
  | text => exact ⟨.text _, rfl⟩
  | comment content => exact ⟨.comment content, rfl⟩
  | instruction content => exact ⟨.instruction content, rfl⟩

/-! ## Envelopes -/

/-- A message is an envelope that declares some namespaces and has a branch as its first header. -/
structure IsEnvelope (declared : List Binding) (header : Branch) (d : Document) : Prop where
  envelope : d.tag.name.localName = "Envelope"
  declares : d.tag.scope = scopeOf declared []
  first : d.content.find? (fun n => n.localName? = some "Header") = some (header.place d.tag.scope)

theorem IsEnvelope.headerScope?_eq {declared : List Binding} {header : Branch} {d : Document}
    (envelope : IsEnvelope declared header d) :
    headerScope? d.root = some (header.place (scopeOf declared [])) := by
  have name : d.root.localName? = some "Envelope" := congrArg some envelope.envelope
  rw [headerScope?, if_pos name, ← envelope.declares]
  exact envelope.first

/-- A value that is there is handed on. -/
theorem ofExcept_ok_bind {α β : Type} (a : α) (next : α → Attempt β) :
    (Attempt.ofExcept (.ok a) >>= next) = next a := by
  have runs (c : Cache) :
      (Attempt.ofExcept (.ok a) >>= next).run.run c = (next a).run.run c := by
    rw [Attempt.run_bind, Attempt.outcome_ofExcept, Attempt.after_ofExcept, Attempt.trace_ofExcept]
    exact congrArg (Prod.mk _) (Trace.nothing_append _)
  exact congrArg Work.mk (funext runs)

section

variable {engine : Engine} {store : Store} {r : Registry} {mode : Mode} {message₁ message₂ : String}
  {d₁ d₂ : Document}

/-- Messages are judged alike when the same part of them is searched. -/
theorem judge_eq_of_headerScope? (parsed₁ : Document.parse message₁ = .ok d₁)
    (parsed₂ : Document.parse message₂ = .ok d₂)
    (same : headerScope? d₁.root = headerScope? d₂.root) :
    judge engine store r message₁ = judge engine store r message₂ := by
  have read₁ : (Document.parse message₁).mapError Failure.document = .ok d₁ := by rw [parsed₁]; rfl
  have read₂ : (Document.parse message₂).mapError Failure.document = .ok d₂ := by rw [parsed₂]; rfl
  rw [judge, judge, read₁, read₂, ofExcept_ok_bind, ofExcept_ok_bind, same]

/-- Two envelopes that declare the same namespaces around the same header are inspected alike: the
    outcome is the same, with its cause and action, the cache is left the same, and the store and
    the engine are asked the same, down to the text that the engine is given. -/
theorem inspect_eq_of_isEnvelope {declared : List Binding} {header : Branch}
    (parsed₁ : Document.parse message₁ = .ok d₁) (parsed₂ : Document.parse message₂ = .ok d₂)
    (envelope₁ : IsEnvelope declared header d₁) (envelope₂ : IsEnvelope declared header d₂)
    (c : Cache) :
    (inspect engine store r mode message₁).run.run c =
      (inspect engine store r mode message₂).run.run c := by
  have same : headerScope? d₁.root = headerScope? d₂.root := by
    rw [envelope₁.headerScope?_eq, envelope₂.headerScope?_eq]
  rw [inspect, inspect, judge_eq_of_headerScope? parsed₁ parsed₂ same]

end

/-- A header with a receipt, and nothing else. -/
def receiptHeader : Branch :=
  .element ⟨some "urn:s", "Header"⟩ [] []
    [.element ⟨none, "Messaging"⟩ [] [] [.element ⟨none, "Receipt"⟩ [] [] []]]

/-- An envelope with nothing but the header. -/
def briefEnvelope : String :=
  "<s:Envelope xmlns:s=\"urn:s\"><s:Header><Messaging><Receipt/></Messaging></s:Header></s:Envelope>"

/-- An envelope of another namespace with an attribute, a body and a second header. -/
def ladenEnvelope : String :=
  "<!--1--><Envelope xmlns:s=\"urn:s\" a=\"2\"><Body/><s:Header><Messaging><Receipt/></Messaging>" ++
    "</s:Header><Header/>3</Envelope>"

theorem inspect_ladenEnvelope :
    (inspect (steadyEngine (.checked [] 0)) .empty ⟨[]⟩ .enforcing briefEnvelope).run.run
        receiptCache =
      (inspect (steadyEngine (.checked [] 0)) .empty ⟨[]⟩ .enforcing ladenEnvelope).run.run
        receiptCache := by
  let scope : List Binding := [⟨some "s", "urn:s"⟩]
  let header : Node := receiptHeader.place scope
  let brief : Document := ⟨[], ⟨⟨some "urn:s", "Envelope"⟩, scope, []⟩, [header], []⟩
  let laden : Document := ⟨[.comment "1"], ⟨⟨none, "Envelope"⟩, scope, [⟨⟨none, "a"⟩, "2"⟩]⟩,
    [.element ⟨⟨none, "Body"⟩, scope, []⟩ [], header, .element ⟨⟨none, "Header"⟩, scope, []⟩ [],
      .text "3"], []⟩
  have readBrief : Document.parse briefEnvelope = .ok brief := by cbv
  have readLaden : Document.parse ladenEnvelope = .ok laden := by cbv
  have briefHeader : IsEnvelope scope receiptHeader brief := ⟨rfl, rfl, rfl⟩
  have ladenHeader : IsEnvelope scope receiptHeader laden := ⟨rfl, rfl, rfl⟩
  exact inspect_eq_of_isEnvelope readBrief readLaden briefHeader ladenHeader _

end MessageConformance.Receipt
