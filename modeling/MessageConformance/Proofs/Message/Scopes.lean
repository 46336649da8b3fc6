import MessageConformance.Message.Writer
import Mathlib.Data.List.Nodup

/-!
# Scopes that are written and read again

A start tag binds labels on top of those bound around it (`mem_scopeOf_iff`). The writer declares
what is new in a scope. Where every label is bound once, this gives the same bindings again, whatever
the order in which the surrounding ones came (`sameBindings_scopeOf`), and with the bindings every
label keeps what it stands for (`lookUp_eq_some_iff`).
-/

namespace MessageConformance.Message

/-- Every label is bound at most once. -/
def IsDistinct (scope : List Binding) : Prop := (scope.map (·.label)).Nodup

instance (scope : List Binding) : Decidable (IsDistinct scope) :=
  inferInstanceAs (Decidable (scope.map (·.label)).Nodup)

theorem isDistinct_nil : IsDistinct [] := List.nodup_nil

/-- Two scopes have the same bindings, in any order. -/
def SameBindings (scope scope' : List Binding) : Prop := ∀ b, b ∈ scope ↔ b ∈ scope'

theorem SameBindings.refl (scope : List Binding) : SameBindings scope scope := fun _ => Iff.rfl

theorem IsDistinct.eq_of_label {scope : List Binding} (distinct : IsDistinct scope) {b b' : Binding}
    (member : b ∈ scope) (member' : b' ∈ scope) (same : b.label = b'.label) : b = b' :=
  List.inj_on_of_nodup_map distinct member member' same

/-! ## Looking labels up -/

theorem mem_of_lookUp {scope : List Binding} {label : Option String} {uri : String}
    (found : lookUp scope label = some uri) : ⟨label, uri⟩ ∈ scope := by
  obtain ⟨⟨label', uri'⟩, first, rfl⟩ := Option.map_eq_some_iff.1 found
  obtain rfl : label' = label := by simpa using List.find?_some first
  exact List.mem_of_find?_eq_some first

theorem lookUp_eq_none_iff {scope : List Binding} {label : Option String} :
    lookUp scope label = none ↔ ∀ b ∈ scope, b.label ≠ label := by
  simp [lookUp]

/-- A label that is bound once stands for what it is bound to. -/
theorem lookUp_eq_some_iff {scope : List Binding} (distinct : IsDistinct scope)
    {label : Option String} {uri : String} :
    lookUp scope label = some uri ↔ ⟨label, uri⟩ ∈ scope := by
  refine ⟨mem_of_lookUp, fun member => ?_⟩
  cases found : lookUp scope label with
  | none => exact absurd rfl (lookUp_eq_none_iff.1 found _ member)
  | some uri' =>
    have same := distinct.eq_of_label (mem_of_lookUp found) member rfl
    exact congrArg (fun b => some b.uri) same

/-! ## Bindings that are taken over -/

theorem label_mem_inherit_iff {scope : List Binding} {outer : Binding} {label : Option String} :
    label ∈ (inherit scope outer).map (·.label) ↔
      label ∈ scope.map (·.label) ∨ label = outer.label := by
  unfold inherit
  split
  · next bound =>
    obtain ⟨b, member, same⟩ := List.any_eq_true.1 bound
    have there : outer.label ∈ scope.map (·.label) :=
      List.mem_map.2 ⟨b, member, by simpa using same⟩
    exact ⟨.inl, fun either => either.elim id fun same => same ▸ there⟩
  · simp

theorem mem_inherit_iff {scope : List Binding} {outer b : Binding} :
    b ∈ inherit scope outer ↔
      b ∈ scope ∨ (b = outer ∧ outer.label ∉ scope.map (·.label)) := by
  unfold inherit
  split
  · next bound =>
    obtain ⟨b', member, same⟩ := List.any_eq_true.1 bound
    have there : outer.label ∈ scope.map (·.label) :=
      List.mem_map.2 ⟨b', member, by simpa using same⟩
    simp [there]
  · next free =>
    have absent : outer.label ∉ scope.map (·.label) := by
      simpa [List.any_eq_true] using free
    simp [absent]

theorem label_mem_foldl_inherit_iff {scope outer : List Binding} {label : Option String} :
    label ∈ (outer.foldl inherit scope).map (·.label) ↔
      label ∈ scope.map (·.label) ∨ label ∈ outer.map (·.label) := by
  induction outer generalizing scope with
  | nil => simp
  | cons b outer ih =>
    rw [List.foldl_cons, ih, label_mem_inherit_iff, List.map_cons, List.mem_cons, or_assoc]

theorem isDistinct_inherit {scope : List Binding} (distinct : IsDistinct scope) (outer : Binding) :
    IsDistinct (inherit scope outer) := by
  unfold inherit
  split
  · exact distinct
  · next free =>
    have absent : outer.label ∉ scope.map (·.label) := by
      simpa [List.any_eq_true] using free
    rw [IsDistinct, List.map_append, List.nodup_append]
    refine ⟨distinct, by simp, ?_⟩
    rintro label member _ last rfl
    rw [List.map_singleton, List.mem_singleton] at last
    exact absent (last ▸ member)

theorem isDistinct_foldl_inherit {scope : List Binding} (distinct : IsDistinct scope)
    (outer : List Binding) : IsDistinct (outer.foldl inherit scope) := by
  induction outer generalizing scope with
  | nil => exact distinct
  | cons b outer ih => exact ih (isDistinct_inherit distinct b)

/-- Of the bindings around a tag those are taken over whose label it does not bind. -/
theorem mem_foldl_inherit_iff {scope outer : List Binding} (distinct : IsDistinct outer)
    {b : Binding} :
    b ∈ outer.foldl inherit scope ↔
      b ∈ scope ∨ (b ∈ outer ∧ b.label ∉ scope.map (·.label)) := by
  induction outer generalizing scope with
  | nil => simp
  | cons first outer ih =>
    rw [IsDistinct, List.map_cons, List.nodup_cons] at distinct
    rw [List.foldl_cons, ih distinct.2, mem_inherit_iff, label_mem_inherit_iff, List.mem_cons]
    have apart (member : b ∈ outer) : b.label ≠ first.label :=
      fun same => distinct.1 (same ▸ List.mem_map_of_mem member)
    constructor
    · rintro ((inside | ⟨rfl, free⟩) | ⟨member, free⟩)
      · exact .inl inside
      · exact .inr ⟨.inl rfl, free⟩
      · exact .inr ⟨.inr member, fun bound => free (.inl bound)⟩
    · rintro (inside | ⟨rfl | member, free⟩)
      · exact .inl (.inl inside)
      · exact .inl (.inr ⟨rfl, free⟩)
      · exact .inr ⟨member, fun either => either.elim free (apart member)⟩

/-- Every label that is bound around a tag is bound inside it. -/
theorem exists_label_of_mem {declared outer : List Binding} {b : Binding} (member : b ∈ outer) :
    ∃ b' ∈ scopeOf declared outer, b'.label = b.label := by
  unfold scopeOf
  split
  · exact ⟨b, member, rfl⟩
  · have there : b.label ∈ (outer.foldl inherit declared).map (·.label) :=
      label_mem_foldl_inherit_iff.2 (.inr (List.mem_map_of_mem member))
    exact List.mem_map.1 there

theorem mem_of_mem_scopeOf {declared outer : List Binding} {b : Binding}
    (member : b ∈ scopeOf declared outer) : b ∈ declared ∨ b ∈ outer := by
  unfold scopeOf at member
  split at member
  · exact .inr member
  · clear * - member
    induction outer generalizing declared with
    | nil => exact .inl member
    | cons first outer ih =>
      rcases ih member with inside | member
      · rcases mem_inherit_iff.1 inside with inside | ⟨rfl, -⟩
        · exact .inl inside
        · exact .inr (List.mem_cons_self ..)
      · exact .inr (List.mem_cons_of_mem _ member)

theorem isDistinct_scopeOf {declared outer : List Binding} (distinct : IsDistinct declared)
    (around : IsDistinct outer) : IsDistinct (scopeOf declared outer) := by
  unfold scopeOf
  split
  · exact around
  · exact isDistinct_foldl_inherit distinct outer

/-- What a tag binds, and what it takes over. -/
theorem mem_scopeOf_iff {declared outer : List Binding} (distinct : IsDistinct outer)
    {b : Binding} :
    b ∈ scopeOf declared outer ↔
      b ∈ declared ∨ (b ∈ outer ∧ b.label ∉ declared.map (·.label)) := by
  unfold scopeOf
  split
  · next none =>
    obtain rfl := List.isEmpty_iff.1 none
    simp
  · exact mem_foldl_inherit_iff distinct

/-! ## Bindings that are declared -/

theorem hasDefault_eq_true_iff {scope : List Binding} :
    hasDefault scope = true ↔ ∃ uri, ⟨none, uri⟩ ∈ scope := by
  simp only [hasDefault, List.any_eq_true, decide_eq_true_eq]
  constructor
  · rintro ⟨⟨label, uri⟩, member, rfl⟩
    exact ⟨uri, member⟩
  · rintro ⟨uri, member⟩
    exact ⟨_, member, rfl⟩

/-- The outermost tag declares everything. -/
theorem declarations_none (scope : List Binding) : declarations none scope = declarations (some []) scope := by
  simp [declarations, hasDefault]

/-- Every label around a tag is bound inside it too. -/
def Covers (outer scope : List Binding) : Prop := ∀ b ∈ outer, ∃ b' ∈ scope, b'.label = b.label

theorem covers_nil (scope : List Binding) : Covers [] scope := by
  simp [Covers]

/-- A default namespace never ends without another, so it is never undeclared. -/
theorem declarations_some {outer scope : List Binding} (covers : Covers outer scope) :
    declarations (some outer) scope = scope.filter fun b => !outer.contains b := by
  have kept (default : hasDefault outer = true) : hasDefault scope = true := by
    obtain ⟨uri, member⟩ := hasDefault_eq_true_iff.1 default
    obtain ⟨⟨label, uri'⟩, member', rfl⟩ := covers _ member
    exact hasDefault_eq_true_iff.2 ⟨uri', member'⟩
  cases default : hasDefault outer <;> simp [declarations, default, kept]

theorem mem_declarations_iff {outer scope : List Binding} (covers : Covers outer scope) {b : Binding} :
    b ∈ declarations (some outer) scope ↔ b ∈ scope ∧ b ∉ outer := by
  simp [declarations_some covers]

theorem isDistinct_declarations {outer scope : List Binding} (covers : Covers outer scope)
    (distinct : IsDistinct scope) : IsDistinct (declarations (some outer) scope) := by
  rw [declarations_some covers]
  exact distinct.sublist (List.Sublist.map _ List.filter_sublist)

/-- What is declared of a scope gives its bindings, where those around it are given. -/
theorem sameBindings_scopeOf {outer outer' scope : List Binding} (covers : Covers outer scope)
    (distinct : IsDistinct scope) (distinct' : IsDistinct outer') (same : SameBindings outer outer') :
    SameBindings scope (scopeOf (declarations (some outer) scope) outer') := by
  intro b
  rw [mem_scopeOf_iff distinct', mem_declarations_iff covers, ← same b]
  constructor
  · intro member
    by_cases around : b ∈ outer
    · refine .inr ⟨around, fun bound => ?_⟩
      obtain ⟨b', declared, label⟩ := List.mem_map.1 bound
      obtain ⟨member', new⟩ := (mem_declarations_iff covers).1 declared
      exact new (distinct.eq_of_label member' member label ▸ around)
    · exact .inl ⟨member, around⟩
  · rintro (⟨member, -⟩ | ⟨around, free⟩)
    · exact member
    · obtain ⟨b', member', label⟩ := covers b around
      have old : b' ∈ outer := by
        by_contra new
        have declared := (mem_declarations_iff covers).2 ⟨member', new⟩
        exact free (List.mem_map.2 ⟨b', declared, label⟩)
      exact distinct'.eq_of_label ((same b').1 old) ((same b).1 around) label ▸ member'

end MessageConformance.Message
