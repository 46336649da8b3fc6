import MessageConformance.Proofs.Message.Scopes
import MessageConformance.Proofs.Message.Tokens
import MessageConformance.Proofs.Results

/-!
# Tags that are read, written, and read again

A tag that was read is sound: its names are bound in its scope, and its attributes have different
names (`Tag.isSound_of_read?`). A sound tag can always be written (`exists_raw`). Where its labels are
orderly and its namespaces have no tabs or line ends, the tag is read back with the same name, the
same bindings and the same attribute names, and with its values normalised (`read?_raw`).
-/

namespace MessageConformance.Message

open Markup

/-! ## Tags that are read -/

/-- What start tags can bind: labels other than `xml`, to namespaces that are not reserved. -/
structure Binding.IsSound (b : Binding) : Prop where
  label : ∀ label, b.label = some label → IsName label ∧ label ≠ "xml"
  uri : AllCharacters b.uri.toList
  unreserved : b.uri ≠ xmlSpace ∧ b.uri ≠ declarationSpace

/-- An attribute has a name that declares nothing, and its namespace has a label in scope. -/
structure Attribute.IsSound (scope : List Binding) (a : Attribute) : Prop where
  localName : IsName a.name.localName
  declaresNothing : a.name.localName ≠ "xmlns"
  bound : ∀ uri, a.name.space = some uri → uri = xmlSpace ∨ ∃ label, ⟨some label, uri⟩ ∈ scope
  value : AllCharacters a.value.toList

/-- What holds of every tag that is read where some bindings are in scope. -/
structure Tag.IsSound (outer : List Binding) (tag : Tag) : Prop where
  inherits : ∃ declared, tag.scope = scopeOf declared outer
  bindings : ∀ b ∈ tag.scope, b.IsSound
  localName : IsName tag.name.localName
  bound : ∀ uri, tag.name.space = some uri → ∃ label, ⟨label, uri⟩ ∈ tag.scope
  unbound : tag.name.space = none → ∀ b ∈ tag.scope, b.label ≠ none
  attributes : ∀ a ∈ tag.attributes, a.IsSound tag.scope
  distinct : (tag.attributes.map (·.name)).Nodup

structure ReadAttribute.IsSound (a : ReadAttribute) : Prop where
  name : QualifiedName.IsSound a.name
  value : AllCharacters a.value.toList

theorem isSound_of_readAttributes? {raw : List RawAttribute} {attributes : List ReadAttribute}
    (sound : ∀ a ∈ raw, a.IsSound) (read : readAttributes? raw = some attributes) :
    ∀ a ∈ attributes, a.IsSound := by
  induction raw generalizing attributes with
  | nil =>
    obtain rfl := Option.some.inj read
    simp
  | cons a raw ih =>
    obtain ⟨first, rest⟩ := List.forall_mem_cons.1 sound
    simp only [readAttributes?, List.mapM_cons, Option.bind_eq_bind, Option.bind_eq_some_iff,
      Option.map_eq_some_iff, Option.pure_def, Option.some.injEq] at read
    obtain ⟨_, ⟨value, expanded, rfl⟩, later, read, rfl⟩ := read
    refine List.forall_mem_cons.2 ⟨⟨first.name, ?_⟩, ih rest read⟩
    exact isCharacter_attributeValue? first.value expanded

theorem ReadAttribute.isSound_of_declare? {declared declared' : List Binding} {a : ReadAttribute}
    (sound : a.IsSound) (before : ∀ b ∈ declared, b.IsSound)
    (read : a.declare? declared = some declared') : ∀ b ∈ declared', b.IsSound := by
  have join {b : Binding} (last : b.IsSound) : ∀ b' ∈ declared ++ [b], b'.IsSound := by
    intro b' member
    rcases List.mem_append.1 member with member | member
    · exact before b' member
    · exact List.mem_singleton.1 member ▸ last
  unfold ReadAttribute.declare? at read
  by_cases reserved : a.value = declarationSpace
  · simp [reserved] at read
  rw [if_neg reserved] at read
  by_cases labelled : a.name.label = "xmlns"
  · rw [if_pos labelled] at read
    by_cases builtIn : a.name.localName = "xml"
    · rw [if_pos builtIn, Option.ite_none_right_eq_some] at read
      exact Option.some.inj read.2 ▸ before
    · rw [if_neg builtIn, Option.ite_none_left_eq_some, Option.ite_none_left_eq_some] at read
      obtain ⟨space, -, same⟩ := read
      obtain rfl := Option.some.inj same
      refine join ⟨?_, sound.value, space, reserved⟩
      rintro label ⟨⟩
      exact ⟨sound.name.localName, builtIn⟩
  · rw [if_neg labelled, Option.ite_none_left_eq_some] at read
    obtain ⟨space, same⟩ := read
    obtain rfl := Option.some.inj same
    exact join ⟨by simp, sound.value, space, reserved⟩

theorem isSound_of_foldlM_declare? {attributes : List ReadAttribute}
    (sound : ∀ a ∈ attributes, a.IsSound) {declared declared' : List Binding}
    (before : ∀ b ∈ declared, b.IsSound)
    (read : attributes.foldlM ReadAttribute.declare? declared = some declared') :
    ∀ b ∈ declared', b.IsSound := by
  induction attributes generalizing declared with
  | nil => exact Option.some.inj read ▸ before
  | cons a attributes ih =>
    obtain ⟨first, rest⟩ := List.forall_mem_cons.1 sound
    rw [List.foldlM_cons] at read
    obtain ⟨next, step, read⟩ := Option.bind_eq_some_iff.1 read
    exact ih rest (ReadAttribute.isSound_of_declare? first before step) read

theorem elementName?_bound {scope : List Binding} {q : QualifiedName} {name : Name}
    (read : elementName? scope q = some name) :
    name.localName = q.localName ∧ (∀ uri, name.space = some uri → ∃ label, ⟨label, uri⟩ ∈ scope) ∧
      (name.space = none → ∀ b ∈ scope, b.label ≠ none) := by
  unfold elementName? at read
  split at read
  · obtain rfl := Option.some.inj read
    exact ⟨rfl, fun uri space => ⟨none, mem_of_lookUp space⟩, lookUp_eq_none_iff.1⟩
  · rw [Option.ite_none_left_eq_some] at read
    obtain ⟨uri, found, rfl⟩ := Option.map_eq_some_iff.1 read.2
    refine ⟨rfl, ?_, by simp⟩
    rintro _ ⟨⟩
    exact ⟨_, mem_of_lookUp found⟩

theorem attributeName?_bound {scope : List Binding} {q : QualifiedName} {name : Name}
    (read : attributeName? scope q = some name) :
    name.localName = q.localName ∧
      ∀ uri, name.space = some uri → uri = xmlSpace ∨ ∃ label, ⟨some label, uri⟩ ∈ scope := by
  unfold attributeName? at read
  split at read
  · obtain rfl := Option.some.inj read
    exact ⟨rfl, by simp⟩
  · split at read
    · obtain rfl := Option.some.inj read
      exact ⟨rfl, fun uri same => .inl (Option.some.inj same).symm⟩
    · obtain ⟨uri, found, rfl⟩ := Option.map_eq_some_iff.1 read
      refine ⟨rfl, ?_⟩
      rintro _ ⟨⟩
      exact .inr ⟨_, mem_of_lookUp found⟩

/-- Attributes that are named in a scope are sound in it, and have different names. -/
theorem isSound_of_foldlM_addAttribute? {scope : List Binding} {attributes : List ReadAttribute}
    (sound : ∀ a ∈ attributes, a.IsSound ∧ a.declares = false) (named : List Attribute)
    {named' : List Attribute}
    (before : (∀ a ∈ named, a.IsSound scope) ∧ (named.map (·.name)).Nodup)
    (read : attributes.foldlM (addAttribute? scope) named = some named') :
    (∀ a ∈ named', a.IsSound scope) ∧ (named'.map (·.name)).Nodup := by
  induction attributes generalizing named with
  | nil => exact Option.some.inj read ▸ before
  | cons a attributes ih =>
    obtain ⟨⟨first, plain⟩, rest⟩ := List.forall_mem_cons.1 sound
    rw [List.foldlM_cons] at read
    obtain ⟨next, step, read⟩ := Option.bind_eq_some_iff.1 read
    refine ih rest next ?_ read
    obtain ⟨name, meant, added⟩ := Option.bind_eq_some_iff.1 step
    rw [Option.ite_none_left_eq_some] at added
    obtain ⟨new, same⟩ := added
    obtain rfl := Option.some.inj same
    obtain ⟨localName, bound⟩ := attributeName?_bound meant
    simp only [ReadAttribute.declares, decide_eq_false_iff_not, not_or] at plain
    have last : Attribute.IsSound scope ⟨name, a.value⟩ :=
      ⟨localName ▸ first.name.localName, localName ▸ plain.2, bound, first.value⟩
    refine ⟨fun b member => ?_, ?_⟩
    · rcases List.mem_append.1 member with member | member
      · exact before.1 b member
      · exact List.mem_singleton.1 member ▸ last
    · rw [List.map_append, List.nodup_append]
      refine ⟨before.2, by simp, ?_⟩
      rintro _ member _ last rfl
      obtain ⟨b, there, label⟩ := List.mem_map.1 member
      refine new (List.any_eq_true.2 ⟨b, there, ?_⟩)
      simpa [label] using last

/-- A tag that is read is sound in what is in scope around it. -/
theorem Tag.isSound_of_read? {outer : List Binding} {name : QualifiedName} {raw : List RawAttribute}
    {tag : Tag} (around : ∀ b ∈ outer, b.IsSound) (named : QualifiedName.IsSound name)
    (sound : ∀ a ∈ raw, a.IsSound) (read : Tag.read? outer name raw = some tag) :
    tag.IsSound outer := by
  simp only [Tag.read?, Option.bind_eq_bind, Option.bind_eq_some_iff, Option.pure_def,
    Option.some.injEq] at read
  obtain ⟨attributes, expanded, declared, declares, meant, names, own, added, rfl⟩ := read
  have attributesSound := isSound_of_readAttributes? sound expanded
  have declaredSound : ∀ b ∈ declared, b.IsSound := by
    refine isSound_of_foldlM_declare? (fun a member => ?_) (by simp) declares
    exact attributesSound a (List.mem_of_mem_filter member)
  obtain ⟨ownSound, distinct⟩ := isSound_of_foldlM_addAttribute?
    (fun a member => ⟨attributesSound a (List.mem_of_mem_filter member),
      by simpa using (List.mem_filter.1 member).2⟩) [] ⟨by simp, by simp⟩ added
  obtain ⟨localName, bound, unbound⟩ := elementName?_bound names
  refine ⟨⟨declared, rfl⟩, fun b member => ?_, localName ▸ named.localName, bound, unbound, ownSound,
    distinct⟩
  exact (mem_of_mem_scopeOf member).elim (declaredSound b) (around b)

/-! ## Tags that are written -/

/-- The labels of a scope can be declared together: each is bound once, and none is that of
    declarations. -/
structure IsOrderly (scope : List Binding) : Prop where
  distinct : IsDistinct scope
  unreserved : ∀ b ∈ scope, b.label ≠ some "xmlns"

instance (scope : List Binding) : Decidable (IsOrderly scope) :=
  decidable_of_iff (IsDistinct scope ∧ ∀ b ∈ scope, b.label ≠ some "xmlns")
    ⟨fun ⟨distinct, unreserved⟩ => ⟨distinct, unreserved⟩,
      fun ⟨distinct, unreserved⟩ => ⟨distinct, unreserved⟩⟩

theorem Tag.IsSound.covers {outer : List Binding} {tag : Tag} (sound : tag.IsSound outer) :
    Covers outer tag.scope := by
  obtain ⟨declared, inherits⟩ := sound.inherits
  rw [inherits]
  exact fun b member => exists_label_of_mem member

theorem findSome?_label_eq_some {bindings : List Binding} {label : String}
    (found : bindings.findSome? (·.label) = some label) : ∃ uri, ⟨some label, uri⟩ ∈ bindings := by
  obtain ⟨⟨label', uri⟩, member, same⟩ := List.exists_of_findSome?_eq_some found
  exact ⟨uri, same ▸ member⟩

/-- A label that a name is written with by the first suitable binding. -/
theorem exists_label_of_filter {scope : List Binding} {label uri : String}
    (found : (scope.filter (·.uri = uri)).findSome? (·.label) = some label) :
    ⟨some label, uri⟩ ∈ scope := by
  obtain ⟨uri', member⟩ := findSome?_label_eq_some found
  obtain ⟨member, same⟩ := List.mem_filter.1 member
  simp only [decide_eq_true_eq] at same
  exact same ▸ member

theorem lookUp_of_chosen {scope scope' : List Binding} {label uri : String}
    (chosen : (scope.filter (·.uri = uri)).findSome? (·.label) = some label)
    (orderly : IsOrderly scope) (distinct : IsDistinct scope') (same : SameBindings scope scope') :
    label ≠ "xmlns" ∧ lookUp scope' (some label) = some uri := by
  have member := exists_label_of_filter chosen
  refine ⟨fun reserved => ?_, (lookUp_eq_some_iff distinct).2 ((same _).1 member)⟩
  exact orderly.unreserved _ member (by rw [reserved])

/-- Where no label is found for a URI, only the default is bound to it. -/
theorem label_eq_none_of_unchosen {scope : List Binding} {label : Option String} {uri : String}
    (unchosen : (scope.filter (·.uri = uri)).findSome? (·.label) = none)
    (bound : ⟨label, uri⟩ ∈ scope) : label = none :=
  List.findSome?_eq_none_iff.1 unchosen ⟨label, uri⟩ (by simpa using bound)

/-- The name of a tag can be written, and means the same in every orderly scope with the same
    bindings. -/
theorem Tag.IsSound.exists_qualify {outer : List Binding} {tag : Tag} (sound : tag.IsSound outer) :
    ∃ q, qualify tag.scope true tag.name = .ok q ∧ QualifiedName.IsSound q ∧
      ∀ scope', IsOrderly tag.scope → IsDistinct scope' → SameBindings tag.scope scope' →
        elementName? scope' q = some tag.name := by
  obtain ⟨⟨space, localName⟩, scope, attributes⟩ := tag
  have named := sound.localName
  cases space with
  | none =>
    refine ⟨⟨"", localName⟩, rfl, ⟨.inl rfl, named⟩, fun scope' _ _ same => ?_⟩
    have free : lookUp scope' none = none :=
      lookUp_eq_none_iff.2 fun b member => sound.unbound rfl b ((same b).2 member)
    simp [elementName?, free]
  | some uri =>
    obtain ⟨label, bound⟩ := sound.bound uri rfl
    have other : uri ≠ xmlSpace := (sound.bindings _ bound).unreserved.1
    by_cases default : hasDefault (scope.filter (·.uri = uri)) = true
    · refine ⟨⟨"", localName⟩, by simp [qualify, other, default], ⟨.inl rfl, named⟩, ?_⟩
      intro scope' _ distinct same
      obtain ⟨uri', member⟩ := hasDefault_eq_true_iff.1 default
      obtain ⟨there, uriSame⟩ := List.mem_filter.1 member
      obtain rfl : uri' = uri := by simpa using uriSame
      have found := (lookUp_eq_some_iff distinct).2 ((same _).1 there)
      simp [elementName?, found]
    · cases chosen : (scope.filter (·.uri = uri)).findSome? (·.label) with
      | none =>
        -- An element may be written without a label, so the default would have been taken.
        obtain rfl := label_eq_none_of_unchosen chosen bound
        refine absurd (hasDefault_eq_true_iff.2 ⟨uri, ?_⟩) default
        simpa using bound
      | some chosenLabel =>
        have name := (sound.bindings _ (exists_label_of_filter chosen)).label _ rfl
        refine ⟨⟨chosenLabel, localName⟩, by simp [qualify, other, default, chosen],
          ⟨.inr name.1, named⟩, fun scope' orderly distinct same => ?_⟩
        obtain ⟨free, found⟩ := lookUp_of_chosen chosen orderly distinct same
        simp [elementName?, name.1.ne_empty, free, found]

theorem isName_xml : IsName "xml" := ⟨by decide, by decide, List.all_eq_true.1 (by decide)⟩

/-- The name of an attribute can be written, declares nothing, and means the same in every orderly
    scope with the same bindings. -/
theorem Attribute.IsSound.exists_qualify {scope : List Binding} {a : Attribute}
    (bindings : ∀ b ∈ scope, b.IsSound) (sound : a.IsSound scope) :
    ∃ q, qualify scope false a.name = .ok q ∧ QualifiedName.IsSound q ∧ q.localName ≠ "xmlns" ∧
      ∀ scope', IsOrderly scope → IsDistinct scope' → SameBindings scope scope' →
        q.label ≠ "xmlns" ∧ attributeName? scope' q = some a.name := by
  obtain ⟨⟨space, localName⟩, value⟩ := a
  have named := sound.localName
  have plain := sound.declaresNothing
  cases space with
  | none =>
    exact ⟨⟨"", localName⟩, rfl, ⟨.inl rfl, named⟩, plain, fun scope' _ _ _ =>
      ⟨by simp, by simp [attributeName?]⟩⟩
  | some uri =>
    by_cases builtIn : uri = xmlSpace
    · subst builtIn
      exact ⟨⟨"xml", localName⟩, by simp [qualify], ⟨.inr isName_xml, named⟩, plain, fun scope' _ _ _ =>
        ⟨by simp, by simp [attributeName?]⟩⟩
    · obtain ⟨label, bound⟩ := (sound.bound uri rfl).resolve_left builtIn
      cases chosen : (scope.filter (·.uri = uri)).findSome? (·.label) with
      | none =>
        simpa using label_eq_none_of_unchosen chosen bound
      | some chosenLabel =>
        have name := (bindings _ (exists_label_of_filter chosen)).label _ rfl
        refine ⟨⟨chosenLabel, localName⟩, by simp [qualify, builtIn, chosen], ⟨.inr name.1, named⟩,
          plain, fun scope' orderly distinct same => ?_⟩
        obtain ⟨free, found⟩ := lookUp_of_chosen chosen orderly distinct same
        exact ⟨free, by simp [attributeName?, name.1.ne_empty, name.2, found]⟩

/-! ## Declarations that are written -/

theorem isName_xmlns : IsName "xmlns" := ⟨by decide, by decide, List.all_eq_true.1 (by decide)⟩

theorem Binding.IsSound.isSound_declaration {b : Binding} (sound : b.IsSound) :
    QualifiedName.IsSound b.declaration.name := by
  obtain ⟨label, uri⟩ := b
  cases label with
  | none => exact ⟨.inl rfl, isName_xmlns⟩
  | some label => exact ⟨.inr isName_xmlns, (sound.label label rfl).1⟩

theorem Binding.declares_declaration (b : Binding) (value : String) :
    (ReadAttribute.mk b.declaration.name value).declares = true := by
  obtain ⟨label, uri⟩ := b
  cases label <;> simp [Binding.declaration, ReadAttribute.declares]

/-- A binding whose label is new is declared by what is written of it. -/
theorem Binding.IsSound.declare?_declaration {b : Binding} (sound : b.IsSound)
    {declared : List Binding} (new : b.label ∉ declared.map (·.label)) :
    (ReadAttribute.mk b.declaration.name b.uri).declare? declared = some (declared ++ [b]) := by
  obtain ⟨label, uri⟩ := b
  obtain ⟨space, declarationSpace⟩ := sound.unreserved
  cases label with
  | none => simp_all [Binding.declaration, ReadAttribute.declare?]
  | some label =>
    have other := (sound.label label rfl).2
    simp_all [Binding.declaration, ReadAttribute.declare?]

theorem foldlM_declare?_declarations {bindings : List Binding} (sound : ∀ b ∈ bindings, b.IsSound)
    {declared : List Binding} (distinct : IsDistinct (declared ++ bindings)) :
    (bindings.map fun b => ReadAttribute.mk b.declaration.name b.uri).foldlM
      ReadAttribute.declare? declared = some (declared ++ bindings) := by
  induction bindings generalizing declared with
  | nil => simp
  | cons b bindings ih =>
    obtain ⟨first, rest⟩ := List.forall_mem_cons.1 sound
    have new : b.label ∉ declared.map (·.label) := by
      intro member
      rw [IsDistinct, List.map_append, List.nodup_append] at distinct
      exact distinct.2.2 b.label member b.label (by simp) rfl
    rw [List.map_cons, List.foldlM_cons, first.declare?_declaration new, Option.bind_eq_bind,
      Option.bind_some, ih rest (by simpa using distinct)]
    simp

/-! ## Attributes that are written -/

theorem readAttributes?_append (first second : List RawAttribute) :
    readAttributes? (first ++ second) =
      (readAttributes? first).bind fun as => (readAttributes? second).map (as ++ ·) := by
  simp only [readAttributes?, List.mapM_append, Option.bind_eq_bind, Option.pure_def,
    Option.map_eq_bind, Function.comp_def]

theorem readAttributes?_declarations {bindings : List Binding} (level : ∀ b ∈ bindings, IsLevel b.uri) :
    readAttributes? (bindings.map Binding.declaration) =
      some (bindings.map fun b => ⟨b.declaration.name, b.uri⟩) := by
  induction bindings with
  | nil => rfl
  | cons b bindings ih =>
    obtain ⟨first, rest⟩ := List.forall_mem_cons.1 level
    have value : attributeValue? b.declaration.value = some b.uri :=
      (attributeValue?_escape b.uri).trans (congrArg some ((normalized_eq_self_iff b.uri).2 first))
    have later := ih rest
    simp only [readAttributes?] at later ⊢
    simp [value, later]

/-- An attribute with its value as it is read after it was written. -/
def Attribute.again (a : Attribute) : Attribute := ⟨a.name, normalized a.value⟩

/-- The attributes of a sound tag can be written. They are read back with their names, and with
    normalised values. -/
theorem exists_raw_attributes {scope : List Binding} (bindings : ∀ b ∈ scope, b.IsSound)
    {attributes : List Attribute} (sound : ∀ a ∈ attributes, a.IsSound scope) :
    ∃ raw, attributes.mapM (Attribute.raw scope) = .ok raw ∧
      (∀ a ∈ raw, a.IsSound ∧ ∀ c ∈ a.value, c ≠ '<' ∧ c ≠ '"') ∧
      ∀ scope', IsOrderly scope → IsDistinct scope' → SameBindings scope scope' →
        ∃ read, readAttributes? raw = some read ∧ (∀ a ∈ read, a.declares = false) ∧
          ∀ named : List Attribute, ((named ++ attributes).map (·.name)).Nodup →
            read.foldlM (addAttribute? scope') named = some (named ++ attributes.map Attribute.again) := by
  induction attributes with
  | nil => exact ⟨[], rfl, by simp, fun _ _ _ _ => ⟨[], rfl, by simp, by simp⟩⟩
  | cons a attributes ih =>
    obtain ⟨first, rest⟩ := List.forall_mem_cons.1 sound
    obtain ⟨raw, written, rawSound, later⟩ := ih rest
    obtain ⟨q, qualified, named, plain, meant⟩ := first.exists_qualify bindings
    refine ⟨⟨q, escape a.value.toList⟩ :: raw, ?_, ?_, ?_⟩
    · simp only [List.mapM_cons, Attribute.raw, qualified]
      rw [written]
      rfl
    · refine List.forall_mem_cons.2 ⟨⟨⟨named, isCharacter_escape first.value⟩, fun c member => ?_⟩,
        rawSound⟩
      exact ⟨(not_mem_escape member).1, (not_mem_escape member).2.2⟩
    · intro scope' orderly distinct same
      obtain ⟨read, expanded, declares, added⟩ := later scope' orderly distinct same
      obtain ⟨free, name⟩ := meant scope' orderly distinct same
      refine ⟨⟨q, normalized a.value⟩ :: read, ?_, ?_, ?_⟩
      · simp only [readAttributes?] at expanded ⊢
        simp [expanded, attributeValue?_escape]
      · exact List.forall_mem_cons.2 ⟨by simp [ReadAttribute.declares, free, plain], declares⟩
      · intro before different
        have new : ¬(before.any (·.name = a.name)) := by
          intro there
          obtain ⟨b, member, label⟩ := List.any_eq_true.1 there
          rw [List.map_append, List.nodup_append] at different
          refine different.2.2 b.name (List.mem_map_of_mem member) a.name (by simp) ?_
          simpa using label
        have step : addAttribute? scope' before ⟨q, normalized a.value⟩ =
            some (before ++ [a.again]) := by
          simp only [addAttribute?, name, Option.bind_eq_bind, Option.bind_some]
          rw [if_neg new, Attribute.again]
        rw [List.foldlM_cons, step, Option.bind_eq_bind, Option.bind_some,
          added (before ++ [a.again]) (by simpa [Attribute.again] using different)]
        simp

theorem filter_declares {declaring own : List ReadAttribute}
    (declares : ∀ a ∈ declaring, a.declares = true) (plain : ∀ a ∈ own, a.declares = false) :
    (declaring ++ own).filter (·.declares) = declaring ∧
      (declaring ++ own).filter (fun a => !a.declares) = own := by
  have none : own.filter (·.declares) = [] := List.filter_eq_nil_iff.2 (by simpa using plain)
  have no : declaring.filter (fun a => !a.declares) = [] :=
    List.filter_eq_nil_iff.2 (by simpa using declares)
  have all : own.filter (fun a => !a.declares) = own := List.filter_eq_self.2 (by simpa using plain)
  rw [List.filter_append, List.filter_append, List.filter_eq_self.2 declares, none, no, all]
  simp

/-- The tag that is read from what is written of a tag inside `outer`, put inside `outer'`. -/
def Tag.again (outer outer' : List Binding) (tag : Tag) : Tag :=
  ⟨tag.name, scopeOf (declarations (some outer) tag.scope) outer', tag.attributes.map Attribute.again⟩

/-- The tag that is read again binds what the tag binds, each label once. -/
theorem Tag.scope_again {outer outer' : List Binding} {tag : Tag} (covers : Covers outer tag.scope)
    (labels : IsDistinct tag.scope) (distinct : IsDistinct outer') (same : SameBindings outer outer') :
    IsDistinct (tag.again outer outer').scope ∧
      SameBindings tag.scope (tag.again outer outer').scope :=
  ⟨isDistinct_scopeOf (isDistinct_declarations covers labels) distinct,
    sameBindings_scopeOf covers labels distinct same⟩

/-- A tag that is sound anywhere can be written wherever no label is bound that it does not bind. It
    is read back in every scope with the bindings that it was written for. -/
theorem Tag.IsSound.exists_raw {original outer : List Binding} {tag : Tag}
    (sound : tag.IsSound original) (covers : Covers outer tag.scope) :
    ∃ q raw, qualify tag.scope true tag.name = .ok q ∧ tag.raw (some outer) = .ok raw ∧
      QualifiedName.IsSound q ∧ (∀ a ∈ raw, a.IsSound ∧ ∀ c ∈ a.value, c ≠ '<' ∧ c ≠ '"') ∧
      ∀ outer', IsOrderly tag.scope → (∀ b ∈ tag.scope, IsLevel b.uri) → IsDistinct outer' →
        SameBindings outer outer' → Tag.read? outer' q raw = some (tag.again outer outer') := by
  obtain ⟨q, qualified, named, meant⟩ := sound.exists_qualify
  obtain ⟨own, written, ownSound, later⟩ := exists_raw_attributes sound.bindings sound.attributes
  have declared (b : Binding) (member : b ∈ declarations (some outer) tag.scope) : b ∈ tag.scope :=
    ((mem_declarations_iff covers).1 member).1
  refine ⟨q, (declarations (some outer) tag.scope).map Binding.declaration ++ own, qualified, ?_, named,
    ?_, fun outer' orderly level distinct same => ?_⟩
  · rw [Tag.raw, written]
    rfl
  · intro a member
    rcases List.mem_append.1 member with member | member
    · obtain ⟨b, there, rfl⟩ := List.mem_map.1 member
      have bindingSound := sound.bindings b (declared b there)
      exact ⟨⟨bindingSound.isSound_declaration, isCharacter_escape bindingSound.uri⟩, fun c inside =>
        ⟨(not_mem_escape inside).1, (not_mem_escape inside).2.2⟩⟩
    · exact ownSound a member
  · obtain ⟨inside, bindings⟩ := Tag.scope_again covers orderly.distinct distinct same
    have declaredDistinct := isDistinct_declarations covers orderly.distinct
    have name := meant _ orderly inside bindings
    obtain ⟨attributes, expanded, plain, added⟩ := later _ orderly inside bindings
    have own := added [] sound.distinct
    have values := readAttributes?_declarations fun b member => level b (declared b member)
    have declares := foldlM_declare?_declarations (fun b member => sound.bindings b (declared b member))
      (by simpa using declaredDistinct : IsDistinct ([] ++ declarations (some outer) tag.scope))
    have all : ∀ a ∈ (declarations (some outer) tag.scope).map
        (fun b => ReadAttribute.mk b.declaration.name b.uri), a.declares = true := by
      intro a member
      obtain ⟨b, -, rfl⟩ := List.mem_map.1 member
      exact b.declares_declaration b.uri
    obtain ⟨first, second⟩ := filter_declares all plain
    simp only [Tag.read?, readAttributes?_append, values, expanded, declared?, Option.bind_eq_bind,
      Option.bind_some, Option.map_some, first, second, declares, List.nil_append]
    simp only [Tag.again, List.nil_append] at name own ⊢
    rw [name, own]
    rfl

end MessageConformance.Message
