import MessageConformance.Proofs.Schema.Relocating

/-!
# Reading a stored document

`ReadsBack` says that a stored document is read as the document was, but for the locations of its
references. Sturdy documents (`IsSturdy`) are read back (`readsBack_of_isSturdy`), and no others
(`isSturdy_of_readsBack`): what is read back has to have the stored tokens, since at the first that
differs an attribute would be read with a part of its value, or not at all.
-/

namespace MessageConformance.Schema

open Bytes

/-! ## What is read back -/

/-- What a token of the document at `base` is read back as. -/
inductive ReadsAs (store : Store) (base : Location) : Draft × Token → Token → Prop
  /-- A tag that holds a location has another one. -/
  | relocated {d : Draft} {content again : Bytes} {target : String} {isEmpty : Bool}
      (located : d.Locates content target)
      (relocates : Relocates (foundFor store base target) content again) :
      ReadsAs store base (d, .tag content isEmpty) (.tag again isEmpty)
  /-- All other tokens are what they were. -/
  | copied {d : Draft} {token : Token} (elsewhere : d.LocatesNothing token) :
      ReadsAs store base (d, token) token.copy

/-- A text is read as a document is, but for the locations of its references. -/
structure ReadsBack (store : Store) (d : Resource) (text : Bytes) : Prop where
  tokenizes : Tokenizes text
  tokens : List.Forall₂ (ReadsAs store d.location)
    (Draft.contexts {} (Scan.of d.content).tokens) (Scan.of text).tokens

/-- A document is read back once it is stored. -/
structure IsSturdy (content : Bytes) : Prop where
  unmarked : dropMark (dropMark content) = dropMark content
  references : ∀ r, Part.reference r ∈ (Outline.of content).parts → r.IsSturdy

/-! ## What is known while a stored document is read -/

variable {store : Store} {d : Resource} {base : Location}

theorem Relocates.scopeInside? {found : Option Location} {content again : Bytes}
    (relocates : Relocates found content again) (scope : Scope) :
    scopeInside? scope (Attributes.of again) = scopeInside? scope (Attributes.of content) := by
  unfold Schema.scopeInside?
  rw [← foldlM_bind?_filter, relocates.others, foldlM_bind?_filter]

theorem Relocates.inside {found : Option Location} {content again : Bytes}
    (relocates : Relocates found content again) (d : Draft) :
    d.inside again = d.inside content := by
  rw [Draft.inside, relocates.scopeInside?, Draft.inside]

theorem Draft.Locates.rootSeen {d : Draft} {content : Bytes} {isEmpty : Bool} {target : String}
    (located : d.Locates content target) (reads : d.Reads (.tag content isEmpty)) :
    d.rootSeen = true := by
  cases seen : d.rootSeen with
  | true => rfl
  | false =>
    have root := reads.root
    have kind := located.1.2
    have other : referenceKind? (ascii "schema") = none := by decide
    cases isEmpty <;> simp [root seen, other] at kind

/-- After a token as it is read back the same is known as after the token. -/
theorem ReadsAs.after_eq {d : Draft} {token again : Token}
    (as : ReadsAs store base (d, token) again) (reads : d.Reads token) :
    d.after again = d.after token := by
  generalize pair : (d, token) = p at as
  cases as with
  | @copied _ token _ =>
    obtain ⟨rfl, rfl⟩ := Prod.mk.inj pair
    cases token <;> rfl
  | @relocated d' content again target isEmpty located relocates =>
    obtain ⟨rfl, rfl⟩ := Prod.mk.inj pair
    have seen := located.rootSeen reads
    have root (content : Bytes) : d.afterRoot content = d := by
      unfold Draft.afterRoot
      rw [if_pos seen]
    cases isEmpty with
    | true => simp [Token.tag, Draft.after, root]
    | false => simp [Token.tag, Draft.after, root, relocates.inside, relocates.name]

theorem ReadsAs.eq_text {d : Draft} {content : Bytes} {again : Token}
    (as : ReadsAs store base (d, .text content) again) : again = .text content := by
  generalize pair : (d, Token.text content) = p at as
  cases as with
  | copied =>
    obtain ⟨rfl, rfl⟩ := Prod.mk.inj pair
    rfl
  | @relocated d' content' again target isEmpty located relocates =>
    have shape := (Prod.mk.inj pair).2
    cases isEmpty <;> simp [Token.tag] at shape

theorem ReadsAs.nests {d : Draft} {token again : Token} (as : ReadsAs store base (d, token) again)
    (nests : d.Nests token) : d.Nests again := by
  generalize pair : (d, token) = p at as
  cases as with
  | @copied _ token _ =>
    obtain ⟨rfl, rfl⟩ := Prod.mk.inj pair
    cases token <;> exact nests
  | @relocated d' content again target isEmpty located relocates =>
    obtain ⟨rfl, rfl⟩ := Prod.mk.inj pair
    cases isEmpty with
    | true =>
      show (Schema.scopeInside? d.scope (Attributes.of again)).isSome
      rw [relocates.scopeInside?]
      exact nests
    | false =>
      show (Schema.scopeInside? d.scope (Attributes.of again)).isSome
      rw [relocates.scopeInside?]
      exact nests

theorem exists_of_forall₂ {α β : Type} {R : α → β → Prop} {as : List α} {bs : List β}
    (all : List.Forall₂ R as bs) {b : β} (member : b ∈ bs) : ∃ a ∈ as, R a b := by
  induction all with
  | nil => simp at member
  | cons here later ih =>
    obtain rfl | member := List.mem_cons.1 member
    · exact ⟨_, List.mem_cons_self .., here⟩
    · obtain ⟨a, listed, related⟩ := ih member
      exact ⟨a, List.mem_cons_of_mem _ listed, related⟩

/-- Tokens that are read back stand where they stood. -/
theorem contexts_of_readsAs {d : Draft} {tokens again : List Token}
    (reads : ∀ p ∈ d.contexts tokens, p.1.Reads p.2)
    (as : List.Forall₂ (ReadsAs store base) (d.contexts tokens) again) :
    List.Forall₂ (fun p q => q.1 = p.1 ∧ ReadsAs store base p q.2) (d.contexts tokens)
      (d.contexts again) := by
  induction tokens generalizing d again with
  | nil =>
    cases as
    exact .nil
  | cons token tokens ih =>
    cases as with
    | cons here later =>
      rw [Draft.contexts, List.forall_mem_cons] at reads
      refine .cons ⟨rfl, here⟩ ?_
      rw [here.after_eq reads.1]
      exact ih reads.2 later

/-! ## Sturdy documents -/

theorem Draft.Stores.readsAs {d : Draft} {token : Token} {part : Part}
    (stores : d.Stores token part) (sturdy : ∀ r, part = .reference r → r.IsSturdy) :
    ReadsAs store base (d, token) (part.token store base) := by
  cases stores with
  | copied elsewhere => exact .copied elsewhere
  | reference shape located from_ =>
    subst shape
    exact .relocated located (from_.relocates (sturdy _ rfl))

/-- Texts that are read back nest as the document does. -/
theorem nests_of_readsAs {tokens again : List Token}
    (reads : ∀ p ∈ Draft.contexts {} tokens, p.1.Reads p.2)
    (as : List.Forall₂ (ReadsAs store base) (Draft.contexts {} tokens) again) :
    ∀ q ∈ Draft.contexts {} again, q.1.Nests q.2 := by
  intro q member
  obtain ⟨p, listed, here, as⟩ := exists_of_forall₂ (contexts_of_readsAs reads as) member
  rw [here]
  exact as.nests (reads p listed).nests

theorem IsReadable.mem_references_iff (readable : IsReadable d.content) (r : Reference) :
    Part.reference r ∈ (Outline.of d.content).parts ↔
      ∃ p ∈ Draft.contexts {} (Scan.of d.content).tokens, p.1.partOf p.2 = .reference r := by
  rw [readable.parts, List.mem_map]

theorem IsReadable.unmarked_iff (readable : IsReadable d.content) :
    dropMark (stored store d) = stored store d ↔
      dropMark (dropMark d.content) = dropMark d.content := by
  obtain ⟨-, apart, sources⟩ := fits_scan readable.isWhole
  rw [readable.stored_eq_sources, ← sources, dropMark_eq_self_iff, dropMark_eq_self_iff,
    mark_prefix_sources_iff apart,
    mark_prefix_sources_iff (readable.isChain_storedTokens store apart)]
  simp only [readable.head?_storedTokens_eq_text_iff]

/-- A document that is sturdy is read back. -/
theorem readsBack_of_isSturdy (readable : IsReadable d.content) (sturdy : IsSturdy d.content) :
    ReadsBack store d (stored store d) := by
  obtain ⟨sound, apart, -⟩ := fits_scan readable.isWhole
  have references {p : Draft × Token}
      (listed : p ∈ Draft.contexts {} (Scan.of d.content).tokens) :
      ∀ r, p.1.partOf p.2 = .reference r → r.IsSturdy := fun r part =>
    sturdy.references r ((readable.mem_references_iff r).2 ⟨p, listed, part⟩)
  have sound' : ∀ t ∈ storedTokens store d, t.IsSound := by
    intro t listed
    obtain ⟨p, place, rfl⟩ := List.mem_map.1 listed
    refine (readable.stores p place).isSound_token (sound _ ?_) (references place)
    rw [← Draft.map_contexts {} (Scan.of d.content).tokens]
    exact List.mem_map_of_mem place
  have unmarked : dropMark (stored store d) = stored store d :=
    readable.unmarked_iff.2 sturdy.unmarked
  have scanned : Scan.of (stored store d) = ⟨storedTokens store d, true⟩ := by
    rw [readable.stored_eq_sources] at unmarked ⊢
    exact (scan_sources_iff (readable.isChain_storedTokens store apart)).2 ⟨sound', unmarked⟩
  have as : List.Forall₂ (ReadsAs store d.location)
      (Draft.contexts {} (Scan.of d.content).tokens) (storedTokens store d) := by
    rw [storedTokens, List.forall₂_map_right_iff, List.forall₂_same]
    exact fun p listed => (readable.stores p listed).readsAs (references listed)
  refine ⟨⟨by rw [scanned], ?_⟩, by rw [scanned]; exact as⟩
  rw [scanned]
  exact nests_of_readsAs readable.reads as

/-! ## What can only be read in one way -/

/-- A name does not go on with what ends it. -/
theorem eq_nil_of_ends {stop : UInt8} (ascii : stop < 0x80) {name more after : Bytes}
    (solid : ∀ b ∈ more, isSpace b = false) (same : asciiOnly (name ++ more) = asciiOnly name)
    (ends : ∀ b ∈ (more ++ after).head?, isSpace b = true ∨ b = stop) : more = [] := by
  cases more with
  | nil => rfl
  | cons b more =>
    have none : asciiOnly (b :: more) = [] := by
      rw [asciiOnly_append] at same
      exact List.append_right_eq_self.1 same
    obtain space | rfl := ends b rfl
    · rw [solid b (List.mem_cons_self ..)] at space
      simp at space
    · have listed : b ∈ asciiOnly (b :: more) :=
        List.mem_filter.2 ⟨List.mem_cons_self .., by simpa using ascii⟩
      rw [none] at listed
      simp at listed

/-- Names with the same ASCII characters that end before a space or the same ASCII character are
    the same. -/
theorem eq_of_ends {stop : UInt8} (ascii : stop < 0x80) {name name' after after' : Bytes}
    (solid : ∀ b ∈ name, isSpace b = false) (solid' : ∀ b ∈ name', isSpace b = false)
    (same : asciiOnly name = asciiOnly name')
    (ends : ∀ b ∈ after.head?, isSpace b = true ∨ b = stop)
    (ends' : ∀ b ∈ after'.head?, isSpace b = true ∨ b = stop)
    (read : name ++ after = name' ++ after') : name = name' ∧ after = after' := by
  obtain ⟨more, rfl, rfl⟩ | ⟨more, rfl, rfl⟩ := List.append_eq_append_iff.1 read
  · obtain rfl := eq_nil_of_ends ascii (fun b member => solid' b (List.mem_append_right _ member))
      same.symm ends
    simp
  · obtain rfl := eq_nil_of_ends ascii (fun b member => solid b (List.mem_append_right _ member))
      same ends'
    simp

section

variable {stop : UInt8} {attributes list : List Attribute} {other after after' : Bytes}

/-- Where written attributes are read, none of their values has a quotation mark if those with one
    are read as they are: otherwise the first of them is read with a part of its value, or not at
    all. -/
theorem unquoted_of_read (named : ∀ a ∈ attributes, IsAttributeName a.name)
    (distinct : (attributes.map (·.name)).Nodup)
    (quoted : ∀ a ∈ attributes, byte '"' ∈ a.value → ∀ a', a'.name = a.name → (a' ∈ list ↔ a' = a))
    (read : other.foldl AttributeScanner.step {} = ⟨list.reverse, .gap⟩)
    (same : attributes.flatMap Attribute.written ++ after = other ++ after') :
    ∀ a ∈ attributes, byte '"' ∉ a.value := by
  by_contra some
  push Not at some
  obtain ⟨before, a, behind, value, rfl, mark, short, upTo, rest, written, cut⟩ :=
    AttributeScanner.exists_cut named some []
  have listed : a ∈ before ++ a :: behind := by simp
  have first : upTo <+: other ++ after' := by
    rw [← same, written, List.append_assoc]
    exact List.prefix_append ..
  obtain ⟨more, rfl⟩ | ⟨more, rfl⟩ :=
    List.prefix_or_prefix_of_prefix first (List.prefix_append other _)
  · -- The attribute is read with a part of its value.
    have stays := AttributeScanner.attributes_foldl (upTo.foldl AttributeScanner.step {}) more
    rw [← List.foldl_append, read, cut] at stays
    have member : ⟨a.name, value⟩ ∈ list :=
      List.mem_reverse.1 (stays.subset (List.mem_cons_self ..))
    exact short (congrArg Attribute.value ((quoted a listed mark ⟨a.name, value⟩ rfl).1 member))
  · -- The attribute is not read at all.
    have stays := AttributeScanner.attributes_foldl (other.foldl AttributeScanner.step {}) more
    rw [← List.foldl_append, cut, read] at stays
    have member := stays.subset (List.mem_reverse.2 ((quoted a listed mark a rfl).2 rfl))
    obtain same | earlier := List.mem_cons.1 member
    · exact short (congrArg Attribute.value same).symm
    · have earlier : a ∈ before := by simpa using earlier
      rw [List.map_append, List.nodup_append] at distinct
      exact distinct.2.2 _ (List.mem_map_of_mem earlier) a.name (by simp) rfl

/-- Spaces do not go on with what is not a space. -/
theorem eq_nil_of_spaces {more rest : Bytes} (solid : isSpace stop = false)
    (spaces : ∀ b ∈ more, isSpace b = true) (begins : stop :: after = more ++ rest) :
    more = [] := by
  cases more with
  | nil => rfl
  | cons b more =>
    have space := spaces b (List.mem_cons_self ..)
    rw [← (List.cons.inj begins).1, solid] at space
    simp at space

/-- Where written attributes without quotation marks are read, as many attributes end with the
    same character only if the same bytes are read. -/
theorem eq_of_read (solid : isSpace stop = false)
    (named : ∀ a ∈ attributes, IsAttributeName a.name)
    (unquoted : ∀ a ∈ attributes, byte '"' ∉ a.value) (length : list.length = attributes.length)
    (read : other.foldl AttributeScanner.step {} = ⟨list.reverse, .gap⟩)
    (same : attributes.flatMap Attribute.written ++ stop :: after = other ++ stop :: after') :
    other = attributes.flatMap Attribute.written := by
  have whole : (attributes.flatMap Attribute.written).foldl AttributeScanner.step {} =
      ⟨attributes.reverse, .gap⟩ := by
    simpa using AttributeScanner.foldl_flatMap_written named unquoted []
  obtain ⟨more, shape, rest⟩ | ⟨more, shape, rest⟩ := List.append_eq_append_iff.1 same
  · have spaces : ∀ b ∈ more, isSpace b = true := by
      have ends := read
      rw [shape, List.foldl_append, whole] at ends
      exact AttributeScanner.isSpace_of_length_eq rfl (by rw [ends]) (by rw [ends]; simp [length])
    rw [shape, eq_nil_of_spaces solid spaces rest, List.append_nil]
  · have spaces : ∀ b ∈ more, isSpace b = true := by
      have ends := whole
      rw [shape, List.foldl_append, read] at ends
      exact AttributeScanner.isSpace_of_length_eq rfl (by rw [ends]) (by rw [ends]; simp [length])
    rw [shape, eq_nil_of_spaces solid spaces rest, List.append_nil]

end

variable {content again : Bytes} {r : Reference}

theorem isSpace_ascii {b : UInt8} (space : isSpace b = true) : b < 0x80 := by
  simp only [isSpace, Bool.or_eq_true, beq_iff_eq] at space
  obtain ((rfl | rfl) | rfl) | rfl := space <;> decide

/-- Spaces are not lost and do not appear when a name is read as text. -/
theorem solid_ofText_lossyText {name : Bytes} (solid : ∀ b ∈ name, isSpace b = false) :
    ∀ b ∈ ofText (lossyText name), isSpace b = false := by
  intro b member
  rw [Bool.eq_false_iff]
  intro space
  have listed : b ∈ asciiOnly (ofText (lossyText name)) :=
    List.mem_filter.2 ⟨member, by simpa using isSpace_ascii space⟩
  rw [asciiOnly_ofText, asciiOf_lossyText] at listed
  rw [solid b (List.mem_filter.1 listed).1] at space
  simp at space

theorem space_of_head_afterName (content : Bytes) :
    ∀ b ∈ (content.dropWhile (fun b => !isSpace b)).head?, isSpace b = true := by
  intro b head
  have first := List.head?_dropWhile_not (fun b => !isSpace b) content
  rw [Option.mem_def.1 head] at first
  simpa using first

theorem ends_of_head {stop : UInt8} {content after : Bytes}
    (begins : ∀ b ∈ content.head?, isSpace b = true) :
    ∀ b ∈ (content ++ stop :: after).head?, isSpace b = true ∨ b = stop := by
  intro b head
  cases content with
  | nil => exact .inr (Option.some.inj head).symm
  | cons c content => exact .inl (begins b head)

/-- The attributes of a tag are all that is read after its name. -/
theorem foldl_afterName (sound : (Attributes.of content).areSound = true) :
    (content.dropWhile (fun b => !isSpace b)).foldl AttributeScanner.step {} =
      ⟨(Attributes.of content).list.reverse, .gap⟩ := by
  simp only [Attributes.areSound, Bool.and_eq_true] at sound
  rw [Attributes.of] at sound ⊢
  have ended := (AttributeScanner.isWhole_finish _).1 sound.1
  rw [AttributeScanner.list_finish, List.reverse_reverse]
  generalize (content.dropWhile (fun b => !isSpace b)).foldl AttributeScanner.step {} = s at ended
  rw [← ended]

theorem Draft.Locates.unique {d : Draft} {target target' : String}
    (located : d.Locates content target) (located' : d.Locates content target')
    (sound : (Attributes.of content).areSound = true) : target = target' := by
  obtain ⟨-, a, listed, named, expanded⟩ := located
  obtain ⟨-, a', listed', named', expanded'⟩ := located'
  simp only [Attributes.areSound, Bool.and_eq_true, decide_eq_true_eq] at sound
  obtain rfl := List.inj_on_of_nodup_map sound.2 listed listed' (named.trans named'.symm)
  exact Option.some.inj (expanded.symm.trans expanded')

namespace Reference.IsFrom

variable {found : Option Location}

/-- A tag that is read as it should be has the attributes other than the location as they are. -/
theorem mem_iff_of_relocates (from_ : r.IsFrom content)
    (relocates : Relocates found content again) :
    ∀ a ∈ r.attributes ++ locationOf found, byte '"' ∈ a.value →
      ∀ a', a'.name = a.name → (a' ∈ (Attributes.of again).list ↔ a' = a) := by
  intro a member mark a' same
  have kept : a ∈ r.attributes := by
    obtain kept | location := List.mem_append.1 member
    · exact kept
    · exact absurd mark (name_of_mem_locationOf location).2.1
  have other : a'.name ≠ locationName := same ▸ from_.location_not_mem a kept
  have listed : a' ∈ (Attributes.of again).list ↔ a' ∈ r.attributes := by
    rw [from_.attributes, ← relocates.others, List.mem_filter]
    simp [other]
  rw [listed]
  refine ⟨fun kept' => ?_, fun equal => equal ▸ kept⟩
  exact List.inj_on_of_nodup_map from_.nodup (List.mem_append_left (locationOf found) kept')
    member same

theorem length_of_relocates (from_ : r.IsFrom content)
    (relocates : Relocates found content again) :
    (Attributes.of again).list.length = (r.attributes ++ locationOf found).length := by
  have others := relocates.others.trans from_.attributes.symm
  have locations := congrArg List.length relocates.location
  have parts := List.length_eq_length_filter_add (l := (Attributes.of again).list)
    (fun a => decide (a.name ≠ locationName))
  simp only [decide_not, Bool.not_not] at parts others
  simp only [List.length_map] at locations
  rw [parts, others, locations, List.length_append, locationOf, List.length_map]

/-- A tag that is scanned where the tag of a reference is written, and read as it should be, is the
    written one. -/
theorem eq_content (from_ : r.IsFrom content) (relocates : Relocates found content again)
    {stop : UInt8} (ascii : stop < 0x80) (solid : isSpace stop = false) {after after' : Bytes}
    (same : r.content found ++ stop :: after = again ++ stop :: after') :
    again = r.content found ∧ r.name.text?.isSome = true ∧
      ∀ a ∈ r.attributes, byte '"' ∉ a.value := by
  have name : r.name = tagName again := from_.name.trans relocates.name.symm
  have split : again = r.name ++ again.dropWhile (fun b => !isSpace b) := by
    rw [name]
    exact List.takeWhile_append_dropWhile.symm
  have solidName : ∀ b ∈ r.name, isSpace b = false := by
    rw [from_.name]
    exact solid_tagName content
  have characters : asciiOnly (ofText (lossyText r.name)) = asciiOnly r.name := by
    rw [asciiOnly_ofText, asciiOf_lossyText]
  rw [Reference.content, tagContent, split, List.append_assoc, List.append_assoc] at same
  obtain ⟨encoded, written⟩ := eq_of_ends ascii (solid_ofText_lossyText solidName) solidName
    characters (ends_of_head (space_of_head_flatMap_written _))
    (ends_of_head (space_of_head_afterName _)) same
  have read := foldl_afterName relocates.sound
  have unquoted := unquoted_of_read from_.named_attributes from_.nodup
    (from_.mem_iff_of_relocates relocates) read written
  have rest := eq_of_read solid from_.named_attributes unquoted
    (from_.length_of_relocates relocates) read written
  refine ⟨?_, ?_, fun a kept => unquoted a (List.mem_append_left _ kept)⟩
  · rw [split, rest, Reference.content, encoded, tagContent]
  · rw [← encoded, text?_ofText]
    rfl

end Reference.IsFrom

theorem quoteAfterAll?_of_isSound_tag {isEmpty : Bool}
    (sound : (Token.tag content isEmpty).IsSound) :
    Scanner.quoteAfterAll? none content = some none := by
  cases isEmpty with
  | true => exact sound.2
  | false => exact sound.2.1

/-- A token that is read as it should be where a token is stored is the stored one, and its
    reference is sturdy. -/
theorem Draft.Stores.eq_token {d : Draft} {token again : Token} {part : Part}
    (stores : d.Stores token part) (as : ReadsAs store base (d, token) again)
    (sound : again.IsSound) {after after' : Bytes}
    (same : (part.token store base).source ++ after = again.source ++ after') :
    again = part.token store base ∧ ∀ r, part = .reference r → r.IsSturdy := by
  generalize pair : (d, token) = p at as
  cases as with
  | @copied d' token' elsewhere =>
    obtain ⟨rfl, rfl⟩ := Prod.mk.inj pair
    cases stores with
    | copied => exact ⟨rfl, by simp⟩
    | reference shape located from_ => exact absurd located (elsewhere _ _ _ shape)
  | @relocated d' content again target isEmpty located relocates =>
    obtain ⟨rfl, rfl⟩ := Prod.mk.inj pair
    cases stores with
    | copied elsewhere => exact absurd located (elsewhere _ _ _ rfl)
    | @reference content' r shape located' from_ =>
      obtain ⟨rfl, rfl⟩ := Token.tag_inj shape
      obtain rfl := located.unique located' from_.sound
      rw [Part.token, Token.source_tag, Token.source_tag] at same
      obtain ⟨stop, rest, ends, ascii, solid⟩ : ∃ stop rest, tagEnd r.isEmpty = stop :: rest ∧
          stop < 0x80 ∧ isSpace stop = false := by
        cases r.isEmpty <;> exact ⟨_, _, rfl, by decide, by decide⟩
      simp only [ends, List.cons_append, List.append_assoc, List.cons.injEq, true_and] at same
      obtain ⟨rfl, encoded, unquoted⟩ := from_.eq_content relocates ascii solid same
      refine ⟨rfl, fun r' equal => ?_⟩
      obtain rfl := Part.reference.inj equal
      have closed := quoteAfterAll?_of_isSound_tag sound
      rw [Reference.content, ofText_lossyText encoded, Reference.IsFrom.closed_iff] at closed
      exact ⟨encoded, unquoted, closed⟩

/-- Tokens that are read as they should be where others are stored are the stored ones, and all
    references among them are sturdy. -/
theorem eq_tokens_of_readsAs {ps : List (Draft × Token)} {again : List Token}
    (stores : ∀ p ∈ ps, p.1.Stores p.2 (p.1.partOf p.2))
    (as : List.Forall₂ (ReadsAs store base) ps again) (sound : ∀ t ∈ again, t.IsSound)
    (same : (ps.map fun p => (p.1.partOf p.2).token store base).flatMap Token.source =
      again.flatMap Token.source) :
    ∀ p ∈ ps, ∀ r, p.1.partOf p.2 = .reference r → r.IsSturdy := by
  induction as with
  | nil => simp
  | @cons p t ps again here later ih =>
    rw [List.forall_mem_cons] at stores sound ⊢
    simp only [List.map_cons, List.flatMap_cons] at same
    obtain ⟨rfl, sturdy⟩ := stores.1.eq_token here sound.1 same
    exact ⟨sturdy, ih stores.2 sound.2 (List.append_cancel_left same)⟩

/-- A text loses its mark for good, whatever markup follows it. -/
theorem drop_mark_ne {content after after' : Bytes} (begins : mark <+: content)
    (solid : byte '<' ∉ content) (ends : ∀ b ∈ after.head?, b = byte '<') :
    (content ++ after).drop 3 ≠ content ++ after' := by
  obtain ⟨rest, rfl⟩ := begins
  intro same
  replace same : rest ++ after = mark ++ rest ++ after' := same
  obtain ⟨more, shape, shorter⟩ | ⟨more, longer, -⟩ := List.append_eq_append_iff.1 same
  · cases more with
    | nil =>
      have length := congrArg List.length shape
      simp [mark] at length
      omega
    | cons b more =>
      obtain rfl := ends b (by rw [shorter]; rfl)
      rw [shape] at solid
      simp at solid
  · have length := congrArg List.length longer
    simp [mark] at length
    omega

/-- What is read back has no byte order mark: without it the first text would be another one. -/
theorem IsReadable.unmarked_of_readsBack (readable : IsReadable d.content)
    (back : ReadsBack store d (stored store d)) : dropMark (stored store d) = stored store d := by
  obtain ⟨sound, apart, -⟩ := fits_scan readable.isWhole
  obtain ⟨-, -, sources'⟩ := fits_scan back.tokenizes.1
  have apart' := readable.isChain_storedTokens store apart
  rw [dropMark_eq_self_iff]
  intro marked
  have dropped : dropMark (stored store d) = (stored store d).drop 3 :=
    if_pos (List.isPrefixOf_iff_prefix.2 marked)
  rw [readable.stored_eq_sources, mark_prefix_sources_iff apart'] at marked
  obtain ⟨content, first', begins⟩ := marked
  have first := (readable.head?_storedTokens_eq_text_iff content).1 first'
  obtain ⟨tokens, all⟩ := List.head?_eq_some_iff.1 first
  obtain ⟨tokens', all'⟩ := List.head?_eq_some_iff.1 first'
  have as := back.tokens
  rw [all, Draft.contexts] at as
  obtain ⟨t, again, here, -, read⟩ := List.forall₂_cons_left_iff.1 as
  obtain rfl := here.eq_text
  have solid : byte '<' ∉ content := (sound _ (List.mem_of_mem_head? first)).2
  rw [all', List.isChain_cons] at apart'
  have ends := bracket_of_head_sources fun t head => (apart'.1 t head).markup
  rw [read, dropped, readable.stored_eq_sources, all', List.flatMap_cons, List.flatMap_cons]
    at sources'
  exact drop_mark_ne begins solid ends sources'.symm

/-- A document that is read back is sturdy. -/
theorem isSturdy_of_readsBack (readable : IsReadable d.content)
    (back : ReadsBack store d (stored store d)) : IsSturdy d.content := by
  have unmarked := readable.unmarked_of_readsBack back
  obtain ⟨sound', -, sources'⟩ := fits_scan back.tokenizes.1
  rw [unmarked] at sources'
  have same := readable.stored_eq_sources.symm.trans sources'.symm
  refine ⟨readable.unmarked_iff.1 unmarked, fun r listed => ?_⟩
  obtain ⟨p, place, part⟩ := (readable.mem_references_iff r).1 listed
  exact eq_tokens_of_readsAs readable.stores back.tokens sound' same p place r part

end MessageConformance.Schema
