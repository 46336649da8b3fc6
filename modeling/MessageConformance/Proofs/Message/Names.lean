import MessageConformance.Message.Writer

/-!
# Names that are written and read again

The labels and local names of qualified names are names without a colon (`IsName`). A run of name
characters that is read as a qualified name is made of such parts (`isSound_of_ofChars?`), and a
qualified name made of them is read back from what is written of it (`ofChars?_chars`).
-/

namespace MessageConformance.Message

open Markup

/-- A label or local name: it begins as names do, and has no colon. -/
structure IsName (s : String) : Prop where
  nonempty : s.toList ≠ []
  begins : beginsAsName s.toList = true
  parts : ∀ c ∈ s.toList, isNamePart c = true

theorem IsName.ne_empty {s : String} (name : IsName s) : s ≠ "" := by
  rintro rfl; exact name.nonempty rfl

/-! ## Characters of names -/

theorem isNameChar_of_isNamePart {c : Char} (part : isNamePart c = true) : isNameChar c = true := by
  simp [isNameChar, part]

theorem isNamePart_of_isNameChar {c : Char} (char : isNameChar c = true) (other : c ≠ ':') :
    isNamePart c = true := by
  simpa [isNameChar, other] using char

theorem ne_colon_of_isNamePart {c : Char} (part : isNamePart c = true) : c ≠ ':' := by
  rintro rfl; exact absurd part (by decide)

/-- No character of a name ends a name or a tag. -/
theorem ne_of_isNameChar {c d : Char} (char : isNameChar c = true) (mark : isNameChar d = false) :
    c ≠ d := by
  rintro rfl; simp [char] at mark

theorem isSpace_eq_false_of_isNameChar {c : Char} (char : isNameChar c = true) :
    isSpace c = false := by
  simp [isSpace, ne_of_isNameChar char (d := ' ') (by decide),
    ne_of_isNameChar char (d := '\t') (by decide), ne_of_isNameChar char (d := '\n') (by decide),
    ne_of_isNameChar char (d := '\r') (by decide)]

theorem isCharacter_of_isNameChar {c : Char} (char : isNameChar c = true) :
    isCharacter c = true := by
  by_cases colon : c = ':'
  · subst colon; decide
  · have part := isNamePart_of_isNameChar char colon
    simp only [isNamePart, isNameStart, within, nameStartRanges, nameExtraRanges, List.any_cons,
      List.any_nil, Bool.or_false, Bool.or_eq_true, Bool.and_eq_true, decide_eq_true_eq] at part
    have low : ¬ c.toNat < 0x20 := by omega
    have first : c.toNat ≠ 0xFFFE := by omega
    have second : c.toNat ≠ 0xFFFF := by omega
    simp [isCharacter, low, first, second]

/-! ## Qualified names -/

/-- A qualified name has a local name, and a label or none. -/
structure QualifiedName.IsSound (q : QualifiedName) : Prop where
  label : q.label = "" ∨ IsName q.label
  localName : IsName q.localName

theorem QualifiedName.ofChars?_bare {cs : List Char} (free : ':' ∉ cs) :
    QualifiedName.ofChars? cs =
      if cs ≠ [] ∧ beginsAsName cs = true then some ⟨"", String.ofList cs⟩ else none := by
  cases cs with
  | nil => rfl
  | cons c cs => cases begins : beginsAsName (c :: cs) <;> simp_all [QualifiedName.ofChars?, beginsAsName]

theorem QualifiedName.ofChars?_labelled {label localName : List Char} (free : ':' ∉ label) :
    QualifiedName.ofChars? (label ++ ':' :: localName) =
      if ':' ∉ localName ∧ localName ≠ [] ∧ beginsAsName label = true ∧
          beginsAsName localName = true then
        some ⟨String.ofList label, String.ofList localName⟩ else none := by
  have other : ∀ c ∈ label, (c != ':') = true := by
    rintro c member
    rw [bne_iff_ne]
    rintro rfl
    exact free member
  have taken : (label ++ ':' :: localName).takeWhile (· != ':') = label := by
    rw [List.takeWhile_append_of_pos other]; simp
  have dropped : (label ++ ':' :: localName).dropWhile (· != ':') = ':' :: localName := by
    rw [List.dropWhile_append_of_pos other]; simp
  have colon : (label ++ ':' :: localName).contains ':' = true := by simp
  simp only [QualifiedName.ofChars?, taken, dropped, colon, List.drop_succ_cons, List.drop_zero,
    ↓reduceIte, List.contains_eq_mem]
  generalize beginsAsName label = beginsLabel
  generalize beginsAsName localName = beginsLocal
  by_cases single : ':' ∈ localName <;> by_cases empty : localName = [] <;>
    cases beginsLabel <;> cases beginsLocal <;> simp [single, empty]

theorem QualifiedName.isSound_of_ofChars? {raw : List Char} {q : QualifiedName}
    (chars : ∀ c ∈ raw, isNameChar c = true) (read : QualifiedName.ofChars? raw = some q) :
    QualifiedName.IsSound q := by
  have part {cs : List Char} (begins : beginsAsName cs = true) (nonempty : cs ≠ [])
      (free : ':' ∉ cs) (within : ∀ c ∈ cs, isNameChar c = true) : IsName (String.ofList cs) := by
    refine ⟨by simpa using nonempty, by simpa using begins, fun c member => ?_⟩
    have member : c ∈ cs := by simpa using member
    exact isNamePart_of_isNameChar (within c member) fun same => free (same ▸ member)
  by_cases colon : ':' ∈ raw
  · obtain ⟨label, localName, rfl, free⟩ := List.eq_append_cons_of_mem colon
    rw [QualifiedName.ofChars?_labelled free, Option.ite_none_right_eq_some] at read
    obtain ⟨⟨single, nonempty, beginsLabel, beginsLocal⟩, same⟩ := read
    obtain rfl := Option.some.inj same
    refine ⟨?_, part beginsLocal nonempty single fun c member => chars c (by simp [member])⟩
    by_cases unlabelled : label = []
    · exact .inl (by rw [unlabelled])
    · exact .inr (part beginsLabel unlabelled free fun c member => chars c (by simp [member]))
  · rw [QualifiedName.ofChars?_bare colon, Option.ite_none_right_eq_some] at read
    obtain ⟨⟨nonempty, begins⟩, same⟩ := read
    obtain rfl := Option.some.inj same
    exact ⟨.inl rfl, part begins nonempty colon chars⟩

theorem IsName.colon_not_mem {s : String} (name : IsName s) : ':' ∉ s.toList :=
  fun member => ne_colon_of_isNamePart (name.parts _ member) rfl

/-- A qualified name is read back from what is written of it. -/
theorem QualifiedName.ofChars?_chars {q : QualifiedName} (sound : QualifiedName.IsSound q) :
    QualifiedName.ofChars? (QualifiedName.chars q) = some q := by
  obtain ⟨label, localName⟩ := q
  obtain ⟨labelled, named⟩ := sound
  by_cases unlabelled : label = ""
  · subst unlabelled
    simp [QualifiedName.chars, QualifiedName.ofChars?_bare named.colon_not_mem, named.nonempty,
      named.begins]
  · have name : IsName label := labelled.resolve_left unlabelled
    simp [QualifiedName.chars, unlabelled, QualifiedName.ofChars?_labelled name.colon_not_mem,
      named.nonempty, named.begins, named.colon_not_mem, name.begins]

theorem QualifiedName.isNameChar_chars {q : QualifiedName} (sound : QualifiedName.IsSound q) :
    ∀ c ∈ QualifiedName.chars q, isNameChar c = true := by
  have part {s : String} (name : IsName s) : ∀ c ∈ s.toList, isNameChar c = true :=
    fun c member => isNameChar_of_isNamePart (name.parts c member)
  unfold QualifiedName.chars
  split
  · exact part sound.localName
  · next labelled =>
    intro c member
    rw [List.mem_append, List.mem_cons] at member
    rcases member with member | rfl | member
    · exact part (sound.label.resolve_left labelled) c member
    · decide
    · exact part sound.localName c member

theorem QualifiedName.chars_ne_nil {q : QualifiedName} (sound : QualifiedName.IsSound q) :
    QualifiedName.chars q ≠ [] := by
  unfold QualifiedName.chars
  split
  · exact sound.localName.nonempty
  · simp

end MessageConformance.Message
