import MessageConformance.Message.CharacterData

/-!
# Character data that is written and read again

Values hold characters of markup only (`isCharacter_textValue?`, `isCharacter_attributeValue?`).
The writer escapes five characters and leaves the others as they are, so a value that was written
is read with these five as references (`read?_escape`). White space is not escaped: an attribute
value is read back unchanged exactly if it has no tab and no line end (`normalized_eq_self_iff`),
and text exactly if each carriage return in it is kept by a reference beside it
(`rejoined_eq_self_iff`).
-/

namespace MessageConformance.Message

open Markup

/-! ## What values are made of -/

/-- The character that is meant. -/
def Written.char : Written → Char
  | plain c | reference c => c

namespace Written

theorem isCharacter_predefined? {name : List Char} {c : Char} (read : predefined? name = some c) :
    isCharacter c = true := by
  unfold predefined? at read
  split at read <;> cases read <;> decide

theorem isCharacter_reference? {name : List Char} {c : Char} (read : reference? name = some c) :
    isCharacter c = true := by
  unfold reference? at read
  split at read
  · obtain ⟨n, -, made⟩ := Option.bind_eq_some_iff.1 read
    simp only [Option.ite_none_right_eq_some] at made
    obtain ⟨⟨-, known⟩, same⟩ := made
    exact Option.some.inj same ▸ known
  · exact isCharacter_predefined? read

theorem isCharacter_readFrom {name? : Option (List Char)} {raw : List Char} {us : List Written}
    (plain : ∀ c ∈ raw, isCharacter c = true) (read : readFrom name? raw = some us) :
    ∀ u ∈ us, isCharacter u.char = true := by
  induction raw generalizing name? us with
  | nil =>
    cases name? with
    | none => obtain rfl := Option.some.inj read; simp
    | some name => simp [readFrom] at read
  | cons c raw ih =>
    obtain ⟨first, rest⟩ := List.forall_mem_cons.1 plain
    cases name? with
    | none =>
      by_cases begins : c = '&'
      · rw [readFrom, if_pos begins] at read
        exact ih rest read
      · rw [readFrom, if_neg begins] at read
        obtain ⟨later, continued, rfl⟩ := Option.map_eq_some_iff.1 read
        exact List.forall_mem_cons.2 ⟨first, ih rest continued⟩
    | some name =>
      by_cases ends : c = ';'
      · rw [readFrom, if_pos ends] at read
        obtain ⟨r, known, read⟩ := Option.bind_eq_some_iff.1 read
        obtain ⟨later, continued, rfl⟩ := Option.map_eq_some_iff.1 read
        exact List.forall_mem_cons.2 ⟨isCharacter_reference? known, ih rest continued⟩
      · rw [readFrom, if_neg ends] at read
        exact ih rest read

end Written

theorem isCharacter_textFrom (afterReference : Bool) {us : List Written}
    (plain : ∀ u ∈ us, isCharacter u.char = true) :
    ∀ c ∈ textFrom afterReference us, isCharacter c = true := by
  have feed : isCharacter '\n' = true := by decide
  fun_induction textFrom afterReference us with
  | case1 => simp
  | case2 _ c us ih => simp_all [Written.char]
  | case3 _ us ih => simp_all [Written.char]
  | case4 _ c us ih => simp_all [Written.char]
  | case5 afterReference => cases afterReference <;> simp_all [Written.char]
  | case6 _ us _ _ _ ih => simp_all [Written.char]
  | case7 _ c us _ _ _ _ ih => simp_all [Written.char]

theorem isCharacter_attributeFrom {us : List Written}
    (plain : ∀ u ∈ us, isCharacter u.char = true) :
    ∀ c ∈ attributeFrom us, isCharacter c = true := by
  have space : isCharacter ' ' = true := by decide
  fun_induction attributeFrom us with
  | case1 => simp
  | case2 c us ih => simp_all [Written.char]
  | case3 us ih => simp_all [Written.char]
  | case4 c us _ ih =>
    obtain ⟨first, rest⟩ := List.forall_mem_cons.1 plain
    refine List.forall_mem_cons.2 ⟨?_, ih rest⟩
    split
    · exact space
    · exact first

theorem isCharacter_textValue? {raw : List Char} {value : String}
    (plain : ∀ c ∈ raw, isCharacter c = true) (read : textValue? raw = some value) :
    ∀ c ∈ value.toList, isCharacter c = true := by
  obtain ⟨us, expanded, rfl⟩ := Option.map_eq_some_iff.1 read
  simpa using isCharacter_textFrom false (Written.isCharacter_readFrom plain expanded)

theorem isCharacter_attributeValue? {raw : List Char} {value : String}
    (plain : ∀ c ∈ raw, isCharacter c = true) (read : attributeValue? raw = some value) :
    ∀ c ∈ value.toList, isCharacter c = true := by
  obtain ⟨us, expanded, rfl⟩ := Option.map_eq_some_iff.1 read
  simpa using isCharacter_attributeFrom (Written.isCharacter_readFrom plain expanded)

theorem isCharacter_literalValue {content : List Char}
    (plain : ∀ c ∈ content, isCharacter c = true) :
    ∀ c ∈ (literalValue content).toList, isCharacter c = true := by
  have named : ∀ u ∈ content.map Written.plain, isCharacter u.char = true := by
    simpa [Written.char] using plain
  simpa [literalValue] using isCharacter_textFrom false named

/-! ## What is written -/

/-- Whether a character is written as a reference. -/
def isEscaped (c : Char) : Bool := ['<', '>', '&', '\'', '"'].contains c

theorem escapeChar_of_not_isEscaped {c : Char} (bare : isEscaped c = false) :
    escapeChar c = [c] := by
  simp only [isEscaped, List.contains_cons, List.contains_nil, Bool.or_false, Bool.or_eq_false_iff,
    beq_eq_false_iff_ne] at bare
  unfold escapeChar
  split <;> simp_all

theorem isEscaped_cases {c : Char} (escaped : isEscaped c = true) :
    c = '<' ∨ c = '>' ∨ c = '&' ∨ c = '\'' ∨ c = '"' := by
  simpa [isEscaped] using escaped

/-- Neither angle brackets nor quotation marks are left in what is written. -/
theorem not_mem_escape {cs : List Char} {c : Char} (member : c ∈ escape cs) :
    c ≠ '<' ∧ c ≠ '>' ∧ c ≠ '"' := by
  obtain ⟨d, -, member⟩ := List.mem_flatMap.1 member
  by_cases escaped : isEscaped d = true
  · rcases isEscaped_cases escaped with rfl | rfl | rfl | rfl | rfl <;>
      simp only [escapeChar, List.mem_cons, List.not_mem_nil, or_false] at member <;>
      rcases member with rfl | rfl | rfl | rfl | rfl | rfl <;> decide
  · rw [escapeChar_of_not_isEscaped (by simpa using escaped), List.mem_singleton] at member
    subst member
    simp_all [isEscaped]

theorem isCharacter_escape {cs : List Char} (plain : ∀ c ∈ cs, isCharacter c = true) :
    ∀ c ∈ escape cs, isCharacter c = true := by
  intro c member
  obtain ⟨d, there, member⟩ := List.mem_flatMap.1 member
  by_cases escaped : isEscaped d = true
  · rcases isEscaped_cases escaped with rfl | rfl | rfl | rfl | rfl <;>
      simp only [escapeChar, List.mem_cons, List.not_mem_nil, or_false] at member <;>
      rcases member with rfl | rfl | rfl | rfl | rfl | rfl <;> decide
  · rw [escapeChar_of_not_isEscaped (by simpa using escaped), List.mem_singleton] at member
    exact member ▸ plain d there

theorem escape_append (cs ds : List Char) : escape (cs ++ ds) = escape cs ++ escape ds :=
  List.flatMap_append

/-- How a character of a value is read after it was written. -/
def Written.again (c : Char) : Written := if isEscaped c then .reference c else .plain c

theorem Written.readFrom_escapeChar (c : Char) (cs : List Char) :
    readFrom none (escapeChar c ++ cs) = (readFrom none cs).map (again c :: ·) := by
  by_cases escaped : isEscaped c = true
  · rcases isEscaped_cases escaped with rfl | rfl | rfl | rfl | rfl <;>
      simp [escapeChar, readFrom, reference?, predefined?, again, escaped]
  · have bare : isEscaped c = false := by simpa using escaped
    have other : c ≠ '&' := by rintro rfl; exact escaped rfl
    rw [escapeChar_of_not_isEscaped bare]
    simp [readFrom, other, again, bare]

theorem Written.read?_escape (cs : List Char) : read? (escape cs) = some (cs.map again) := by
  induction cs with
  | nil => rfl
  | cons c cs ih =>
    rw [read?] at ih ⊢
    rw [escape, List.flatMap_cons, readFrom_escapeChar, ← escape, ih]
    rfl

/-- An attribute value as it is read after it was written. -/
def normalized (value : String) : String :=
  String.ofList (attributeFrom (value.toList.map .again))

/-- Text as it is read after it was written. -/
def rejoined (content : String) : String :=
  String.ofList (textFrom false (content.toList.map .again))

theorem attributeValue?_escape (value : String) :
    attributeValue? (escape value.toList) = some (normalized value) := by
  rw [attributeValue?, Written.read?_escape]
  rfl

theorem textValue?_escape (content : String) :
    textValue? (escape content.toList) = some (rejoined content) := by
  rw [textValue?, Written.read?_escape]
  rfl

/-! ## When a value is read back unchanged -/

/-- A value holds no tab and no line end. -/
def IsLevel (value : String) : Prop := ∀ c ∈ value.toList, c ≠ '\t' ∧ c ≠ '\n' ∧ c ≠ '\r'

instance (value : String) : Decidable (IsLevel value) :=
  List.decidableBAll (fun c => c ≠ '\t' ∧ c ≠ '\n' ∧ c ≠ '\r') value.toList

private theorem attributeFrom_again_of_level {cs : List Char}
    (level : ∀ c ∈ cs, c ≠ '\t' ∧ c ≠ '\n' ∧ c ≠ '\r') : attributeFrom (cs.map .again) = cs := by
  induction cs with
  | nil => rfl
  | cons c cs ih =>
    obtain ⟨⟨tab, feed, ret⟩, rest⟩ := List.forall_mem_cons.1 level
    rw [List.map_cons, Written.again]
    split
    · rw [attributeFrom, ih rest]
    · rw [attributeFrom, ih rest]
      · by_cases blank : c = ' '
        · subst blank; rfl
        · simp [isSpace, tab, feed, ret, blank]
      · intro _ same; exact fun other => ret other

private theorem level_of_mem_attributeFrom {us : List Written} {cs : List Char}
    (written : us = cs.map .again) :
    ∀ c ∈ attributeFrom us, c ≠ '\t' ∧ c ≠ '\n' ∧ c ≠ '\r' := by
  have escapedLevel {c : Char} (escaped : isEscaped c = true) : c ≠ '\t' ∧ c ≠ '\n' ∧ c ≠ '\r' := by
    rcases isEscaped_cases escaped with rfl | rfl | rfl | rfl | rfl <;> decide
  fun_induction attributeFrom us generalizing cs with
  | case1 => simp
  | case2 c us ih =>
    obtain ⟨d, ds, rfl, same, rfl⟩ := List.map_eq_cons_iff.1 written.symm
    refine List.forall_mem_cons.2 ⟨?_, ih rfl⟩
    rw [Written.again] at same
    split at same
    · next escaped => exact Written.reference.inj same ▸ escapedLevel escaped
    · simp at same
  | case3 us ih =>
    obtain ⟨d, ds, rfl, -, rest⟩ := List.map_eq_cons_iff.1 written.symm
    obtain ⟨e, es, rfl, -, rest⟩ := List.map_eq_cons_iff.1 rest
    exact List.forall_mem_cons.2 ⟨by decide, ih rest.symm⟩
  | case4 c us _ ih =>
    obtain ⟨d, ds, rfl, -, rfl⟩ := List.map_eq_cons_iff.1 written.symm
    refine List.forall_mem_cons.2 ⟨?_, ih rfl⟩
    split
    · decide
    · next solid => simp_all [isSpace]

/-- An attribute value is read back unchanged exactly if it has no tab and no line end. -/
theorem normalized_eq_self_iff (value : String) : normalized value = value ↔ IsLevel value := by
  constructor
  · intro same c member
    have shape : attributeFrom (value.toList.map .again) = value.toList := by
      simpa [normalized] using congrArg String.toList same
    exact level_of_mem_attributeFrom rfl c (shape.symm ▸ member)
  · intro level
    rw [normalized, attributeFrom_again_of_level level, String.ofList_toList]

/-- Each carriage return that follows some characters is kept by a reference beside it: the
    character after it is escaped, or it comes last and the character before it is. Whether the
    characters begin after a reference is given. -/
def KeepsReturnsFrom (afterReference : Bool) (cs : List Char) : Prop :=
  ∀ before after, cs = before ++ '\r' :: after →
    (∃ c ∈ after.head?, isEscaped c = true) ∨
      after = [] ∧ (before.getLast?.map isEscaped).getD afterReference = true

/-- Each carriage return of a text is kept by a reference beside it. -/
def KeepsReturns (content : String) : Prop := KeepsReturnsFrom false content.toList

theorem keepsReturns_of_not_mem {content : String} (free : '\r' ∉ content.toList) :
    KeepsReturns content := by
  intro before after split
  exact absurd (split ▸ List.mem_append_right before (List.mem_cons_self ..)) free

private theorem keepsReturnsFrom_cons (afterReference : Bool) {c : Char} (cs : List Char)
    (other : c ≠ '\r') :
    KeepsReturnsFrom afterReference (c :: cs) ↔ KeepsReturnsFrom (isEscaped c) cs := by
  constructor
  · intro keeps before after split
    have kept := keeps (c :: before) after (by rw [split]; rfl)
    cases before <;> simpa [List.getLast?_cons] using kept
  · intro keeps before after split
    obtain ⟨rfl, same⟩ | ⟨before, rfl, rest⟩ := List.cons_eq_append_iff.1 split
    · exact absurd (List.cons.inj same).1.symm other
    · have kept := keeps before after rest
      cases before <;> simpa [List.getLast?_cons] using kept

private theorem keepsReturnsFrom_return_cons {afterReference : Bool} (c : Char) (cs : List Char) :
    KeepsReturnsFrom afterReference ('\r' :: c :: cs) ↔
      isEscaped c = true ∧ KeepsReturnsFrom true cs := by
  have other (escaped : isEscaped c = true) : c ≠ '\r' := by rintro rfl; exact absurd escaped (by decide)
  constructor
  · intro keeps
    have escaped : isEscaped c = true := by simpa using keeps [] (c :: cs) rfl
    refine ⟨escaped, ?_⟩
    rw [← escaped, ← keepsReturnsFrom_cons false cs (other escaped)]
    intro before after split
    have kept := keeps ('\r' :: before) after (by rw [split]; rfl)
    cases before with
    | nil => exact absurd (List.cons.inj split).1 (other escaped)
    | cons d before => simpa [List.getLast?_cons] using kept
  · rintro ⟨escaped, keeps⟩ before after split
    obtain ⟨rfl, same⟩ | ⟨before, rfl, rest⟩ := List.cons_eq_append_iff.1 split
    · obtain ⟨-, rfl⟩ := List.cons.inj same
      exact .inl ⟨c, rfl, escaped⟩
    · rw [← escaped, ← keepsReturnsFrom_cons false cs (other escaped)] at keeps
      have kept := keeps before after rest
      cases before with
      | nil => exact absurd (List.cons.inj rest).1 (other escaped)
      | cons d before => simpa [List.getLast?_cons] using kept

private theorem keepsReturnsFrom_return {afterReference : Bool} :
    KeepsReturnsFrom afterReference ['\r'] ↔ afterReference = true := by
  constructor
  · intro keeps
    simpa using keeps [] [] rfl
  · rintro rfl before after split
    obtain ⟨rfl, same⟩ | ⟨before, rfl, rest⟩ := List.cons_eq_append_iff.1 split
    · obtain ⟨-, rfl⟩ := List.cons.inj same
      exact .inr ⟨rfl, rfl⟩
    · simp at rest

private theorem map_again_eq_reference_cons {cs : List Char} {c : Char} {us : List Written}
    (written : .reference c :: us = cs.map .again) :
    ∃ ds, cs = c :: ds ∧ isEscaped c = true ∧ us = ds.map .again := by
  obtain ⟨d, ds, rfl, same, rfl⟩ := List.map_eq_cons_iff.1 written.symm
  rw [Written.again] at same
  split at same
  · next escaped =>
    obtain rfl := Written.reference.inj same
    exact ⟨ds, rfl, escaped, rfl⟩
  · simp at same

private theorem map_again_eq_plain_cons {cs : List Char} {c : Char} {us : List Written}
    (written : .plain c :: us = cs.map .again) :
    ∃ ds, cs = c :: ds ∧ isEscaped c = false ∧ us = ds.map .again := by
  obtain ⟨d, ds, rfl, same, rfl⟩ := List.map_eq_cons_iff.1 written.symm
  rw [Written.again] at same
  split at same
  · simp at same
  · next bare =>
    obtain rfl := Written.plain.inj same
    exact ⟨ds, rfl, by simpa using bare, rfl⟩

private theorem textFrom_again_eq_self_iff {afterReference : Bool} {us : List Written}
    {cs : List Char} (written : us = cs.map .again) :
    textFrom afterReference us = cs ↔ KeepsReturnsFrom afterReference cs := by
  fun_induction textFrom afterReference us generalizing cs with
  | case1 =>
    obtain rfl := List.map_eq_nil_iff.1 written.symm
    simp [KeepsReturnsFrom]
  | case2 _ c us ih =>
    obtain ⟨ds, rfl, escaped, rfl⟩ := map_again_eq_reference_cons written
    have other : c ≠ '\r' := by
      rintro rfl
      exact absurd escaped (by decide)
    rw [keepsReturnsFrom_cons _ ds other, escaped, ← ih rfl]
    simp
  | case3 _ us ih =>
    -- A carriage return before a line feed is dropped.
    obtain ⟨ds, rfl, -, rest⟩ := map_again_eq_plain_cons written
    obtain ⟨es, rfl, -, rfl⟩ := map_again_eq_plain_cons rest
    simp [keepsReturnsFrom_return_cons, isEscaped]
  | case4 _ c us ih =>
    -- Before a reference it is kept.
    obtain ⟨ds, rfl, -, rest⟩ := map_again_eq_plain_cons written
    obtain ⟨es, rfl, escaped, rfl⟩ := map_again_eq_reference_cons rest
    rw [keepsReturnsFrom_return_cons, ← ih rfl]
    simp [escaped]
  | case5 afterReference =>
    -- At the end it is kept after a reference only.
    obtain ⟨ds, rfl, -, rest⟩ := map_again_eq_plain_cons written
    obtain rfl := List.map_eq_nil_iff.1 rest.symm
    rw [keepsReturnsFrom_return]
    cases afterReference <;> simp
  | case6 _ us feed reference last ih =>
    -- Anywhere else it becomes a line feed.
    obtain ⟨ds, rfl, -, rfl⟩ := map_again_eq_plain_cons written
    cases ds with
    | nil => exact absurd rfl last
    | cons e es =>
      have bare : isEscaped e = false := by
        cases escaped : isEscaped e with
        | false => rfl
        | true => exact absurd (by simp [Written.again, escaped]) (reference e (es.map .again))
      simp [keepsReturnsFrom_return_cons, bare]
  | case7 _ c us _ _ _ other ih =>
    obtain ⟨ds, rfl, bare, rfl⟩ := map_again_eq_plain_cons written
    rw [keepsReturnsFrom_cons _ ds other, bare, ← ih rfl]
    simp

/-- Text is read back unchanged exactly if each carriage return in it is kept by a reference. -/
theorem rejoined_eq_self_iff (content : String) :
    rejoined content = content ↔ KeepsReturns content := by
  rw [KeepsReturns, ← textFrom_again_eq_self_iff rfl, rejoined, ← String.toList_inj,
    String.toList_ofList]

end MessageConformance.Message
