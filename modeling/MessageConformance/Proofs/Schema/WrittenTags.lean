import MessageConformance.Schema.Rewriting
import MessageConformance.Proofs.Message.CharacterData
import MessageConformance.Proofs.Schema.Scanning
import MessageConformance.Proofs.Text.AsciiBytes

/-!
# Reading what was written

A written attribute is read back if there is no quotation mark in its value, and otherwise it is
read with a part of the value (`foldl_written`, `exists_cut`). A written tag has its name and its
attributes back if all of them are (`tagName_tagContent`, `of_tagContent`). An escaped text is read
back with the predefined entities (`expand?_escapeText`), and plain attributes do not change where
a tag ends (`quoteAfterAll?_tagContent_append`).
-/

namespace MessageConformance.Schema

open Bytes
open Message (isEscaped escapeChar_of_not_isEscaped isEscaped_cases)

/-- What the name of an attribute can be: an equals sign may only begin it. -/
def IsAttributeName (name : Bytes) : Prop :=
  ∃ first rest, name = first :: rest ∧ isSpace first = false ∧
    ∀ b ∈ rest, b ≠ byte '=' ∧ isSpace b = false

theorem isAttributeName_locationName : IsAttributeName locationName :=
  ⟨byte 's', ascii "chemaLocation", rfl, by decide, forall_mem_of_all (by decide)⟩

namespace AttributeScanner

/-! ## Names that are read -/

/-- What is known of the name at a place. -/
def PlaceFits : AttributePlace → Prop
  | .name raw => IsAttributeName raw.reverse
  | .equals name | .quote name | .value name _ _ => IsAttributeName name
  | .gap | .failed => True

/-- What is known of the names read so far. -/
structure Fits (s : AttributeScanner) : Prop where
  attributes : ∀ a ∈ s.attributes, IsAttributeName a.name
  place : PlaceFits s.place

theorem Fits.step {s : AttributeScanner} (fits : s.Fits) (b : UInt8) : (s.step b).Fits := by
  obtain ⟨attributes, place⟩ := s
  obtain ⟨named, here⟩ := fits
  cases place with
  | gap =>
    simp only [AttributeScanner.step]
    split
    · exact ⟨named, here⟩
    · next solid => exact ⟨named, b, [], rfl, by simpa using solid, by simp⟩
  | name raw =>
    simp only [AttributeScanner.step]
    split
    · exact ⟨named, here⟩
    · split
      · exact ⟨named, here⟩
      · next equals solid =>
        obtain ⟨first, rest, shape, start, plain⟩ := here
        refine ⟨named, first, rest ++ [b], by simp [shape], start, fun c member => ?_⟩
        obtain member | last := List.mem_append.1 member
        · exact plain c member
        · rw [List.mem_singleton.1 last]
          exact ⟨equals, by simpa using solid⟩
  | equals name | quote name =>
    simp only [AttributeScanner.step, go]
    repeat' split
    all_goals exact ⟨named, by first | exact here | trivial⟩
  | value name mark raw =>
    simp only [AttributeScanner.step, go]
    split
    · exact ⟨List.forall_mem_cons.2 ⟨here, named⟩, trivial⟩
    · exact ⟨named, here⟩
  | failed => exact ⟨named, here⟩

theorem Fits.foldl {s : AttributeScanner} (fits : s.Fits) (content : Bytes) :
    (content.foldl AttributeScanner.step s).Fits := by
  induction content generalizing s with
  | nil => exact fits
  | cons b content ih => exact ih (fits.step b)

theorem list_finish (s : AttributeScanner) : s.finish.list = s.attributes.reverse := by
  unfold finish
  split <;> rfl

theorem isWhole_finish (s : AttributeScanner) : s.finish.isWhole = true ↔ s.place = .gap := by
  unfold finish
  split <;> simp_all

/-- Attributes that are read stay read. -/
theorem attributes_step (s : AttributeScanner) (b : UInt8) :
    s.attributes <:+ (s.step b).attributes := by
  obtain ⟨attributes, place⟩ := s
  cases place <;> simp only [step, go] <;> (repeat' split) <;> simp

theorem attributes_foldl (s : AttributeScanner) (content : Bytes) :
    s.attributes <:+ (content.foldl step s).attributes := by
  induction content generalizing s with
  | nil => exact List.suffix_refl _
  | cons b content ih => exact (attributes_step s b).trans (ih _)

/-- What is begun and ended adds an attribute. -/
theorem length_attributes_foldl {s : AttributeScanner} {content : Bytes} (begun : s.place ≠ .gap)
    (ended : (content.foldl step s).place = .gap) :
    s.attributes.length < (content.foldl step s).attributes.length := by
  induction content generalizing s with
  | nil => exact absurd ended begun
  | cons b content ih =>
    by_cases within : (s.step b).place = .gap
    · have added : s.attributes.length < (s.step b).attributes.length := by
        obtain ⟨attributes, place⟩ := s
        cases place <;> simp only [step, go] at * <;> (repeat' split at *) <;> simp_all
      exact added.trans_le (attributes_foldl (s.step b) content).length_le
    · exact (attributes_step s b).length_le.trans_lt (ih within ended)

end AttributeScanner

theorem isAttributeName_of_mem {content : Bytes} {a : Attribute}
    (listed : a ∈ (Attributes.of content).list) : IsAttributeName a.name := by
  rw [Attributes.of, AttributeScanner.list_finish, List.mem_reverse] at listed
  have start : ({} : AttributeScanner).Fits := ⟨by simp, trivial⟩
  exact (start.foldl _).attributes a listed

namespace AttributeScanner

/-! ## Written attributes -/

/-- A written attribute is read up to the beginning of its value. -/
theorem foldl_upToValue {a : Attribute} (named : IsAttributeName a.name)
    (earlier : List Attribute) :
    (byte ' ' :: a.name ++ ascii "=\"").foldl step ⟨earlier, .gap⟩ =
      ⟨earlier, .value a.name (byte '"') []⟩ := by
  obtain ⟨first, rest, shape, start, plain⟩ := named
  have read (raw : Bytes) : rest.foldl step ⟨earlier, .name raw⟩ =
      ⟨earlier, .name (rest.reverse ++ raw)⟩ := by
    clear shape
    induction rest generalizing raw with
    | nil => rfl
    | cons b rest ih =>
      rw [List.forall_mem_cons] at plain
      have stepped : step ⟨earlier, .name raw⟩ b = ⟨earlier, .name (b :: raw)⟩ := by
        simp [step, go, plain.1.1, plain.1.2]
      rw [List.foldl_cons, stepped, ih plain.2, List.reverse_cons, List.append_assoc]
      rfl
  have begun : step (step ⟨earlier, .gap⟩ (byte ' ')) first = ⟨earlier, .name [first]⟩ := by
    have gap : step ⟨earlier, .gap⟩ (byte ' ') = ⟨earlier, .gap⟩ := rfl
    rw [gap]
    simp only [step, start, Bool.false_eq_true, ↓reduceIte, go]
  have ended (raw : Bytes) : (ascii "=\"").foldl step ⟨earlier, .name raw⟩ =
      ⟨earlier, .value raw.reverse (byte '"') []⟩ := rfl
  rw [shape, List.cons_append, List.cons_append, List.foldl_cons, List.foldl_cons, begun,
    List.foldl_append, read, ended]
  simp

theorem foldl_value {name value : Bytes} {mark : UInt8} (clean : mark ∉ value)
    (earlier : List Attribute) (raw : Bytes) :
    (value ++ [mark]).foldl step ⟨earlier, .value name mark raw⟩ =
      ⟨⟨name, raw.reverse ++ value⟩ :: earlier, .gap⟩ := by
  induction value generalizing raw with
  | nil => simp [step]
  | cons b value ih =>
    rw [List.mem_cons, not_or] at clean
    have stepped : step ⟨earlier, .value name mark raw⟩ b =
        ⟨earlier, .value name mark (b :: raw)⟩ := by
      simp only [step, if_neg (Ne.symm clean.1), go]
    rw [List.cons_append, List.foldl_cons, stepped, ih clean.2]
    simp

theorem written_eq (a : Attribute) :
    a.written = (byte ' ' :: a.name ++ ascii "=\"") ++ (a.value ++ [byte '"']) := by
  simp [Attribute.written]

/-- A written attribute is read back when there is no quotation mark in its value. -/
theorem foldl_written {a : Attribute} (named : IsAttributeName a.name)
    (clean : byte '"' ∉ a.value) (earlier : List Attribute) :
    a.written.foldl step ⟨earlier, .gap⟩ = ⟨a :: earlier, .gap⟩ := by
  rw [written_eq, List.foldl_append, foldl_upToValue named, foldl_value clean]
  rfl

theorem foldl_flatMap_written {attributes : List Attribute}
    (named : ∀ a ∈ attributes, IsAttributeName a.name)
    (clean : ∀ a ∈ attributes, byte '"' ∉ a.value) (earlier : List Attribute) :
    (attributes.flatMap Attribute.written).foldl step ⟨earlier, .gap⟩ =
      ⟨attributes.reverse ++ earlier, .gap⟩ := by
  induction attributes generalizing earlier with
  | nil => rfl
  | cons a attributes ih =>
    rw [List.forall_mem_cons] at named clean
    rw [List.flatMap_cons, List.foldl_append, foldl_written named.1 clean.1, ih named.2 clean.2]
    simp

/-- If there is a quotation mark in a value, an attribute is read with a part of its value. -/
theorem exists_cut {attributes : List Attribute}
    (named : ∀ a ∈ attributes, IsAttributeName a.name)
    (quoted : ∃ a ∈ attributes, byte '"' ∈ a.value) (earlier : List Attribute) :
    ∃ before a after value, attributes = before ++ a :: after ∧ byte '"' ∈ a.value ∧
      value ≠ a.value ∧ ∃ upTo rest, attributes.flatMap Attribute.written = upTo ++ rest ∧
        upTo.foldl step ⟨earlier, .gap⟩ = ⟨⟨a.name, value⟩ :: (before.reverse ++ earlier), .gap⟩ := by
  induction attributes generalizing earlier with
  | nil => simp at quoted
  | cons a attributes ih =>
    rw [List.forall_mem_cons] at named
    by_cases here : byte '"' ∈ a.value
    · obtain ⟨value, more, shape, clean⟩ := List.eq_append_cons_of_mem here
      refine ⟨[], a, attributes, value, rfl, here, ?_,
        (byte ' ' :: a.name ++ ascii "=\"") ++ (value ++ [byte '"']),
        more ++ [byte '"'] ++ attributes.flatMap Attribute.written, ?_, ?_⟩
      · intro same
        rw [same] at clean
        exact clean here
      · rw [List.flatMap_cons, written_eq, shape]
        simp
      · rw [List.foldl_append, foldl_upToValue named.1, foldl_value clean]
        rfl
    · obtain ⟨a', member, mark⟩ := quoted
      obtain rfl | member := List.mem_cons.1 member
      · exact absurd mark here
      obtain ⟨before, cut, after, value, shape, quoted, short, upTo, rest, written, read⟩ :=
        ih named.2 ⟨a', member, mark⟩ (a :: earlier)
      refine ⟨a :: before, cut, after, value, by rw [shape]; rfl, quoted, short,
        a.written ++ upTo, rest, ?_, ?_⟩
      · rw [List.flatMap_cons, written, List.append_assoc]
      · rw [List.foldl_append, foldl_written named.1 here, read]
        simp

/-- Where no attribute is added there are only spaces. -/
theorem isSpace_of_length_eq {s : AttributeScanner} {content : Bytes} (before : s.place = .gap)
    (after : (content.foldl step s).place = .gap)
    (length : (content.foldl step s).attributes.length = s.attributes.length) :
    ∀ b ∈ content, isSpace b = true := by
  induction content with
  | nil => simp
  | cons b content ih =>
    by_cases space : isSpace b = true
    · have same : step s b = s := by simp [step, before, space]
      rw [List.foldl_cons, same] at after length
      exact List.forall_mem_cons.2 ⟨space, ih after length⟩
    · have begun : step s b = s.go (.name [b]) := by simp [step, before, space]
      rw [List.foldl_cons, begun] at after length
      have added := length_attributes_foldl (by simp [go]) after
      rw [length] at added
      exact absurd added (Nat.lt_irrefl _)

end AttributeScanner

/-! ## Written tags -/

/-- What is written in a tag. -/
def tagContent (name : Bytes) (attributes : List Attribute) : Bytes :=
  name ++ attributes.flatMap Attribute.written

/-- The token of a tag. -/
def Token.tag (content : Bytes) (isEmpty : Bool) : Token :=
  if isEmpty then .emptyTag content else .opening content

/-- What ends a tag. -/
def tagEnd (isEmpty : Bool) : Bytes := if isEmpty then ascii "/>" else [byte '>']

theorem Token.source_tag (content : Bytes) (isEmpty : Bool) :
    (tag content isEmpty).source = byte '<' :: (content ++ tagEnd isEmpty) := by
  cases isEmpty <;> rfl

theorem Token.tag_inj {content content' : Bytes} {isEmpty isEmpty' : Bool}
    (same : tag content isEmpty = tag content' isEmpty') :
    content = content' ∧ isEmpty = isEmpty' := by
  cases isEmpty <;> cases isEmpty' <;> simp_all [tag]

theorem writeTag_eq (name : Bytes) (attributes : List Attribute) (isEmpty : Bool) :
    writeTag name attributes isEmpty = (Token.tag (tagContent name attributes) isEmpty).source := by
  cases isEmpty <;> simp [writeTag, tagContent, Token.tag, Token.source]

section

variable {name : Bytes} {attributes : List Attribute}

/-- Attributes begin with a space. -/
theorem flatMap_written_eq (attributes : List Attribute) :
    attributes.flatMap Attribute.written = [] ∧ attributes = [] ∨
      ∃ rest, attributes.flatMap Attribute.written = byte ' ' :: rest := by
  cases attributes with
  | nil => exact .inl ⟨rfl, rfl⟩
  | cons a attributes => exact .inr ⟨_, rfl⟩

/-- A name ends where the first space stands. -/
theorem takeWhile_tag (solid : ∀ b ∈ name, isSpace b = false) (after : Bytes)
    (space : ∀ b ∈ after.head?, isSpace b = true) :
    (name ++ after).takeWhile (fun b => !isSpace b) = name ∧
      (name ++ after).dropWhile (fun b => !isSpace b) = after := by
  have solid' : ∀ b ∈ name, (!isSpace b) = true := fun b member => by simp [solid b member]
  rw [List.takeWhile_append_of_pos solid', List.dropWhile_append_of_pos solid']
  cases after with
  | nil => simp
  | cons b after => simp [space b rfl]

theorem space_of_head_flatMap_written (attributes : List Attribute) :
    ∀ b ∈ (attributes.flatMap Attribute.written).head?, isSpace b = true := by
  intro b head
  obtain ⟨none, -⟩ | ⟨rest, some⟩ := flatMap_written_eq attributes
  · simp [none] at head
  · rw [some] at head
    obtain rfl := Option.some.inj head
    rfl

theorem tagName_tagContent (solid : ∀ b ∈ name, isSpace b = false) (attributes : List Attribute) :
    tagName (tagContent name attributes) = name :=
  (takeWhile_tag solid _ (space_of_head_flatMap_written attributes)).1

theorem of_tagContent_eq (solid : ∀ b ∈ name, isSpace b = false) (attributes : List Attribute) :
    Attributes.of (tagContent name attributes) =
      ((attributes.flatMap Attribute.written).foldl AttributeScanner.step {}).finish := by
  rw [Attributes.of, tagContent,
    (takeWhile_tag solid _ (space_of_head_flatMap_written attributes)).2]

/-- A written tag has its attributes back when there are no quotation marks in their values. -/
theorem of_tagContent (solid : ∀ b ∈ name, isSpace b = false)
    (named : ∀ a ∈ attributes, IsAttributeName a.name)
    (clean : ∀ a ∈ attributes, byte '"' ∉ a.value) :
    Attributes.of (tagContent name attributes) = ⟨attributes, true⟩ := by
  rw [of_tagContent_eq solid, AttributeScanner.foldl_flatMap_written named clean]
  simp [AttributeScanner.finish]

theorem tagToken_reverse {content : Bytes} (unslashed : ∀ b ∈ content.getLast?, b ≠ byte '/') :
    Scanner.tagToken content.reverse = .opening content := by
  unfold Scanner.tagToken
  cases reversed : content.reverse with
  | nil => rw [List.reverse_eq_nil_iff.1 reversed]
  | cons b rest =>
    have last : content.getLast? = some b := by
      rw [← List.head?_reverse, reversed]
      rfl
    simp only [if_neg (unslashed b last), ← reversed, List.reverse_reverse]

theorem getLast?_tagContent (name : Bytes) (attributes : List Attribute) :
    (tagContent name attributes).getLast? =
      if attributes = [] then name.getLast? else some (byte '"') := by
  rcases List.eq_nil_or_concat attributes with rfl | ⟨others, a, rfl⟩
  · simp [tagContent]
  · have shape : tagContent name (others.concat a) =
        tagContent name others ++ (byte ' ' :: a.name ++ ascii "=\"" ++ a.value) ++ [byte '"'] := by
      simp [tagContent, Attribute.written]
    rw [shape, List.getLast?_concat, if_neg (by simp)]

/-- A written tag that is closed is scanned to itself. -/
theorem isSound_tagContent {isEmpty : Bool} (nonempty : name ≠ []) (begins : BeginsTag name)
    (unslashed : ∀ b ∈ name.getLast?, b ≠ byte '/')
    (closed : Scanner.quoteAfterAll? none (tagContent name attributes) = some none) :
    (Token.tag (tagContent name attributes) isEmpty).IsSound := by
  have begins' (after : Bytes) : BeginsTag (tagContent name attributes ++ after) := by
    obtain ⟨first, rest, rfl⟩ := List.exists_cons_of_ne_nil nonempty
    exact begins
  cases isEmpty with
  | true => exact ⟨begins' _, closed⟩
  | false =>
    refine ⟨by simpa using begins' [], closed, tagToken_reverse fun b last => ?_⟩
    rw [getLast?_tagContent] at last
    split at last
    · exact unslashed b last
    · obtain rfl := Option.some.inj last
      decide

end

/-! ## Escaped values -/

/-- The entities that are used in writing. -/
def predefinedEntities : Entities :=
  [("lt", "<"), ("gt", ">"), ("amp", "&"), ("apos", "'"), ("quot", "\"")]

/-- A character is written as it is, or as the entity that stands for it. -/
theorem escapeChar_cases (c : Char) :
    (isEscaped c = false ∧ Markup.escapeChar c = [c]) ∨
      (isEscaped c = true ∧ ∃ name : List Char, Markup.escapeChar c = '&' :: name ++ [';'] ∧
        (∀ x ∈ name, x ≠ ';' ∧ x ≠ '&') ∧ reference? predefinedEntities name = some [c] ∧
        reference? [] name = none) := by
  cases escaped : isEscaped c with
  | false => exact .inl ⟨rfl, escapeChar_of_not_isEscaped escaped⟩
  | true =>
    refine .inr ⟨rfl, ?_⟩
    rcases isEscaped_cases escaped with rfl | rfl | rfl | rfl | rfl
    · exact ⟨['l', 't'], rfl, forall_mem_of_all (by decide), rfl, rfl⟩
    · exact ⟨['g', 't'], rfl, forall_mem_of_all (by decide), rfl, rfl⟩
    · exact ⟨['a', 'm', 'p'], rfl, forall_mem_of_all (by decide), rfl, rfl⟩
    · exact ⟨['a', 'p', 'o', 's'], rfl, forall_mem_of_all (by decide), rfl, rfl⟩
    · exact ⟨['q', 'u', 'o', 't'], rfl, forall_mem_of_all (by decide), rfl, rfl⟩

theorem expandFrom_reference {entities : Entities} {name : List Char}
    (plain : ∀ c ∈ name, c ≠ ';' ∧ c ≠ '&') (rest : List Char) :
    expandFrom entities none ('&' :: name ++ ';' :: rest) =
      (reference? entities name).bind fun value =>
        (expandFrom entities none rest).map (value ++ ·) := by
  have read (before : List Char) : expandFrom entities (some before) (name ++ ';' :: rest) =
      (reference? entities (before.reverse ++ name)).bind fun value =>
        (expandFrom entities none rest).map (value ++ ·) := by
    induction name generalizing before with
    | nil => simp [expandFrom]
    | cons c name ih =>
      rw [List.forall_mem_cons] at plain
      rw [List.cons_append, expandFrom]
      simp only [plain.1.1, plain.1.2, ↓reduceIte]
      rw [ih plain.2, List.reverse_cons, List.append_assoc]
      rfl
  rw [List.cons_append, expandFrom]
  simp only [↓reduceIte]
  rw [read, List.reverse_nil, List.nil_append]

/-- A character that is not escaped stands for itself. -/
theorem expandFrom_cons_of_bare {c : Char} (bare : isEscaped c = false) (entities : Entities)
    (cs : List Char) :
    expandFrom entities none (c :: cs) = (expandFrom entities none cs).map (c :: ·) := by
  have ampersand : c ≠ '&' := by
    rintro rfl
    cases bare
  rw [expandFrom]
  simp only [ampersand, ↓reduceIte]

theorem expandFrom_escape (cs : List Char) :
    expandFrom predefinedEntities none (Markup.escape cs) = some cs := by
  induction cs with
  | nil => rfl
  | cons c cs ih =>
    rw [Markup.escape, List.flatMap_cons, ← Markup.escape]
    obtain ⟨bare, same⟩ | ⟨-, name, written, plain, known, -⟩ := escapeChar_cases c
    · rw [same, List.singleton_append, expandFrom_cons_of_bare bare, ih]
      rfl
    · rw [written, List.append_assoc, List.singleton_append, expandFrom_reference plain, known, ih]
      rfl

/-- An escaped text is read back with the predefined entities. -/
theorem expand?_escapeText (s : String) :
    expand? predefinedEntities (ofText (Markup.escapeText s)) = some s := by
  rw [expand?, text?_ofText, Option.bind_some, Markup.escapeText, String.toList_ofList,
    expandFrom_escape]
  simp

theorem not_mem_ofText_escapeText {x : Char} (mark : x ∈ ['<', '>', '"', '\'']) (s : String) :
    byte x ∉ ofText (Markup.escapeText s) := by
  have ascii : x.toNat < 128 := by
    simp only [List.mem_cons, List.not_mem_nil, or_false] at mark
    obtain rfl | rfl | rfl | rfl := mark <;> decide
  rw [byte_mem_ofText_iff ascii]
  exact Markup.not_mem_escapeText mark s

/-! ## Quotation marks in written tags -/

/-- A byte that neither opens nor closes anything in a tag. -/
def IsPlainByte (b : UInt8) : Prop := b ≠ byte '"' ∧ b ≠ byte '\'' ∧ b ≠ byte '>'

instance : DecidablePred IsPlainByte := fun b =>
  inferInstanceAs (Decidable (b ≠ byte '"' ∧ b ≠ byte '\'' ∧ b ≠ byte '>'))

/-- An attribute without quotation marks and brackets. -/
structure Attribute.IsPlain (a : Attribute) : Prop where
  name : ∀ b ∈ a.name, IsPlainByte b
  value : ∀ b ∈ a.value, IsPlainByte b

theorem Attribute.isPlain_ofText {name : Bytes} (plain : ∀ b ∈ name, IsPlainByte b) (s : String) :
    (Attribute.ofText name s).IsPlain where
  name := plain
  value b member := by
    refine ⟨?_, ?_, ?_⟩ <;> rintro rfl <;> exact not_mem_ofText_escapeText (by simp) s member

/-- A plain attribute neither opens a quotation nor closes one. -/
theorem Attribute.IsPlain.quoteAfterAll?_written {a : Attribute} (plain : a.IsPlain)
    {quote : Option UInt8} (known : Scanner.IsMark quote) :
    Scanner.quoteAfterAll? quote a.written = some quote := by
  have begin_ : ∀ b ∈ byte ' ' :: a.name ++ [byte '='], IsPlainByte b := by
    intro b member
    simp only [List.cons_append, List.mem_cons, List.mem_append, List.not_mem_nil, or_false] at member
    obtain rfl | inside | rfl := member
    · decide
    · exact plain.name b inside
    · decide
  -- A quotation mark opens a quotation or closes it, and a second one undoes this.
  obtain ⟨quote', known', opens, closes⟩ : ∃ quote', Scanner.IsMark quote' ∧
      Scanner.quoteAfterAll? quote [byte '"'] = some quote' ∧
      Scanner.quoteAfterAll? quote' [byte '"'] = some quote := by
    cases quote with
    | none => exact ⟨some (byte '"'), by simp [Scanner.IsMark], rfl, rfl⟩
    | some mark =>
      obtain rfl | rfl := known mark rfl
      · exact ⟨none, by simp [Scanner.IsMark], rfl, rfl⟩
      · exact ⟨_, known, rfl, rfl⟩
  have shape : a.written =
      (byte ' ' :: a.name ++ [byte '=']) ++ ([byte '"'] ++ (a.value ++ [byte '"'])) := by
    simp [written, ascii]
  rw [shape, Scanner.quoteAfterAll?_append, Scanner.quoteAfterAll?_of_plain known begin_,
    Option.bind_some, Scanner.quoteAfterAll?_append, opens, Option.bind_some,
    Scanner.quoteAfterAll?_append, Scanner.quoteAfterAll?_of_plain known' plain.value,
    Option.bind_some, closes]

/-- Plain attributes do not change whether a tag is closed. -/
theorem quoteAfterAll?_tagContent_append {name : Bytes} {attributes more : List Attribute}
    (plain : ∀ a ∈ more, a.IsPlain) :
    Scanner.quoteAfterAll? none (tagContent name (attributes ++ more)) =
      Scanner.quoteAfterAll? none (tagContent name attributes) := by
  have shape : tagContent name (attributes ++ more) =
      tagContent name attributes ++ more.flatMap Attribute.written := by
    simp [tagContent]
  rw [shape, Scanner.quoteAfterAll?_append]
  cases before : Scanner.quoteAfterAll? none (tagContent name attributes) with
  | none => rfl
  | some quote =>
    have known := Scanner.isMark_of_quoteAfterAll? (by simp [Scanner.IsMark]) before
    rw [Option.bind_some]
    clear before shape
    induction more with
    | nil => rfl
    | cons a more ih =>
      rw [List.forall_mem_cons] at plain
      rw [List.flatMap_cons, Scanner.quoteAfterAll?_append, plain.1.quoteAfterAll?_written known,
        Option.bind_some, ih plain.2]

end MessageConformance.Schema
