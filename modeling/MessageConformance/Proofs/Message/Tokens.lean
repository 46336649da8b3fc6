import MessageConformance.Proofs.Message.CharacterData
import MessageConformance.Proofs.Message.Names

/-!
# Tokens that are scanned, and tokens that are written

The tokens of a text are sound: their names are names, and their values hold characters of markup
(`isSound_of_scan`). The writer emits tags and escaped text (`Token.IsWritten`). A text that was
written so is scanned to the tokens it was written from, except that neighbouring runs of character
data become one and empty ones disappear (`scan_chars`).
-/

namespace MessageConformance.Message

open Markup

/-! ## What is scanned -/

/-- Characters of markup. -/
def AllCharacters (cs : List Char) : Prop := ∀ c ∈ cs, isCharacter c = true

/-- Characters of names. -/
def AllNameChars (cs : List Char) : Prop := ∀ c ∈ cs, isNameChar c = true

structure RawAttribute.IsSound (a : RawAttribute) : Prop where
  name : QualifiedName.IsSound a.name
  value : AllCharacters a.value

/-- A token has names where it should, and character data of characters. -/
def Token.IsSound : Token → Prop
  | opening name attributes _ => QualifiedName.IsSound name ∧ ∀ a ∈ attributes, a.IsSound
  | text raw => AllCharacters raw
  | literal content => AllCharacters content
  | closing _ | comment _ | instruction _ => True

structure Heading.IsSound (tag : Heading) : Prop where
  name : QualifiedName.IsSound tag.name
  attributes : ∀ a ∈ tag.attributes, a.IsSound

/-- What is known of the characters held at a place. -/
def Place.IsSound : Place → Prop
  | text raw | literal raw => AllCharacters raw
  | elementName raw | closingName raw => AllNameChars raw
  | gap tag _ | slash tag => tag.IsSound
  | attributeName tag raw => tag.IsSound ∧ AllNameChars raw
  | equals tag name | quote tag name => tag.IsSound ∧ QualifiedName.IsSound name
  | value tag name _ raw => tag.IsSound ∧ QualifiedName.IsSound name ∧ AllCharacters raw
  | opened | closed _ | bang _ | comment _ | instruction _ | failed => True

namespace Scanner

structure IsSound (s : Scanner) : Prop where
  tokens : ∀ t ∈ s.tokens, t.IsSound
  place : s.place.IsSound

section

variable {s : Scanner}

theorem IsSound.go (sound : s.IsSound) {place : Place} (next : place.IsSound) :
    (s.go place).IsSound :=
  ⟨sound.tokens, next⟩

theorem IsSound.emit (sound : s.IsSound) {t : Token} (next : t.IsSound) : (s.emit t).IsSound :=
  ⟨List.forall_mem_cons.2 ⟨next, sound.tokens⟩, by simp [Scanner.emit, Place.IsSound, AllCharacters]⟩

theorem IsSound.endText (sound : s.IsSound) {raw : List Char} (plain : AllCharacters raw) :
    ∀ t ∈ s.endText raw, t.IsSound := by
  unfold Scanner.endText
  split
  · exact sound.tokens
  · refine List.forall_mem_cons.2 ⟨fun c member => plain c (List.mem_reverse.1 member), sound.tokens⟩

theorem IsSound.afterPart (sound : s.IsSound) {tag : Heading} (heading : tag.IsSound)
    (spaced : Bool) (c : Char) : (s.afterPart tag spaced c).IsSound := by
  have attributes : ∀ a ∈ tag.attributes.reverse, a.IsSound :=
    fun a member => heading.attributes a (List.mem_reverse.1 member)
  unfold Scanner.afterPart
  split
  · exact sound.go heading
  · split
    · exact sound.go heading
    · split
      · exact sound.emit ⟨heading.name, attributes⟩
      · split
        · next begins =>
          refine sound.go ⟨heading, List.forall_mem_cons.2 ⟨?_, by simp⟩⟩
          exact (Bool.and_eq_true _ _ ▸ begins).2
        · exact sound.go trivial

theorem IsSound.afterName (sound : s.IsSound) {tag : Heading} (heading : tag.IsSound)
    {name : QualifiedName} (named : QualifiedName.IsSound name) (c : Char) :
    (s.afterName tag name c).IsSound := by
  unfold Scanner.afterName
  repeat' split
  all_goals exact sound.go (by first | exact ⟨heading, named⟩ | trivial)

theorem IsSound.endName (sound : s.IsSound) {raw : List Char} (chars : AllNameChars raw)
    {next : QualifiedName → Scanner}
    (after : ∀ name, QualifiedName.IsSound name → (next name).IsSound) :
    (s.endName raw next).IsSound := by
  unfold Scanner.endName
  split
  · next name read =>
    refine after name (QualifiedName.isSound_of_ofChars? (fun c member => ?_) read)
    exact chars c (List.mem_reverse.1 member)
  · exact sound.go trivial

theorem IsSound.afterClosing (sound : s.IsSound) (name : QualifiedName) (c : Char) :
    (s.afterClosing name c).IsSound := by
  unfold Scanner.afterClosing
  repeat' split
  · exact sound.go trivial
  · exact sound.emit trivial
  · exact sound.go trivial

/-- Each further character of markup leaves a scanner sound. -/
theorem IsSound.step (sound : s.IsSound) {c : Char} (char : isCharacter c = true) :
    (s.step c).IsSound := by
  have here := sound.place
  have join {raw : List Char} (plain : AllCharacters raw) : AllCharacters (c :: raw) :=
    List.forall_mem_cons.2 ⟨char, plain⟩
  have joinName {raw : List Char} (begins : isNameChar c = true) (names : AllNameChars raw) :
      AllNameChars (c :: raw) :=
    List.forall_mem_cons.2 ⟨begins, names⟩
  unfold Scanner.step
  cases place : s.place with
  | text raw =>
    rw [place] at here
    dsimp only
    split
    · exact ⟨sound.endText here, trivial⟩
    · split
      · exact sound.go trivial
      · exact sound.go (join here)
  | opened =>
    dsimp only
    repeat' split
    · exact sound.go trivial
    · exact sound.go trivial
    · exact sound.go (by simp [Place.IsSound, AllNameChars])
    · next begins => exact sound.go (joinName begins (by simp [AllNameChars]))
    · exact sound.go trivial
  | elementName raw =>
    rw [place] at here
    dsimp only
    split
    · next begins => exact sound.go (joinName begins here)
    · exact sound.endName here fun name named => sound.afterPart ⟨named, by simp⟩ false c
  | gap tag spaced => exact sound.afterPart (place ▸ here : (Place.gap tag spaced).IsSound) spaced c
  | attributeName tag raw =>
    obtain ⟨heading, chars⟩ : (Place.attributeName tag raw).IsSound := place ▸ here
    dsimp only
    split
    · next begins => exact sound.go ⟨heading, joinName begins chars⟩
    · exact sound.endName chars fun name named => sound.afterName heading named c
  | equals tag name =>
    obtain ⟨heading, named⟩ : (Place.equals tag name).IsSound := place ▸ here
    exact sound.afterName heading named c
  | quote tag name =>
    obtain ⟨heading, named⟩ : (Place.quote tag name).IsSound := place ▸ here
    dsimp only
    repeat' split
    · exact sound
    · exact sound.go ⟨heading, named, by simp [AllCharacters]⟩
    · exact sound.go trivial
  | value tag name mark raw =>
    obtain ⟨heading, named, plain⟩ : (Place.value tag name mark raw).IsSound := place ▸ here
    dsimp only
    repeat' split
    · have read : RawAttribute.IsSound ⟨name, raw.reverse⟩ :=
        ⟨named, fun c member => plain c (List.mem_reverse.1 member)⟩
      exact sound.go ⟨heading.name, List.forall_mem_cons.2 ⟨read, heading.attributes⟩⟩
    · exact sound.go trivial
    · exact sound.go ⟨heading, named, join plain⟩
  | slash tag =>
    have heading : tag.IsSound := (place ▸ here : (Place.slash tag).IsSound)
    dsimp only
    split
    · exact sound.emit ⟨heading.name, fun a member => heading.attributes a (List.mem_reverse.1 member)⟩
    · exact sound.go trivial
  | closingName raw =>
    rw [place] at here
    dsimp only
    split
    · next begins => exact sound.go (joinName begins here)
    · exact sound.endName here fun name _ => sound.afterClosing name c
  | closed name => exact sound.afterClosing name c
  | bang seen =>
    dsimp only
    repeat' split
    · exact sound.go trivial
    · exact sound.go (by simp [Place.IsSound, AllCharacters])
    · exact sound.go trivial
    · exact sound.go trivial
  | comment raw =>
    dsimp only
    repeat' split
    · exact sound.emit trivial
    · exact sound.go trivial
    · exact sound.go trivial
  | literal raw =>
    have plain : AllCharacters raw := (place ▸ here : (Place.literal raw).IsSound)
    dsimp only
    split
    · refine sound.emit fun c member => plain c ?_
      exact List.mem_of_mem_drop (List.mem_reverse.1 member)
    · exact sound.go (join plain)
  | instruction raw =>
    dsimp only
    split
    · exact sound.emit trivial
    · exact sound.go trivial
  | failed => exact sound

theorem IsSound.foldl (sound : s.IsSound) {cs : List Char} (plain : AllCharacters cs) :
    (cs.foldl Scanner.step s).IsSound := by
  induction cs generalizing s with
  | nil => exact sound
  | cons c cs ih =>
    obtain ⟨first, rest⟩ := List.forall_mem_cons.1 plain
    exact ih (sound.step first) rest

end

end Scanner

/-- The tokens of a text of characters are sound. -/
theorem isSound_of_scan {cs : List Char} {tokens : List Token} (plain : AllCharacters cs)
    (scanned : Token.scan cs = some tokens) : ∀ t ∈ tokens, t.IsSound := by
  have start : ({} : Scanner).IsSound := ⟨by simp, by simp [Place.IsSound, AllCharacters]⟩
  have sound := start.foldl plain
  simp only [Token.scan, Scanner.finish?] at scanned
  split at scanned
  · next raw place =>
    obtain rfl := Option.some.inj scanned
    intro t member
    exact sound.endText (place ▸ sound.place : (Place.text raw).IsSound) t (List.mem_reverse.1 member)
  · simp at scanned

/-! ## What is written -/

/-- A token as the writer makes them: a tag with names where they should be and escaped values, or
    escaped text. -/
def Token.IsWritten : Token → Prop
  | opening name attributes _ =>
    QualifiedName.IsSound name ∧
      ∀ a ∈ attributes, QualifiedName.IsSound a.name ∧ ∀ c ∈ a.value, c ≠ '<' ∧ c ≠ '"'
  | closing name => QualifiedName.IsSound name
  | text raw => ∀ c ∈ raw, c ≠ '<' ∧ c ≠ '>'
  | literal _ | comment _ | instruction _ => False

theorem Token.chars_opening (name : QualifiedName) (attributes : List RawAttribute) (isEmpty : Bool) :
    (Token.opening name attributes isEmpty).chars =
      '<' :: (QualifiedName.chars name ++ (attributes.flatMap RawAttribute.chars ++
        (if isEmpty then ['/', '>'] else ['>']))) :=
  congrArg (List.cons '<') (List.append_assoc _ _ _)

theorem Token.chars_closing (name : QualifiedName) :
    (Token.closing name).chars = '<' :: '/' :: (QualifiedName.chars name ++ ['>']) := rfl

theorem Token.chars_text (raw : List Char) : (Token.text raw).chars = raw := rfl

namespace Scanner

variable {tokens : List Token}

/-- A place that holds each of some characters holds all of them. -/
theorem foldl_held (place : List Char → Place) {cs : List Char}
    (held : ∀ c ∈ cs, ∀ raw, Scanner.step ⟨tokens, place raw⟩ c = ⟨tokens, place (c :: raw)⟩)
    (raw : List Char) :
    cs.foldl Scanner.step ⟨tokens, place raw⟩ = ⟨tokens, place (cs.reverse ++ raw)⟩ := by
  induction cs generalizing raw with
  | nil => rfl
  | cons c cs ih =>
    obtain ⟨first, rest⟩ := List.forall_mem_cons.1 held
    rw [List.foldl_cons, first, ih rest]
    simp

theorem foldl_text {cs : List Char} (free : ∀ c ∈ cs, c ≠ '<' ∧ c ≠ '>') (raw : List Char) :
    cs.foldl Scanner.step ⟨tokens, .text raw⟩ = ⟨tokens, .text (cs.reverse ++ raw)⟩ := by
  refine foldl_held .text (fun c member raw => ?_) raw
  simp [Scanner.step, free c member, Scanner.go]

theorem foldl_elementName {cs : List Char} (names : AllNameChars cs) (raw : List Char) :
    cs.foldl Scanner.step ⟨tokens, .elementName raw⟩ = ⟨tokens, .elementName (cs.reverse ++ raw)⟩ := by
  refine foldl_held .elementName (fun c member raw => ?_) raw
  simp [Scanner.step, names c member, Scanner.go]

theorem foldl_attributeName {cs : List Char} (names : AllNameChars cs) (tag : Heading)
    (raw : List Char) :
    cs.foldl Scanner.step ⟨tokens, .attributeName tag raw⟩ =
      ⟨tokens, .attributeName tag (cs.reverse ++ raw)⟩ := by
  refine foldl_held (.attributeName tag) (fun c member raw => ?_) raw
  simp [Scanner.step, names c member, Scanner.go]

theorem foldl_closingName {cs : List Char} (names : AllNameChars cs) (raw : List Char) :
    cs.foldl Scanner.step ⟨tokens, .closingName raw⟩ = ⟨tokens, .closingName (cs.reverse ++ raw)⟩ := by
  refine foldl_held .closingName (fun c member raw => ?_) raw
  simp [Scanner.step, names c member, Scanner.go]

theorem foldl_value {cs : List Char} (free : ∀ c ∈ cs, c ≠ '<' ∧ c ≠ '"') (tag : Heading)
    (name : QualifiedName) (raw : List Char) :
    cs.foldl Scanner.step ⟨tokens, .value tag name '"' raw⟩ =
      ⟨tokens, .value tag name '"' (cs.reverse ++ raw)⟩ := by
  refine foldl_held (.value tag name '"') (fun c member raw => ?_) raw
  simp [Scanner.step, free c member, Scanner.go]

/-- What ends the name of an element is read as after a part of its tag. -/
theorem step_elementName {q : QualifiedName} (sound : QualifiedName.IsSound q) {c : Char}
    (ends : isNameChar c = false) :
    Scanner.step ⟨tokens, .elementName (QualifiedName.chars q).reverse⟩ c =
      Scanner.step ⟨tokens, .gap ⟨q, []⟩ false⟩ c := by
  have read := QualifiedName.ofChars?_chars sound
  simp [Scanner.step, ends, Scanner.endName, read, Scanner.afterPart, Scanner.go, Scanner.emit]

theorem foldl_opened {q : QualifiedName} (sound : QualifiedName.IsSound q) :
    (QualifiedName.chars q).foldl Scanner.step ⟨tokens, .opened⟩ =
      ⟨tokens, .elementName (QualifiedName.chars q).reverse⟩ := by
  have names := QualifiedName.isNameChar_chars sound
  cases shape : QualifiedName.chars q with
  | nil => exact absurd shape (QualifiedName.chars_ne_nil sound)
  | cons c cs =>
    rw [shape] at names
    obtain ⟨first, rest⟩ := List.forall_mem_cons.1 names
    have moved : Scanner.step ⟨tokens, .opened⟩ c = ⟨tokens, .elementName [c]⟩ := by
      simp [Scanner.step, first, ne_of_isNameChar first (d := '!') (by decide),
        ne_of_isNameChar first (d := '?') (by decide), ne_of_isNameChar first (d := '/') (by decide),
        Scanner.go]
    rw [List.foldl_cons, moved, foldl_elementName rest, List.reverse_cons]

/-- A written attribute is added to its tag. -/
theorem foldl_attribute {a : RawAttribute} (sound : QualifiedName.IsSound a.name)
    (free : ∀ c ∈ a.value, c ≠ '<' ∧ c ≠ '"') (tag : Heading) :
    (RawAttribute.chars a).foldl Scanner.step ⟨tokens, .gap tag false⟩ =
      ⟨tokens, .gap { tag with attributes := a :: tag.attributes } false⟩ := by
  have names := QualifiedName.isNameChar_chars sound
  have read := QualifiedName.ofChars?_chars sound
  have spaced : Scanner.step ⟨tokens, .gap tag false⟩ ' ' = ⟨tokens, .gap tag true⟩ := by
    simp [Scanner.step, Scanner.afterPart, isSpace, Scanner.go]
  have named : (QualifiedName.chars a.name).foldl Scanner.step ⟨tokens, .gap tag true⟩ =
      ⟨tokens, .attributeName tag (QualifiedName.chars a.name).reverse⟩ := by
    cases shape : QualifiedName.chars a.name with
    | nil => exact absurd shape (QualifiedName.chars_ne_nil sound)
    | cons c cs =>
      rw [shape] at names
      obtain ⟨first, rest⟩ := List.forall_mem_cons.1 names
      have moved : Scanner.step ⟨tokens, .gap tag true⟩ c = ⟨tokens, .attributeName tag [c]⟩ := by
        simp [Scanner.step, Scanner.afterPart, first, isSpace_eq_false_of_isNameChar first,
          ne_of_isNameChar first (d := '/') (by decide),
          ne_of_isNameChar first (d := '>') (by decide), Scanner.go]
      rw [List.foldl_cons, moved, foldl_attributeName rest, List.reverse_cons]
  have equals : Scanner.step ⟨tokens, .attributeName tag (QualifiedName.chars a.name).reverse⟩ '=' =
      ⟨tokens, .quote tag a.name⟩ := by
    have ends : isNameChar '=' = false := by decide
    simp [Scanner.step, ends, Scanner.endName, read, Scanner.afterName, isSpace, Scanner.go]
  have quoted : Scanner.step ⟨tokens, .quote tag a.name⟩ '"' = ⟨tokens, .value tag a.name '"' []⟩ := by
    simp [Scanner.step, isSpace, Scanner.go]
  simp only [RawAttribute.chars, List.foldl_append, List.foldl_cons, List.cons_append, spaced, named,
    equals, quoted, foldl_value free, List.foldl_nil]
  simp [Scanner.step, Scanner.go]

theorem foldl_attributes {attributes : List RawAttribute}
    (written : ∀ a ∈ attributes, QualifiedName.IsSound a.name ∧ ∀ c ∈ a.value, c ≠ '<' ∧ c ≠ '"')
    (tag : Heading) :
    (attributes.flatMap RawAttribute.chars).foldl Scanner.step ⟨tokens, .gap tag false⟩ =
      ⟨tokens, .gap { tag with attributes := attributes.reverse ++ tag.attributes } false⟩ := by
  induction attributes generalizing tag with
  | nil => rfl
  | cons a attributes ih =>
    obtain ⟨⟨sound, free⟩, rest⟩ := List.forall_mem_cons.1 written
    rw [List.flatMap_cons, List.foldl_append, foldl_attribute sound free, ih rest]
    simp

theorem foldl_opening {name : QualifiedName} {attributes : List RawAttribute} {isEmpty : Bool}
    (written : (Token.opening name attributes isEmpty).IsWritten) (raw : List Char) :
    (Token.opening name attributes isEmpty).chars.foldl Scanner.step ⟨tokens, .text raw⟩ =
      ⟨.opening name attributes isEmpty :: Scanner.endText ⟨tokens, .text raw⟩ raw, .text []⟩ := by
  obtain ⟨sound, values⟩ := written
  generalize ended : Scanner.endText ⟨tokens, .text raw⟩ raw = earlier
  have opens : Scanner.step ⟨tokens, .text raw⟩ '<' = ⟨earlier, .opened⟩ := by
    simp [Scanner.step, ← ended]
  -- Whatever follows the name begins with a character that ends it.
  have rest : (attributes.flatMap RawAttribute.chars ++
      (if isEmpty then ['/', '>'] else ['>'])).foldl Scanner.step
        ⟨earlier, .elementName (QualifiedName.chars name).reverse⟩ =
      (attributes.flatMap RawAttribute.chars ++
        (if isEmpty then ['/', '>'] else ['>'])).foldl Scanner.step
          ⟨earlier, .gap ⟨name, []⟩ false⟩ := by
    cases attributes with
    | nil =>
      cases isEmpty <;>
        simp [step_elementName sound (show isNameChar '/' = false by decide),
          step_elementName sound (show isNameChar '>' = false by decide)]
    | cons a attributes =>
      simp [RawAttribute.chars, step_elementName sound (show isNameChar ' ' = false by decide)]
  rw [Token.chars_opening, List.foldl_cons, opens, List.foldl_append, foldl_opened sound, rest,
    List.foldl_append, foldl_attributes values]
  cases isEmpty <;> simp [Scanner.step, Scanner.afterPart, isSpace, Scanner.go, Scanner.emit]

theorem foldl_closing {name : QualifiedName} (sound : QualifiedName.IsSound name) (raw : List Char) :
    (Token.closing name).chars.foldl Scanner.step ⟨tokens, .text raw⟩ =
      ⟨.closing name :: Scanner.endText ⟨tokens, .text raw⟩ raw, .text []⟩ := by
  have read := QualifiedName.ofChars?_chars sound
  have names := QualifiedName.isNameChar_chars sound
  generalize ended : Scanner.endText ⟨tokens, .text raw⟩ raw = earlier
  have opens : Scanner.step ⟨tokens, .text raw⟩ '<' = ⟨earlier, .opened⟩ := by
    simp [Scanner.step, ← ended]
  have slash : Scanner.step ⟨earlier, .opened⟩ '/' = ⟨earlier, .closingName []⟩ := by
    simp [Scanner.step, Scanner.go]
  have ends : isNameChar '>' = false := by decide
  rw [Token.chars_closing, List.foldl_cons, opens, List.foldl_cons, slash, List.foldl_append,
    foldl_closingName names]
  simp [Scanner.step, ends, Scanner.endName, read, Scanner.afterClosing, isSpace, Scanner.emit]

end Scanner

/-- Ends a run of character data before other tokens. -/
def endRun (run : List Char) (tokens : List Token) : List Token :=
  if run.isEmpty then tokens else .text run :: tokens

/-- The tokens after a run of character data, neighbouring runs taken together. -/
def joinedFrom (run : List Char) : List Token → List Token
  | [] => endRun run []
  | .text raw :: tokens => joinedFrom (run ++ raw) tokens
  | token :: tokens => endRun run (token :: joinedFrom [] tokens)

theorem Scanner.reverse_endText (tokens : List Token) (place : Place) (run : List Char) :
    (Scanner.endText ⟨tokens, place⟩ run.reverse).reverse = tokens.reverse ++ endRun run [] := by
  cases run <;> simp [Scanner.endText, endRun]

private theorem endRun_eq_append (run : List Char) (tokens : List Token) :
    endRun run tokens = endRun run [] ++ tokens := by
  cases run <;> simp [endRun]

/-- Written tokens are scanned from what is written, runs of character data taken together. -/
theorem finish?_foldl_chars {written : List Token} (sound : ∀ t ∈ written, t.IsWritten)
    (tokens : List Token) (run : List Char) :
    ((written.flatMap Token.chars).foldl Scanner.step ⟨tokens, .text run.reverse⟩).finish? =
      some (tokens.reverse ++ joinedFrom run written) := by
  induction written generalizing tokens run with
  | nil =>
    rw [joinedFrom, ← Scanner.reverse_endText tokens (.text run.reverse) run]
    rfl
  | cons t written ih =>
    obtain ⟨first, rest⟩ := List.forall_mem_cons.1 sound
    rw [List.flatMap_cons, List.foldl_append]
    cases t with
    | opening name attributes isEmpty =>
      have later := ih rest (.opening name attributes isEmpty ::
        Scanner.endText ⟨tokens, .text run.reverse⟩ run.reverse) []
      rw [List.reverse_nil] at later
      rw [Scanner.foldl_opening first, later, joinedFrom, endRun_eq_append]
      · simp [Scanner.reverse_endText]
      · simp
    | closing name =>
      have later := ih rest (.closing name ::
        Scanner.endText ⟨tokens, .text run.reverse⟩ run.reverse) []
      rw [List.reverse_nil] at later
      rw [Scanner.foldl_closing first, later, joinedFrom, endRun_eq_append]
      · simp [Scanner.reverse_endText]
      · simp
    | text raw =>
      rw [Token.chars_text, Scanner.foldl_text first, ← List.reverse_append, ih rest, joinedFrom]
    | literal | comment | instruction => exact first.elim

theorem scan_chars {written : List Token} (sound : ∀ t ∈ written, t.IsWritten) :
    Token.scan (written.flatMap Token.chars) = some (joinedFrom [] written) :=
  finish?_foldl_chars sound [] []

end MessageConformance.Message
