import MessageConformance.Markup.Characters
import MessageConformance.Proofs.Text.Pieces
import MessageConformance.Proofs.Text.Trimming
import MessageConformance.Schema.Entities

/-!
# The entities that a document type declares

An internal subset is written as a sequence of items: white space, comments and declarations of
entities (`Item`). Reading cuts its text at the beginnings of declarations and takes no notice of
what stands around them, so it finds the declarations that are written only when no comment and no
literal holds the text that begins one (`Item.IsPlain`). Then a name has the value of its first
declaration with a literal (`lookup_entities_iff`), external ones before it being passed over.
-/

namespace MessageConformance.Schema

/-! ## How an internal subset is written -/

/-- White space of markup. -/
structure Spaces where
  text : List Char
  areSpaces : text.all Markup.isSpace = true := by decide +kernel

/-- White space that has to be there. -/
structure Gap extends Spaces where
  nonempty : text ≠ [] := by decide +kernel

/-- A name of markup. -/
structure EntityName where
  text : List Char
  begins : Markup.beginsAsTarget text = true := by decide +kernel
  nameChars : text.all Markup.isNameChar = true := by decide +kernel

/-- A text between quotation marks of one kind. -/
structure Quoted where
  mark : Char := '\''
  text : List Char
  isMark : mark = '"' ∨ mark = '\'' := by decide +kernel
  closed : mark ∉ text := by decide +kernel

/-- The text of a comment, which its two hyphens may not end early. -/
structure Comment where
  text : List Char
  closed : ¬ ['-', '-'] <:+: text ++ ['-'] := by decide +kernel

/-- What an entity is declared to be: a literal value, or something outside the document, with a
    public identifier or without, which may be no markup. -/
inductive Definition where
  | literal (value : Quoted)
  | external (identifier : Option (Gap × Quoted)) (gap : Gap) (location : Quoted)
      (unparsed : Option (Gap × Gap × EntityName))

/-- The declaration of an entity. There is a percent sign if it is for document types only. -/
structure Declaration where
  before : Gap
  percent : Option Gap := none
  name : EntityName
  between : Gap
  definition : Definition
  after : Spaces := { text := [] }

/-- What an internal subset is made of. -/
inductive Item where
  | spaces (s : Spaces)
  | comment (c : Comment)
  | declaration (d : Declaration)

def Quoted.source (q : Quoted) : List Char := q.mark :: (q.text ++ [q.mark])

/-- The keyword of an external entity, and its public identifier. -/
def identifierSource : Option (Gap × Quoted) → List Char
  | none => ['S', 'Y', 'S', 'T', 'E', 'M']
  | some (gap, identifier) => ['P', 'U', 'B', 'L', 'I', 'C'] ++ (gap.text ++ identifier.source)

/-- What makes an external entity no markup. -/
def unparsedSource : Option (Gap × Gap × EntityName) → List Char
  | none => []
  | some (gap, between, name) =>
    gap.text ++ (['N', 'D', 'A', 'T', 'A'] ++ (between.text ++ name.text))

def Definition.source : Definition → List Char
  | literal value => value.source
  | external identifier gap location unparsed =>
    identifierSource identifier ++ (gap.text ++ (location.source ++ unparsedSource unparsed))

def percentSource : Option Gap → List Char
  | none => []
  | some gap => '%' :: gap.text

/-- What follows the marker of a declaration. -/
def Declaration.body (d : Declaration) : List Char :=
  d.before.text ++ (percentSource d.percent ++ (d.name.text ++ (d.between.text ++
    (d.definition.source ++ (d.after.text ++ ['>'])))))

def Item.source : Item → List Char
  | spaces s => s.text
  | comment c => ['<', '!', '-', '-'] ++ (c.text ++ ['-', '-', '>'])
  | declaration d => entityMarker ++ d.body

/-- The content of a document type with an internal subset. -/
def documentType (head : List Char) (items : List Item) (tail : List Char) : List Char :=
  (head ++ ['[']) ++ (items.flatMap Item.source ++ ']' :: tail)

/-! ## What is declared -/

def Definition.value? : Definition → Option String
  | literal value => some (String.ofList value.text)
  | external .. => none

/-- The texts between quotation marks in a definition. -/
def Definition.quoted : Definition → List Quoted
  | literal value => [value]
  | external identifier _ location _ => identifier.toList.map (·.2) ++ [location]

/-- The general entity that is declared, and what it is declared to be. -/
def Declaration.general? (d : Declaration) : Option (String × Definition) :=
  match d.percent with
  | none => some (String.ofList d.name.text, d.definition)
  | some _ => none

def Item.general? : Item → Option (String × Definition)
  | declaration d => d.general?
  | _ => none

/-- The declarations of general entities, in order. -/
def generals (items : List Item) : List (String × Definition) := items.filterMap Item.general?

/-- An entity and its value, if it is declared with a literal. -/
def literal? (declared : String × Definition) : Option (String × String) :=
  declared.2.value?.map (declared.1, ·)

/-- What begins a declaration does not occur in a text. -/
def Unmarked (cs : List Char) : Prop := ¬ entityMarker <:+: cs

instance (cs : List Char) : Decidable (Unmarked cs) :=
  inferInstanceAs (Decidable (¬ entityMarker <:+: cs))

/-- The one character that may stand in names and is white space to the reader. -/
def nameBlank : Char := '\u1680'

/-- Nothing but declarations looks like one, and the names of general entities have no white space
    in them. -/
def Item.IsPlain : Item → Prop
  | spaces _ => True
  | comment c => Unmarked c.text
  | declaration d => (∀ q ∈ d.definition.quoted, Unmarked q.text) ∧
      (d.percent.isNone → nameBlank ∉ d.name.text)

instance : DecidablePred Item.IsPlain
  | .spaces _ => inferInstanceAs (Decidable True)
  | .comment c => inferInstanceAs (Decidable (Unmarked c.text))
  | .declaration d => inferInstanceAs (Decidable ((∀ q ∈ d.definition.quoted, Unmarked q.text) ∧
      (d.percent.isNone → nameBlank ∉ d.name.text)))

/-! ## Texts without the marker -/

section

variable {before after : List Char}

theorem Unmarked.append (unmarked : Unmarked before)
    (apart : ∀ c ∈ after.head?, c ∉ entityMarker.tail) (rest : Unmarked after) :
    Unmarked (before ++ after) :=
  Text.not_isInfix_append unmarked apart rest

theorem Unmarked.append_left (free : '<' ∉ before) (rest : Unmarked after) :
    Unmarked (before ++ after) :=
  Text.not_isInfix_append_of_not_mem free rest

theorem unmarked_of_free (free : '<' ∉ before) : Unmarked before := by
  simpa using Unmarked.append_left free (show Unmarked [] by decide)

theorem Spaces.isSpace_of_mem (s : Spaces) {c : Char} (member : c ∈ s.text) :
    Markup.isSpace c = true :=
  List.all_eq_true.1 s.areSpaces c member

theorem EntityName.isNameChar_of_mem (n : EntityName) {c : Char} (member : c ∈ n.text) :
    Markup.isNameChar c = true :=
  List.all_eq_true.1 n.nameChars c member

theorem Spaces.free (s : Spaces) : '<' ∉ s.text := fun member =>
  absurd (s.isSpace_of_mem member) (by decide)

theorem EntityName.free (n : EntityName) : '<' ∉ n.text := fun member =>
  absurd (n.isNameChar_of_mem member) (by decide)

theorem EntityName.nonempty (n : EntityName) : n.text ≠ [] := fun empty => by
  have begins := n.begins
  rw [empty] at begins
  exact absurd begins (by decide)

theorem Quoted.unmarked_append {q : Quoted} (plain : Unmarked q.text) (rest : Unmarked after) :
    Unmarked (q.source ++ after) := by
  have begins : '<' ∉ [q.mark] ∧ q.mark ∉ entityMarker.tail := by
    obtain mark | mark := q.isMark <;> rw [mark] <;> decide
  have closed : Unmarked (q.mark :: after) := Unmarked.append_left begins.1 rest
  have shape : q.source ++ after = [q.mark] ++ (q.text ++ q.mark :: after) := by simp [source]
  rw [shape]
  refine Unmarked.append_left begins.1 (plain.append ?_ closed)
  rintro c ⟨⟩
  exact begins.2

theorem free_unparsedSource (unparsed : Option (Gap × Gap × EntityName)) :
    '<' ∉ unparsedSource unparsed := by
  cases unparsed with
  | none => simp [unparsedSource]
  | some parts =>
    obtain ⟨gap, between, name⟩ := parts
    simp [unparsedSource, gap.free, between.free, name.free]

theorem Definition.unmarked_append {d : Definition} (plain : ∀ q ∈ d.quoted, Unmarked q.text)
    (rest : Unmarked after) : Unmarked (d.source ++ after) := by
  cases d with
  | literal value => exact Quoted.unmarked_append (plain value (by simp [quoted])) rest
  | external identifier gap location unparsed =>
    have located : Unmarked (gap.text ++ (location.source ++ (unparsedSource unparsed ++ after))) :=
      .append_left gap.free (Quoted.unmarked_append (plain location (by simp [quoted]))
        (.append_left (free_unparsedSource unparsed) rest))
    rw [source, List.append_assoc, List.append_assoc, List.append_assoc]
    cases identifier with
    | none => exact .append_left (by decide) located
    | some parts =>
      obtain ⟨space, identifier⟩ := parts
      have identified := Quoted.unmarked_append (plain identifier (by simp [quoted])) located
      rw [identifierSource, List.append_assoc, List.append_assoc]
      exact .append_left (by decide) (.append_left space.free identified)

theorem Declaration.unmarked_body {d : Declaration}
    (plain : ∀ q ∈ d.definition.quoted, Unmarked q.text) : Unmarked d.body := by
  have percent : '<' ∉ percentSource d.percent := by
    cases d.percent with
    | none => simp [percentSource]
    | some gap => simp [percentSource, gap.free]
  have ending : Unmarked (d.after.text ++ ['>']) := .append_left d.after.free (by decide)
  exact .append_left d.before.free (.append_left percent (.append_left d.name.free
    (.append_left d.between.free (Definition.unmarked_append plain ending))))

theorem Comment.unmarked {c : Comment} (plain : Unmarked c.text) :
    Unmarked (Item.comment c).source := by
  have closed : Unmarked (c.text ++ ['-', '-', '>']) :=
    plain.append (by simp [entityMarker]) (by decide)
  have inside : Unmarked (['-', '-'] ++ (c.text ++ ['-', '-', '>'])) :=
    .append_left (by decide) closed
  have begun : Unmarked (['<', '!'] ++ (['-', '-'] ++ (c.text ++ ['-', '-', '>']))) :=
    .append (by decide) (by simp [entityMarker]) inside
  exact begun

end

/-! ## Reading a declaration -/

section

variable {c : Char}

theorem isBlank_of_isSpace (space : Markup.isSpace c = true) : Text.isBlank c = true := by
  simp only [Markup.isSpace, Bool.or_eq_true, beq_iff_eq] at space
  obtain ((rfl | rfl) | rfl) | rfl := space <;> decide

theorem eq_of_isNameChar_of_isBlank (nameChar : Markup.isNameChar c = true)
    (blank : Text.isBlank c = true) : c = nameBlank := by
  have code : c.toNat = 0x1680 := by
    simp only [Markup.isNameChar, Markup.isNamePart, Markup.isNameStart, Markup.within,
      Markup.nameStartRanges, Markup.nameExtraRanges, Bool.or_eq_true, beq_iff_eq, List.any_cons,
      List.any_nil, Bool.and_eq_true, decide_eq_true_eq, Bool.false_eq_true, or_false] at nameChar
    simp only [Text.isBlank, Bool.or_eq_true, Bool.and_eq_true, beq_iff_eq,
      decide_eq_true_eq] at blank
    obtain rfl | ranges := nameChar
    · exact absurd blank (by decide)
    · omega
  exact Char.toNat_inj.1 code

theorem Spaces.areBlank (s : Spaces) : ∀ c ∈ s.text, Text.isBlank c = true := fun _ member =>
  isBlank_of_isSpace (s.isSpace_of_mem member)

theorem EntityName.solid {n : EntityName} (clear : nameBlank ∉ n.text) :
    ∀ c ∈ n.text, Text.isBlank c = false := by
  intro c member
  rw [← Bool.not_eq_true]
  intro blank
  exact clear (eq_of_isNameChar_of_isBlank (n.isNameChar_of_mem member) blank ▸ member)

theorem name_begins {n : EntityName} (clear : nameBlank ∉ n.text) (rest : List Char) :
    Text.dropStart (n.text ++ rest) = n.text ++ rest ∧ (n.text ++ rest).head? ≠ some '%' := by
  obtain ⟨c, others, text⟩ := List.exists_cons_of_ne_nil n.nonempty
  have member : c ∈ n.text := by simp [text]
  have head : (n.text ++ rest).head? = some c := by simp [text]
  refine ⟨Text.dropStart_eq_self fun first begins => ?_, fun percent => ?_⟩
  · obtain rfl : c = first := Option.some.inj (head.symm.trans begins)
    exact n.solid clear c member
  · obtain rfl : c = '%' := Option.some.inj (head.symm.trans percent)
    exact absurd (n.isNameChar_of_mem member) (by decide)

/-- A name is cut off at the white space after it. -/
theorem cutOnce_name {n : EntityName} (clear : nameBlank ∉ n.text) (gap : Gap) (rest : List Char) :
    ∃ more, Text.cutOnce Text.isBlank (n.text ++ (gap.text ++ rest)) = some (n.text, more) ∧
      Text.dropStart more = Text.dropStart rest := by
  obtain ⟨⟨text, areSpaces⟩, nonempty⟩ := gap
  cases text with
  | nil => exact absurd rfl nonempty
  | cons c spaces =>
    have blank := Spaces.areBlank ⟨c :: spaces, areSpaces⟩
    rw [List.forall_mem_cons] at blank
    refine ⟨spaces ++ rest, ?_, Text.dropStart_of_blank blank.2 rest⟩
    exact Text.cutOnce_eq_some_iff.2 ⟨c, by simp, blank.1, n.solid clear⟩

theorem quoted?_source (q : Quoted) (rest : List Char) :
    quoted? (Text.dropStart (q.source ++ rest)) = some q.text := by
  have begins : Text.isBlank q.mark = false := by
    obtain mark | mark := q.isMark <;> rw [mark] <;> decide
  have solid : ∀ c ∈ (q.source ++ rest).head?, Text.isBlank c = false := by
    rintro c ⟨⟩
    exact begins
  have cut : Text.cutOnce (· == q.mark) (q.text ++ q.mark :: rest) = some (q.text, rest) := by
    refine Text.cutOnce_eq_some_iff.2 ⟨q.mark, rfl, by simp, fun c member => ?_⟩
    simpa using fun same : c = q.mark => q.closed (same ▸ member)
  rw [Text.dropStart_eq_self solid]
  simp [Quoted.source, quoted?, q.isMark, cut]

theorem quoted?_external (identifier : Option (Gap × Quoted)) (rest : List Char) :
    quoted? (Text.dropStart (identifierSource identifier ++ rest)) = none := by
  cases identifier <;> rfl

theorem quoted?_definition (d : Definition) (rest : List Char) :
    (quoted? (Text.dropStart (d.source ++ rest))).map String.ofList = d.value? := by
  cases d with
  | literal value =>
    rw [Definition.source, quoted?_source]
    rfl
  | external identifier gap location unparsed =>
    rw [Definition.source, List.append_assoc, quoted?_external]
    rfl

/-- What is read of a declaration is what it declares, whatever follows it. -/
theorem declaration?_body {d : Declaration} (clear : d.percent.isNone → nameBlank ∉ d.name.text)
    (more : List Char) : declaration? (d.body ++ more) = d.general?.bind literal? := by
  have shape : d.body ++ more = d.before.text ++ (percentSource d.percent ++ (d.name.text ++
      (d.between.text ++ (d.definition.source ++ (d.after.text ++ ['>'] ++ more))))) := by
    simp [Declaration.body]
  rw [declaration?, shape, Text.dropStart_of_blank d.before.areBlank, Declaration.general?]
  cases percent : d.percent with
  | some gap => rfl
  | none =>
    have clear := clear (by simp [percent])
    obtain ⟨begins, general⟩ := name_begins clear (d.between.text ++ (d.definition.source ++
      (d.after.text ++ ['>'] ++ more)))
    obtain ⟨others, cut, rest⟩ := cutOnce_name clear d.between
      (d.definition.source ++ (d.after.text ++ ['>'] ++ more))
    have value := quoted?_definition d.definition (d.after.text ++ ['>'] ++ more)
    rw [percentSource, List.nil_append, begins]
    simp only [general, ↓reduceIte, cut, bind, Option.bind_some, rest, literal?, ← value]
    cases quoted? (Text.dropStart (d.definition.source ++ (d.after.text ++ ['>'] ++ more))) <;> rfl

/-! ## Reading an internal subset -/

/-- No item can continue a marker that has begun before it. -/
theorem Item.apart (item : Item) :
    ∀ c ∈ item.source.head?, c ∉ entityMarker.tail := by
  cases item with
  | spaces s =>
    have other : ∀ c ∈ entityMarker.tail, Markup.isSpace c = false := by
      simp [entityMarker, Markup.isSpace]
    intro c head marked
    have space := s.isSpace_of_mem (List.mem_of_mem_head? head)
    exact absurd (space.symm.trans (other c marked)) (by decide)
  | comment c =>
    rintro c ⟨⟩
    decide
  | declaration d =>
    rintro c ⟨⟩
    decide

/-- Between the markers there is what follows them of each declaration, and after it what does not
    matter. -/
theorem pieces_items {items : List Item} {before tail : List Char}
    (plain : ∀ item ∈ items, item.IsPlain) (unmarked : Unmarked before) (ends : Unmarked tail) :
    ∃ more rest, Text.piecesBetween entityMarker
        (before ++ (items.flatMap Item.source ++ ']' :: tail)) = (before ++ more) :: rest ∧
      rest.filterMap declaration? = (generals items).filterMap literal? := by
  induction items generalizing before with
  | nil =>
    have ends : Unmarked ([']'] ++ tail) := .append_left (by decide) ends
    refine ⟨']' :: tail, [], ?_, rfl⟩
    exact Text.piecesBetweenFrom_of_free (unmarked.append (by simp [entityMarker]) ends) []
  | cons item items ih =>
    rw [List.forall_mem_cons] at plain
    rw [List.flatMap_cons, List.append_assoc]
    -- What is no declaration belongs to the piece that has begun.
    have passed (inside : Unmarked item.source) : ∃ more rest, Text.piecesBetween entityMarker
          (before ++ (item.source ++ (items.flatMap Item.source ++ ']' :: tail))) =
            (before ++ more) :: rest ∧
        rest.filterMap declaration? = (generals items).filterMap literal? := by
      obtain ⟨more, rest, pieces, read⟩ := ih plain.2 (unmarked.append item.apart inside)
      exact ⟨item.source ++ more, rest, by simpa using pieces, read⟩
    cases item with
    | spaces s => exact passed (unmarked_of_free s.free)
    | comment c => exact passed (Comment.unmarked plain.1)
    | declaration d =>
      obtain ⟨more, rest, pieces, read⟩ := ih plain.2 (Declaration.unmarked_body plain.1.1)
      refine ⟨[], (d.body ++ more) :: rest, ?_, ?_⟩
      · rw [Item.source, List.append_assoc, ← pieces, List.append_nil]
        exact Text.piecesBetweenFrom_append (by decide) unmarked [] _
      · rw [List.filterMap_cons, declaration?_body plain.1.2, read]
        rw [generals, generals, List.filterMap_filterMap, List.filterMap_filterMap,
          List.filterMap_cons]
        rfl

theorem entities_documentType {items : List Item} {head tail : List Char}
    (plain : ∀ item ∈ items, item.IsPlain) (begins : Unmarked head) (ends : Unmarked tail) :
    Entities.of (documentType head items tail) = (generals items).filterMap literal? := by
  have unmarked : Unmarked (head ++ ['[']) := begins.append (by simp [entityMarker]) (by decide)
  obtain ⟨more, rest, pieces, read⟩ := pieces_items plain unmarked ends
  rw [Entities.of, documentType, pieces, List.drop_one, List.tail_cons, read]

/-- The first declaration of a general entity gives it a value. -/
def FirstGives (items : List Item) (name value : String) : Prop :=
  ∃ definition, (generals items).lookup name = some definition ∧ definition.value? = some value

theorem lookup_literals_eq_some_iff {declared : List (String × Definition)} {name value : String} :
    (declared.filterMap literal?).lookup name = some value ↔
      ∃ before definition after, declared = before ++ (name, definition) :: after ∧
        definition.value? = some value ∧ ∀ other, (name, other) ∈ before → other.value? = none := by
  have found : (declared.filterMap literal?).lookup name =
      declared.findSome? fun entry => if entry.1 = name then entry.2.value? else none := by
    induction declared with
    | nil => rfl
    | cons entry declared ih =>
      obtain ⟨other, definition⟩ := entry
      rw [List.filterMap_cons, List.findSome?_cons, ← ih, literal?]
      by_cases same : other = name
      · subst same
        cases definition.value? <;> simp
      · have apart : (name == other) = false := beq_eq_false_iff_ne.2 (Ne.symm same)
        cases definition.value? <;> simp [same, List.lookup_cons, apart]
  rw [found, List.findSome?_eq_some_iff]
  constructor
  · rintro ⟨before, ⟨other, definition⟩, after, rfl, gives, passed⟩
    split at gives
    · next same =>
      obtain rfl : other = name := same
      refine ⟨before, definition, after, rfl, gives, fun definition member => ?_⟩
      simpa using passed _ member
    · cases gives
  · rintro ⟨before, definition, after, rfl, gives, passed⟩
    refine ⟨before, (name, definition), after, rfl, by simpa using gives, ?_⟩
    rintro ⟨other, definition⟩ member
    simp only [ite_eq_right_iff]
    rintro rfl
    exact passed definition member

/-- The first of all declarations of a name counts exactly if it is not one from outside the
    document with a literal one after it. -/
theorem lookup_literals_iff_firstGives {items : List Item} {name : String} :
    (∀ value, ((generals items).filterMap literal?).lookup name = some value ↔
        FirstGives items name value) ↔
      ∀ definition, (generals items).lookup name = some definition → definition.value? = none →
        ∀ other, (name, other) ∈ generals items → other.value? = none := by
  constructor
  -- Any literal declaration gives the name a value, which the first one would have to give.
  · intro law definition first external other listed
    cases given : other.value? with
    | none => rfl
    | some value =>
      have declared : (name, value) ∈ (generals items).filterMap literal? :=
        List.mem_filterMap.2 ⟨(name, other), listed, by simp [literal?, given]⟩
      have found : (((generals items).filterMap literal?).lookup name).isSome :=
        List.lookup_isSome_iff.2 ⟨_, declared, by simp⟩
      obtain ⟨value, found⟩ := Option.isSome_iff_exists.1 found
      obtain ⟨definition', first', gives⟩ := (law value).1 found
      obtain rfl := Option.some.inj (first.symm.trans first')
      exact absurd (external.symm.trans gives) nofun
  · intro passed value
    cases first : (generals items).lookup name with
    | none =>
      have absent := List.lookup_eq_none_iff.1 first
      rw [lookup_literals_eq_some_iff, FirstGives, first]
      refine iff_of_false ?_ (by simp)
      rintro ⟨before, definition, after, split, -⟩
      simpa using absent (name, definition) (by simp [split])
    | some definition =>
      cases given : definition.value? with
      | none =>
        rw [lookup_literals_eq_some_iff, FirstGives, first]
        refine iff_of_false ?_ (by simp [given])
        rintro ⟨before, other, after, split, gives, -⟩
        have none := passed definition first given other (by simp [split])
        exact absurd (none.symm.trans gives) nofun
      | some value' =>
        obtain ⟨before, after, split, others⟩ := List.lookup_eq_some_iff.1 first
        have found : ((generals items).filterMap literal?).lookup name = some value' := by
          refine lookup_literals_eq_some_iff.2 ⟨before, definition, after, split, given, ?_⟩
          intro other member
          simpa using others _ member
        rw [found, FirstGives, first]
        simp [given]

/-- Each name has the value of its first declaration with a literal, whatever is declared outside
    the document before it. So the first of all its declarations counts exactly if it is not one
    from outside with a literal one after it. -/
theorem lookup_entities_iff {items : List Item} {head tail : List Char}
    (plain : ∀ item ∈ items, item.IsPlain) (begins : Unmarked head) (ends : Unmarked tail)
    (name : String) :
    (∀ value, (Entities.of (documentType head items tail)).lookup name = some value ↔
      ∃ before definition after, generals items = before ++ (name, definition) :: after ∧
        definition.value? = some value ∧
        ∀ other, (name, other) ∈ before → other.value? = none) ∧
    ((∀ value, (Entities.of (documentType head items tail)).lookup name = some value ↔
        FirstGives items name value) ↔
      ∀ definition, (generals items).lookup name = some definition → definition.value? = none →
        ∀ other, (name, other) ∈ generals items → other.value? = none) := by
  rw [entities_documentType plain begins ends]
  exact ⟨fun value => lookup_literals_eq_some_iff, lookup_literals_iff_firstGives⟩

/-! ## Some internal subsets -/

def oneSpace : Gap := { text := [' '] }

/-- A general entity with a literal value. -/
def literalItem (name : EntityName) (value : Quoted) : Item :=
  .declaration { before := oneSpace, name, between := oneSpace, definition := .literal value }

/-- A general entity outside the document. -/
def outsideItem (name : EntityName) (location : Quoted) : Item :=
  .declaration { before := oneSpace, name, between := oneSpace
                 definition := .external none oneSpace location none }

/-- One entity outside the document, and then with a literal. -/
def lateItems : List Item :=
  [outsideItem { text := ['n'] } { text := "n.ent".toList },
    .comment { text := " again ".toList },
    literalItem { text := ['n'] } { mark := '"', text := "late".toList }]

theorem lookup_lateItems :
    ((∀ item ∈ lateItems, item.IsPlain) ∧ Unmarked "xs:schema ".toList ∧ Unmarked []) ∧
    (Entities.of (documentType "xs:schema ".toList lateItems [])).lookup "n" = some "late" := by
  have plain : ∀ item ∈ lateItems, item.IsPlain := by decide +kernel
  refine ⟨⟨plain, by decide +kernel, by decide +kernel⟩, ?_⟩
  refine ((lookup_entities_iff plain (by decide +kernel) (by decide +kernel) "n").1 "late").2 ?_
  refine ⟨[_], .literal { mark := '"', text := "late".toList }, [], rfl, by decide +kernel, ?_⟩
  intro other listed
  obtain rfl := (Prod.mk.inj (List.mem_singleton.1 listed)).2
  rfl

/-- A declaration in a comment. -/
def commentItems : List Item :=
  [.comment { text := " <!ENTITY n 'old'> ".toList },
    literalItem { text := ['n'] } { text := "new".toList }]

/-- A declaration in a literal. -/
def nestedItems : List Item :=
  [literalItem { text := ['a'] } { mark := '"', text := "<!ENTITY n 'x'>".toList }]

/-- A name with white space in it. -/
def spacedItems : List Item :=
  [literalItem { text := ['n', nameBlank] } { text := "x".toList }]

/-- What is read differs from what the first declarations give when the first one is outside the
    document, when there is one in a comment or in a literal, and when there is white space in a
    name. -/
theorem misreads_declarations :
    ((Entities.of (documentType "xs:schema ".toList lateItems [])).lookup "n" = some "late" ∧
      ¬ FirstGives lateItems "n" "late") ∧
    ((Entities.of (documentType "xs:schema ".toList commentItems [])).lookup "n" = some "old" ∧
      FirstGives commentItems "n" "new") ∧
    ((Entities.of (documentType "xs:schema ".toList nestedItems [])).lookup "n" = some "x" ∧
      ∀ value, ¬ FirstGives nestedItems "n" value) ∧
    ((Entities.of (documentType "xs:schema ".toList spacedItems [])).lookup "n" = some "x" ∧
      ∀ value, ¬ FirstGives spacedItems "n" value) := by
  refine ⟨⟨by decide +kernel, ?_⟩, ⟨by decide +kernel, ?_⟩, ⟨by decide +kernel, ?_⟩,
    ⟨by decide +kernel, ?_⟩⟩
  · rintro ⟨definition, first, gives⟩
    obtain rfl := Option.some.inj first
    cases gives
  · exact ⟨_, rfl, by decide +kernel⟩
  · rintro value ⟨definition, first, -⟩
    cases first
  · rintro value ⟨definition, first, -⟩
    cases first

end

end MessageConformance.Schema
