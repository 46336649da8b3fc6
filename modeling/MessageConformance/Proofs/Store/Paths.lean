import MessageConformance.Files.Name
import MessageConformance.Resolver
import MessageConformance.Proofs.Text.Pieces

/-!
# Paths into a store

A path is followed from the root of a store, and climbs above it when some beginning of it goes
up more often than down (`Climbs`). It names a location exactly if it does not climb and does not
lead back to the root (`parse?_isSome_iff`). The text of a location is its segments with single
slashes between them (`split_text`), and is read back as that location (`parse?_text`), so
locations are told apart by their texts. A reference beside a document is a path that begins with
the directory of the document (`resolve?_eq_parse?`).
-/

namespace MessageConformance

/-! ## Following a path -/

/-- Whether a step of a path goes down, to a named entry. -/
def goesDown (step : String) : Bool := step ≠ "" && step ≠ "." && step ≠ ".."

/-- How many steps go down. -/
def downs (steps : List String) : Nat := steps.countP goesDown

/-- How many steps go up. -/
def ups (steps : List String) : Nat := steps.count ".."

/-- A path climbs above the root: some beginning of it goes up more often than down. -/
def Climbs (path : String) : Prop :=
  ∃ first, first <+: Text.split '/' path ∧ downs first < ups first

namespace Location

/-- Steps cannot be followed when some first of them go up more often than down, the depth they
    begin at included. -/
theorem collapse_eq_none_iff (above steps : List String) :
    collapse above steps = none ↔
      ∃ first, first <+: steps ∧ above.length + downs first < ups first := by
  induction steps generalizing above with
  | nil => simp [collapse, downs, ups]
  | cons step rest ih =>
    have split (depth : Nat) :
        (∃ first, first <+: step :: rest ∧ depth + downs first < ups first) ↔
          ∃ first, first <+: rest ∧ depth + downs (step :: first) < ups (step :: first) := by
      constructor
      · rintro ⟨all, begins, climbs⟩
        obtain rfl | ⟨first, rfl, after⟩ := List.prefix_cons_iff.1 begins
        · simp [downs, ups] at climbs
        · exact ⟨first, after, climbs⟩
      · rintro ⟨first, begins, climbs⟩
        exact ⟨step :: first, List.cons_prefix_cons.2 ⟨rfl, begins⟩, climbs⟩
    rw [split]
    simp only [collapse]
    by_cases stays : step = "" ∨ step = "."
    · have still (first : List String) :
          downs (step :: first) = downs first ∧ ups (step :: first) = ups first := by
        obtain rfl | rfl := stays <;> simp [downs, ups, goesDown]
      simp [stays, ih, still]
    · by_cases back : step = ".."
      · subst back
        have climbs (first : List String) :
            downs (".." :: first) = downs first ∧ ups (".." :: first) = ups first + 1 := by
          simp [downs, ups, goesDown]
        cases above with
        | nil =>
          simp only [climbs, List.length_nil, Nat.zero_add, reduceIte,
            String.reduceEq, or_self, true_iff]
          exact ⟨[], List.nil_prefix, by simp [downs, ups]⟩
        | cons parent above =>
          have same (first : List String) : above.length + downs first < ups first ↔
              above.length + 1 + downs first < ups first + 1 := by omega
          simp [ih, climbs, same]
      · have down (first : List String) :
            downs (step :: first) = downs first + 1 ∧ ups (step :: first) = ups first := by
          rw [not_or] at stays
          simp [downs, ups, goesDown, stays, back]
        have same (first : List String) : above.length + 1 + downs first < ups first ↔
            above.length + (downs first + 1) < ups first := by omega
        simp [stays, back, ih, down, same]

/-- Steps that can be followed end as deep as they go down more often than up. -/
theorem length_of_collapse {above steps result : List String}
    (followed : collapse above steps = some result) :
    result.length + ups steps = above.length + downs steps := by
  induction steps generalizing above with
  | nil =>
    obtain rfl := Option.some.inj followed
    simp [downs, ups]
  | cons step rest ih =>
    simp only [collapse] at followed
    split at followed
    · next stays =>
      have := ih followed
      obtain rfl | rfl := stays <;> simpa [downs, ups, goesDown] using this
    · next stays =>
      split at followed
      · next back =>
        subst back
        cases above with
        | nil => simp at followed
        | cons parent above =>
          have := ih followed
          simp [downs, ups, goesDown] at this ⊢
          omega
      · next back =>
        rw [not_or] at stays
        have := ih followed
        simp [downs, ups, goesDown, stays, back] at this ⊢
        omega

/-- Plain segments are followed as they are. -/
theorem collapse_append {above segments : List String} (plain : ∀ s ∈ segments, IsPlain s)
    (rest : List String) :
    collapse above (segments ++ rest) = collapse (segments.reverse ++ above) rest := by
  induction segments generalizing above with
  | nil => rfl
  | cons s segments ih =>
    rw [List.forall_mem_cons] at plain
    obtain ⟨⟨named, notHere, notUp, -⟩, plain⟩ := plain
    simp [collapse, named, notHere, notUp, ih plain]

theorem walk?_eq_some_iff (above : List String) (plain : ∀ s ∈ above, IsPlain s) (path : String)
    (l : Location) :
    walk? above plain path = some l ↔ collapse above (Text.split '/' path) = some l.segments := by
  unfold walk?
  split
  · next none => simp [none]
  · next segments found =>
    have nonempty := l.nonempty
    simp only [found, Option.some.injEq]
    split
    · next empty => simpa [empty] using nonempty.symm
    · obtain ⟨segments', _, _⟩ := l
      simp

theorem parse?_eq_some_iff (path : String) (l : Location) :
    parse? path = some l ↔ collapse [] (Text.split '/' path) = some l.segments :=
  walk?_eq_some_iff [] (by simp) path l

theorem parse?_of_climbs {path : String} (climbs : Climbs path) : parse? path = none := by
  have unfollowed : collapse [] (Text.split '/' path) = none := by
    rw [collapse_eq_none_iff]
    simpa [Climbs] using climbs
  apply Option.eq_none_iff_forall_ne_some.2
  intro l parsed
  rw [parse?_eq_some_iff, unfollowed] at parsed
  cases parsed

/-- A path names a location exactly if it does not climb and ends below the root. -/
theorem parse?_isSome_iff (path : String) :
    (parse? path).isSome ↔
      ¬ Climbs path ∧ ups (Text.split '/' path) < downs (Text.split '/' path) := by
  constructor
  · intro names
    obtain ⟨l, parsed⟩ := Option.isSome_iff_exists.1 names
    have length := length_of_collapse ((parse?_eq_some_iff path l).1 parsed)
    have below : 0 < l.segments.length := List.length_pos_iff.2 l.nonempty
    rw [List.length_nil] at length
    refine ⟨fun climbs => ?_, by omega⟩
    simp [parse?_of_climbs climbs] at names
  · rintro ⟨stays, below⟩
    cases followed : collapse [] (Text.split '/' path) with
    | none =>
      rw [collapse_eq_none_iff] at followed
      exact absurd (by simpa [Climbs] using followed) stays
    | some segments =>
      have length := length_of_collapse followed
      have nonempty : segments ≠ [] := by
        rintro rfl
        rw [List.length_nil] at length
        omega
      have plain : ∀ s ∈ segments, IsPlain s :=
        collapse_plain followed (by simp) fun _ member => Text.not_mem_of_mem_split member
      exact Option.isSome_iff_exists.2
        ⟨⟨segments, nonempty, plain⟩, (parse?_eq_some_iff path _).2 followed⟩

/-! ## Texts of locations -/

/-- The pieces of the text of a location are its segments. -/
theorem split_text (l : Location) : Text.split '/' l.text = l.segments := by
  have joined : l.text = (String.singleton '/').intercalate l.segments := rfl
  rw [joined, Text.split_intercalate l.nonempty]
  exact Text.flatMap_split_of_free fun s member => (l.plain s member).2.2.2

theorem parse?_text (l : Location) : parse? l.text = some l := by
  have followed : collapse [] (l.segments ++ []) = collapse (l.segments.reverse ++ []) [] :=
    collapse_append l.plain []
  rw [List.append_nil] at followed
  rw [parse?_eq_some_iff, split_text, followed]
  simp [collapse]

theorem text_injective {l l' : Location} (same : l.text = l'.text) : l = l' :=
  Option.some.inj ((parse?_text l).symm.trans (same ▸ parse?_text l'))

theorem text_ends (l : Location) :
    l.text.toList.head? ≠ some '/' ∧ l.text.toList.getLast? ≠ some '/' := by
  -- A slash at an end would make an empty piece, which is no segment.
  have plain : ∀ s ∈ Text.split '/' l.text, s ≠ "" := by
    rw [split_text]
    exact fun s member => (l.plain s member).1
  have pieces (before after : List Char) (shape : l.text.toList = before ++ '/' :: after) :
      String.ofList [] ∈ Text.split '/' l.text → False := fun member => plain "" member rfl
  constructor
  · intro slash
    obtain ⟨after, shape⟩ := List.head?_eq_some_iff.1 slash
    refine pieces [] after shape ?_
    rw [Text.split, shape]
    simp [Text.pieces]
  · intro slash
    obtain ⟨before, shape⟩ := List.getLast?_eq_some_iff.1 slash
    refine pieces before [] shape ?_
    rw [Text.split, shape, Text.pieces_append_separator]
    simp [Text.pieces]

/-- Below a directory, a location is found along the steps of the directory and then its own
    segments. -/
theorem steps_join (root : String) (l : Location) :
    Files.steps (Files.join root l.text) = Files.steps root ++ l.segments := by
  have own : l.segments.filter (fun step => step ≠ "" ∧ step ≠ ".") = l.segments := by
    rw [List.filter_eq_self]
    intro s member
    simp [(l.plain s member).1, (l.plain s member).2.1]
  have joined (start : String) : Files.steps (start ++ String.singleton '/' ++ l.text) =
      Files.steps start ++ l.segments := by
    rw [Files.steps, Text.split_append, split_text, List.filter_append, own]
    rfl
  unfold Files.join
  split
  · next ends =>
    obtain rfl | slash := ends
    · rw [String.empty_append, Files.steps, split_text, own]
      rfl
    · -- The slash that ends the root stands for the one between.
      obtain ⟨before, shape⟩ := List.getLast?_eq_some_iff.1 slash
      have start : root = String.ofList before ++ String.singleton '/' := by
        rw [← String.toList_inj]
        simp [shape]
      have same : Files.steps root = Files.steps (String.ofList before) := by
        have ended : root = String.ofList before ++ String.singleton '/' ++ "" := by
          simpa using start
        rw [ended, Files.steps, Text.split_append, List.filter_append]
        simp [Files.steps, Text.split, Text.pieces]
      rw [same, start, joined]
  · exact joined root

/-- A path leads to a location without leaving the store. The text of the location is in normal
    form: none of its pieces between slashes is empty, `.` or `..`, and there is no slash at its
    ends; so below any directory the location is found along the steps of the directory and then
    those pieces. -/
structure Enters (path : String) (l : Location) : Prop where
  names : parse? path = some l
  stays : ¬ Climbs path
  normal : ∀ piece ∈ Text.split '/' l.text, piece ≠ "" ∧ piece ≠ "." ∧ piece ≠ ".."
  ends : l.text.toList.head? ≠ some '/' ∧ l.text.toList.getLast? ≠ some '/'
  opened : ∀ root,
    Files.steps (Files.join root l.text) = Files.steps root ++ Text.split '/' l.text

theorem enters_of_parse? {path : String} {l : Location} (parsed : parse? path = some l) :
    Enters path l where
  names := parsed
  stays := fun climbs => by simp [parse?_of_climbs climbs] at parsed
  normal := by
    rw [split_text]
    exact fun s member => ⟨(l.plain s member).1, (l.plain s member).2.1, (l.plain s member).2.2.1⟩
  ends := l.text_ends
  opened := fun root => by rw [split_text, steps_join]

/-! ## References -/

/-- A reference after the directory of the document it stands in. -/
def besidePath (base : Location) (reference : String) : String :=
  if base.directory = [] then reference
  else "/".intercalate base.directory ++ "/" ++ reference

/-- A reference beside a document is followed as the path that it makes with the directory of the
    document. -/
theorem resolve?_eq_parse? (base : Location) (reference : String) :
    base.resolve? reference = parse? (besidePath base reference) := by
  have plain : ∀ s ∈ base.directory, IsPlain s := fun s member =>
    base.plain s (List.dropLast_subset _ member)
  have followed : collapse [] (Text.split '/' (besidePath base reference)) =
      collapse base.directory.reverse (Text.split '/' reference) := by
    unfold besidePath
    split
    · next top => simp [top]
    · next nonempty =>
      have joined : "/".intercalate base.directory ++ "/" ++ reference =
          (String.singleton '/').intercalate base.directory ++ String.singleton '/' ++ reference :=
        rfl
      rw [joined, Text.split_append, Text.split_intercalate nonempty,
        Text.flatMap_split_of_free fun s member => (plain s member).2.2.2, collapse_append plain,
        List.append_nil]
  apply Option.ext
  intro l
  rw [parse?_eq_some_iff, followed]
  exact walk?_eq_some_iff _ _ reference l

end Location

namespace Resolver

/-- The paths at which a reference in the document at `base` is looked for, in order. -/
def candidatePaths (reference : String) (base : Option Location) : List String :=
  let reference := Text.trim reference
  if reference = "" then []
  else
    (if isRelative reference then base.toList.map fun b => b.besidePath reference else []) ++
      fallbackDirectories.map (· ++ reference)

/-- A reference is looked for at the locations that its paths name. -/
theorem candidates_eq_filterMap (reference : String) (base : Option Location) :
    candidates reference base = (candidatePaths reference base).filterMap Location.parse? := by
  have beside (b : Location) (text : String) :
      [b.besidePath text].filterMap Location.parse? = (b.resolve? text).toList := by
    rw [Location.resolve?_eq_parse?]
    cases parsed : Location.parse? (b.besidePath text) <;> simp [parsed]
  unfold candidates candidatePaths
  by_cases empty : Text.trim reference = ""
  · simp only [empty, ↓reduceIte, List.filterMap_nil]
  · simp only [empty, ↓reduceIte, List.filterMap_append, List.filterMap_map]
    refine congrArg (· ++ _) ?_
    by_cases relative : isRelative (Text.trim reference) = true
    · cases base with
      | none => simp only [relative, ↓reduceIte, Option.bind_none, Option.toList_none,
          List.map_nil, List.filterMap_nil]
      | some b => simp only [relative, ↓reduceIte, Option.bind_some, Option.toList_some,
          List.map_cons, List.map_nil, beside]
    · simp only [relative, Bool.false_eq_true, ↓reduceIte, Option.toList_none, List.filterMap_nil]

end Resolver
end MessageConformance
