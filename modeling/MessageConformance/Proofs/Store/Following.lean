import MessageConformance.Proofs.Store.Paths

/-!
# Paths followed in parts

A path is followed part by part: the rest of it from where the first part leads
(`collapse_append_eq_bind`). So a path that is joined to another one can be normalised first
(`parse?_append`), and references that are followed from document to document lead where one
reference leads, in which each of them goes back to the directory of the document before
(`resolve?_bind`, `foldlM_resolve?`). The directory of a document is what stands before the last
slash of its text (`resolve?_of_text_eq`, `resolve?_of_text_free`).
-/

namespace MessageConformance.Location

/-- Steps are followed in two parts, the second from where the first leads. -/
theorem collapse_append_eq_bind (above first rest : List String) :
    collapse above (first ++ rest) =
      (collapse above first).bind fun reached => collapse reached.reverse rest := by
  induction first generalizing above with
  | nil => simp [collapse]
  | cons step first ih =>
    rw [List.cons_append]
    simp only [collapse]
    by_cases stays : step = "" ∨ step = "."
    · simp only [stays, ↓reduceIte, ih]
    · by_cases back : step = ".."
      · subst back
        cases above with
        | nil => simp
        | cons parent above => simpa using ih above
      · simp only [stays, back, ↓reduceIte, ih]

/-- Two paths along which the same steps are left are followed alike. -/
theorem walk?_eq_of_collapse_eq {above above' : List String} {path path' : String}
    (plain : ∀ s ∈ above, IsPlain s) (plain' : ∀ s ∈ above', IsPlain s)
    (same : collapse above (Text.split '/' path) = collapse above' (Text.split '/' path')) :
    walk? above plain path = walk? above' plain' path' := by
  apply Option.ext
  intro l
  rw [walk?_eq_some_iff, walk?_eq_some_iff, same]

theorem split_slash (before after : String) :
    Text.split '/' (before ++ "/" ++ after) = Text.split '/' before ++ Text.split '/' after :=
  Text.split_append before after

/-- The beginning of a path can be normalised before the rest is followed. -/
theorem parse?_append {a : String} {l : Location} (parsed : parse? a = some l) (b : String) :
    parse? (a ++ "/" ++ b) = parse? (l.text ++ "/" ++ b) := by
  rw [parse?_eq_some_iff] at parsed
  apply walk?_eq_of_collapse_eq
  rw [split_slash, split_slash, split_text, collapse_append_eq_bind, parsed,
    collapse_append l.plain, List.append_nil]
  rfl

/-! ## References -/

/-- The segments that a reference in the document at `base` leads to. -/
theorem resolve?_eq_some_iff (base l : Location) (reference : String) :
    base.resolve? reference = some l ↔
      collapse base.directory.reverse (Text.split '/' reference) = some l.segments :=
  walk?_eq_some_iff _ _ reference l

theorem resolve?_eq_of_collapse_eq {base base' : Location} {reference reference' : String}
    (same : collapse base.directory.reverse (Text.split '/' reference) =
      collapse base'.directory.reverse (Text.split '/' reference')) :
    base.resolve? reference = base'.resolve? reference' :=
  walk?_eq_of_collapse_eq _ _ same

/-- The way back from the end of a path: into the directory that holds it. -/
theorem split_back (first second : String) :
    Text.split '/' (first ++ "/../" ++ second) =
      Text.split '/' first ++ ".." :: Text.split '/' second := by
  have joined : first ++ "/../" ++ second = first ++ "/" ++ (".." ++ "/" ++ second) := by
    simp [← String.toList_inj]
  have back : Text.split '/' ".." = [".."] := by decide
  rw [joined, split_slash, split_slash, back, List.singleton_append]

/-- From the end of a document's location one goes back into its directory. -/
theorem collapse_back (l : Location) (steps : List String) :
    collapse l.segments.reverse (".." :: steps) = collapse l.directory.reverse steps := by
  obtain ⟨last, shape⟩ : ∃ last, l.segments = l.directory ++ [last] :=
    ⟨l.segments.getLast l.nonempty, (List.dropLast_concat_getLast l.nonempty).symm⟩
  rw [shape, List.reverse_append]
  simp [collapse]

/-- A reference in a document that is referred to stands for a reference that goes back from
    there. -/
theorem resolve?_of_resolve? {base l : Location} {first : String}
    (resolved : base.resolve? first = some l) (second : String) :
    l.resolve? second = base.resolve? (first ++ "/../" ++ second) := by
  rw [resolve?_eq_some_iff] at resolved
  apply resolve?_eq_of_collapse_eq
  rw [split_back, collapse_append_eq_bind, resolved]
  exact (collapse_back l _).symm

/-- Where the first reference leads nowhere, so does the one that goes back from there. -/
theorem resolve?_eq_none_of_resolve? {base : Location} {first : String}
    (unresolved : base.resolve? first = none) (second : String) :
    base.resolve? (first ++ "/../" ++ second) = none := by
  apply Option.eq_none_iff_forall_ne_some.2
  intro l resolved
  rw [resolve?_eq_some_iff, split_back, collapse_append_eq_bind] at resolved
  obtain ⟨reached, followed, back⟩ := Option.bind_eq_some_iff.1 resolved
  -- The steps end at the root, from which the way back leads out of the store.
  have atRoot : reached = [] := by
    refine Classical.byContradiction fun below => ?_
    have plain : ∀ s ∈ reached, IsPlain s :=
      collapse_plain followed
        (fun s member => base.plain s (List.dropLast_subset _ (List.mem_reverse.1 member)))
        fun _ member => Text.not_mem_of_mem_split member
    have found := (resolve?_eq_some_iff base ⟨reached, below, plain⟩ first).2 followed
    rw [unresolved] at found
    cases found
  subst atRoot
  simp [collapse] at back

theorem resolve?_bind (base : Location) (first second : String) :
    (base.resolve? first).bind (fun l => l.resolve? second) =
      base.resolve? (first ++ "/../" ++ second) := by
  cases resolved : base.resolve? first with
  | none => exact (resolve?_eq_none_of_resolve? resolved second).symm
  | some l => exact resolve?_of_resolve? resolved second

/-- Following references from document to document is following one that joins them. -/
theorem foldlM_resolve? (base : Location) (first : String) (rest : List String) :
    (first :: rest).foldlM resolve? base = base.resolve? ("/../".intercalate (first :: rest)) := by
  induction rest generalizing base first with
  | nil => simp [String.intercalate_singleton]
  | cons second rest ih =>
    calc (first :: second :: rest).foldlM resolve? base
        = (base.resolve? first).bind fun l => (second :: rest).foldlM resolve? l := rfl
      _ = (base.resolve? first).bind fun l =>
            l.resolve? ("/../".intercalate (second :: rest)) := by simp only [ih]
      _ = base.resolve? (first ++ "/../" ++ "/../".intercalate (second :: rest)) :=
          resolve?_bind base first _
      _ = base.resolve? ("/../".intercalate (first :: second :: rest)) := by
          rw [String.intercalate_cons_cons]

/-! ## Directories in texts -/

/-- The directory of a document is what stands before the last slash of its text. -/
theorem resolve?_of_text_eq {base : Location} {directory name : String}
    (cut : base.text = directory ++ "/" ++ name) (last : '/' ∉ name.toList) (reference : String) :
    base.resolve? reference = parse? (directory ++ "/" ++ reference) := by
  have segments : base.segments = Text.split '/' directory ++ [name] := by
    rw [← split_text, cut, split_slash, Text.split_of_free last]
  have inside : base.directory = Text.split '/' directory := by
    rw [Location.directory, segments, List.dropLast_concat]
  have plain : ∀ s ∈ Text.split '/' directory, IsPlain s := fun s member =>
    base.plain s (by simp [segments, member])
  apply walk?_eq_of_collapse_eq
  rw [split_slash, collapse_append plain, inside, List.append_nil]

/-- A document whose text has no slash stands at the root. -/
theorem resolve?_of_text_free {base : Location} (free : '/' ∉ base.text.toList)
    (reference : String) : base.resolve? reference = parse? reference := by
  have single : base.segments = [base.text] := by rw [← split_text, Text.split_of_free free]
  have top : base.directory = [] := by rw [Location.directory, single]; rfl
  apply walk?_eq_of_collapse_eq
  rw [top, List.reverse_nil]

/-- Normal forms are normal, the beginning of a path may be normalised first, and references are
    followed from document to document as one reference that goes back to each directory. -/
theorem follows_in_parts :
    (∀ path l, parse? path = some l → parse? l.text = some l) ∧
    (∀ a b l, parse? a = some l → parse? (a ++ "/" ++ b) = parse? (l.text ++ "/" ++ b)) ∧
    (∀ (base : Location) first second l, base.resolve? first = some l →
      l.resolve? second = base.resolve? (first ++ "/../" ++ second)) ∧
    (∀ (base : Location) references, references ≠ [] →
      references.foldlM resolve? base = base.resolve? ("/../".intercalate references)) := by
  refine ⟨fun _ l _ => parse?_text l, fun _ b _ parsed => parse?_append parsed b,
    fun _ _ second _ resolved => resolve?_of_resolve? resolved second, ?_⟩
  intro base references some
  obtain ⟨first, rest, rfl⟩ := List.exists_cons_of_ne_nil some
  exact foldlM_resolve? base first rest

/-- The document `a/b/c.xsd`, which is referred to by a path with detours. -/
def nestedDocument : Location := ⟨["a", "b", "c.xsd"], by decide, by decide⟩

/-- The document `a/x/y`. -/
def siblingDocument : Location := ⟨["a", "x", "y"], by decide, by decide⟩

theorem follows_in_parts_nestedDocument :
    parse? "/a//q/.././b/c.xsd" = some nestedDocument ∧
    parse? nestedDocument.text = some nestedDocument ∧
    parse? "/a//q/.././b/c.xsd/../../d" = parse? (nestedDocument.text ++ "/" ++ "../../d") ∧
    nestedDocument.resolve? ".././x//y" = some siblingDocument ∧
    siblingDocument.resolve? "../../z" =
      nestedDocument.resolve? (".././x//y" ++ "/../" ++ "../../z") ∧
    [".././x//y", "../../z"].foldlM resolve? nestedDocument =
      some ⟨["z"], by decide, by decide⟩ := by
  have parsed : parse? "/a//q/.././b/c.xsd" = some nestedDocument := by decide
  have resolved : nestedDocument.resolve? ".././x//y" = some siblingDocument := by decide
  obtain ⟨normal, joined, followed, chained⟩ := follows_in_parts
  refine ⟨parsed, normal _ _ parsed, joined _ "../../d" _ parsed, resolved,
    followed _ _ "../../z" _ resolved, ?_⟩
  rw [chained _ _ (by decide)]
  decide

end MessageConformance.Location
