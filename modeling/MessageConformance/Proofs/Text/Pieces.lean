import MessageConformance.Text.Split

/-!
# Splitting and joining

The pieces of a joined text are the pieces of its parts (`split_intercalate`), and the pieces of
a text, joined again, are the text (`intercalate_split`). So two lists of texts are joined to one
text exactly if they have the same pieces (`intercalate_eq_iff`), and lists of texts without
separators are told apart by what they are joined to. A text is cut once where it holds the first
separator (`cutOnce_eq_some_iff`), and between markers of several characters piece by piece
(`piecesBetweenFrom_append`, `piecesBetweenFrom_of_free`).
-/

namespace MessageConformance.Text

theorem pieces_eq_splitOnP {α : Type} (cut : α → Bool) (cs : List α) :
    pieces cut cs = cs.splitOnP cut := by
  induction cs with
  | nil => rfl
  | cons c cs ih =>
    rw [pieces, ih, List.splitOnP_cons_eq_if_modifyHead]
    by_cases here : cut c = true
    · simp [here]
    · simp only [here, Bool.false_eq_true, ↓reduceIte]
      cases rest : cs.splitOnP cut with
      | nil => exact absurd rest (List.splitOnP_ne_nil _ _)
      | cons piece rest => rfl

variable {separator : Char}

theorem pieces_append_separator (before after : List Char) :
    pieces (· == separator) (before ++ separator :: after) =
      pieces (· == separator) before ++ pieces (· == separator) after := by
  simp only [pieces_eq_splitOnP]
  exact List.splitOnP_append_cons before after (beq_self_eq_true separator)

theorem split_of_free {s : String} (free : separator ∉ s.toList) : split separator s = [s] := by
  have uncut : ∀ c ∈ s.toList, (c == separator) = false := by
    intro c member
    simpa using fun same : c = separator => free (same ▸ member)
  rw [split, pieces_eq_splitOnP, List.splitOnP_eq_singleton uncut]
  simp

theorem split_append (before after : String) :
    split separator (before ++ String.singleton separator ++ after) =
      split separator before ++ split separator after := by
  have shape : (before ++ String.singleton separator ++ after).toList =
      before.toList ++ separator :: after.toList := by simp
  rw [split, shape, pieces_append_separator, List.map_append]
  rfl

/-- The pieces of a joined text are the pieces of its parts. -/
theorem split_intercalate {texts : List String} (nonempty : texts ≠ []) :
    split separator ((String.singleton separator).intercalate texts) =
      texts.flatMap (split separator) := by
  induction texts with
  | nil => exact absurd rfl nonempty
  | cons first rest ih =>
    cases rest with
    | nil => simp [String.intercalate_singleton]
    | cons second rest =>
      rw [String.intercalate_cons_cons, split_append, ih (by simp)]
      rfl

/-- The pieces of a text, joined again, are the text. -/
theorem intercalate_split (s : String) :
    (String.singleton separator).intercalate (split separator s) = s := by
  have joined : [separator].intercalate (s.toList.splitOn separator) = s.toList :=
    List.intercalate_splitOn separator
  rw [← String.toList_inj, String.toList_intercalate, split, pieces_eq_splitOnP, List.map_map]
  simpa [Function.comp_def, List.splitOn] using joined

/-- Lists of texts are joined to one text exactly if they have the same pieces. -/
theorem intercalate_eq_iff {first second : List String} (some : first ≠ []) (others : second ≠ []) :
    (String.singleton separator).intercalate first =
        (String.singleton separator).intercalate second ↔
      first.flatMap (split separator) = second.flatMap (split separator) := by
  constructor
  · intro joined
    rw [← split_intercalate some, joined, split_intercalate others]
  · intro same
    rw [← split_intercalate some, ← split_intercalate others] at same
    calc (String.singleton separator).intercalate first
        = (String.singleton separator).intercalate
            (split separator ((String.singleton separator).intercalate first)) :=
          (intercalate_split _).symm
      _ = (String.singleton separator).intercalate
            (split separator ((String.singleton separator).intercalate second)) := by rw [same]
      _ = (String.singleton separator).intercalate second := intercalate_split _

theorem flatMap_split_of_free {texts : List String} (free : ∀ s ∈ texts, separator ∉ s.toList) :
    texts.flatMap (split separator) = texts := by
  induction texts with
  | nil => rfl
  | cons first rest ih =>
    rw [List.forall_mem_cons] at free
    rw [List.flatMap_cons, split_of_free free.1, ih free.2, List.singleton_append]

/-! ## Cutting once -/

theorem cutOnce_eq_some_iff {α : Type} {cut : α → Bool} {cs before after : List α} :
    cutOnce cut cs = some (before, after) ↔
      ∃ c, cs = before ++ c :: after ∧ cut c = true ∧ ∀ b ∈ before, cut b = false := by
  unfold cutOnce
  constructor
  · intro found
    split at found
    · cases found
    · next c rest shape =>
      obtain ⟨rfl, rfl⟩ := Prod.mk.inj (Option.some.inj found)
      refine ⟨c, ?_, ?_, fun b member => ?_⟩
      · rw [← shape, List.takeWhile_append_dropWhile]
      · have first := List.head?_dropWhile_not (fun c => !cut c) cs
        simpa [shape] using first
      · simpa using List.all_eq_true.1 List.all_takeWhile b member
  · rintro ⟨c, rfl, here, passed⟩
    have skipped : ∀ b ∈ before, (!cut b) = true := fun b member => by simp [passed b member]
    rw [List.dropWhile_append_of_pos skipped, List.takeWhile_append_of_pos skipped]
    simp [here]

/-! ## Markers of several characters -/

section

variable {first : Char} {others before after marker cs : List Char}

/-- An occurrence of a marker does not reach over the end of a text when what follows cannot
    continue the marker. -/
theorem not_isPrefix_append {c : Char} (free : ¬ first :: others <:+: c :: before)
    (apart : ∀ d ∈ after.head?, d ∉ others) : ¬ first :: others <+: (c :: before) ++ after := by
  rintro ⟨more, whole⟩
  -- The occurrence ends in the text or beyond it.
  obtain ⟨rest, inside, -⟩ | ⟨rest, beyond, shape⟩ := List.append_eq_append_iff.1 whole
  · exact free (inside ▸ (List.prefix_append _ _).isInfix)
  · cases rest with
    | nil => exact free (by simp [beyond])
    | cons d rest =>
      obtain ⟨-, rfl⟩ := List.cons.inj beyond
      exact apart d (by simp [shape]) (by simp)

theorem not_isInfix_append (free : ¬ first :: others <:+: before)
    (apart : ∀ d ∈ after.head?, d ∉ others) (rest : ¬ first :: others <:+: after) :
    ¬ first :: others <:+: before ++ after := by
  induction before with
  | nil => exact rest
  | cons c before ih =>
    rw [List.cons_append, List.infix_cons_iff, not_or]
    exact ⟨not_isPrefix_append free apart,
      ih fun inside => free (inside.trans (List.suffix_cons c before).isInfix)⟩

theorem not_isInfix_append_of_not_mem (free : first ∉ before)
    (rest : ¬ first :: others <:+: after) : ¬ first :: others <:+: before ++ after := by
  induction before with
  | nil => exact rest
  | cons c before ih =>
    rw [List.mem_cons, not_or] at free
    rw [List.cons_append, List.infix_cons_iff, not_or]
    exact ⟨fun here => free.1 (List.cons_prefix_cons.1 here).1, ih free.2⟩

theorem piecesBetweenFrom_of_free (free : ¬ marker <:+: cs) (run : List Char) :
    piecesBetweenFrom marker 0 run cs = [run.reverse ++ cs] := by
  induction cs generalizing run with
  | nil => simp [piecesBetweenFrom]
  | cons c cs ih =>
    rw [List.infix_cons_iff, not_or] at free
    rw [piecesBetweenFrom, if_neg (mt List.isPrefixOf_iff_prefix.1 free.1), ih free.2]
    simp

theorem piecesBetweenFrom_skip (marker run passed cs : List Char) :
    piecesBetweenFrom marker passed.length run (passed ++ cs) =
      piecesBetweenFrom marker 0 run cs := by
  induction passed with
  | nil => rfl
  | cons c passed ih => simpa [piecesBetweenFrom] using ih

/-- A text is cut at the first occurrence of a marker whose first character is found in it only
    once. -/
theorem piecesBetweenFrom_append (once : first ∉ others) (free : ¬ first :: others <:+: before)
    (run after : List Char) :
    piecesBetweenFrom (first :: others) 0 run (before ++ (first :: others ++ after)) =
      (run.reverse ++ before) :: piecesBetween (first :: others) after := by
  induction before generalizing run with
  | nil =>
    have here : (first :: others).isPrefixOf (first :: (others ++ after)) = true :=
      List.isPrefixOf_iff_prefix.2 (List.prefix_append (first :: others) after)
    rw [List.nil_append, List.cons_append, piecesBetweenFrom, if_pos here, List.append_nil]
    exact congrArg _ (piecesBetweenFrom_skip (first :: others) [] others after)
  | cons c before ih =>
    have other : ¬ first :: others <+: c :: (before ++ (first :: others ++ after)) :=
      not_isPrefix_append free (by simpa using once)
    have inside : ¬ first :: others <:+: before := fun inside =>
      free (inside.trans (List.suffix_cons c before).isInfix)
    rw [List.cons_append, piecesBetweenFrom, if_neg (mt List.isPrefixOf_iff_prefix.1 other),
      ih inside]
    simp

end

end MessageConformance.Text
