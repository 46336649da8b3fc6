import MessageConformance.Text.Blank

/-!
# White space around texts

What is left when the white space before and after a text is dropped neither begins nor ends with
any (`isTrimmed_trim`), and there is one such text (`IsTrimmed.unique`).
-/

namespace MessageConformance.Text

/-- A text has white space around another one, which neither begins nor ends with any. -/
def IsTrimmed (s trimmed : String) : Prop :=
  (∃ before after, s.toList = before ++ trimmed.toList ++ after ∧
    (∀ c ∈ before, isBlank c = true) ∧ ∀ c ∈ after, isBlank c = true) ∧
  (∀ c ∈ trimmed.toList.head?, isBlank c = false) ∧
    ∀ c ∈ trimmed.toList.getLast?, isBlank c = false

theorem dropStart_of_blank {before : List Char} (blank : ∀ c ∈ before, isBlank c = true)
    (rest : List Char) : dropStart (before ++ rest) = dropStart rest :=
  List.dropWhile_append_of_pos blank

theorem dropStart_eq_self {cs : List Char} (solid : ∀ c ∈ cs.head?, isBlank c = false) :
    dropStart cs = cs := by
  cases cs with
  | nil => rfl
  | cons c rest => exact List.dropWhile_cons_of_neg (by simp [solid c rfl])

theorem dropEnd_eq_reverse (cs : List Char) : dropEnd cs = (dropStart cs.reverse).reverse := rfl

theorem dropEnd_of_blank {after : List Char} (blank : ∀ c ∈ after, isBlank c = true)
    (rest : List Char) : dropEnd (rest ++ after) = dropEnd rest := by
  rw [dropEnd_eq_reverse, List.reverse_append,
    dropStart_of_blank fun c member => blank c (List.mem_reverse.1 member), ← dropEnd_eq_reverse]

theorem dropEnd_eq_self {cs : List Char} (solid : ∀ c ∈ cs.getLast?, isBlank c = false) :
    dropEnd cs = cs := by
  rw [dropEnd_eq_reverse, dropStart_eq_self (by simpa using solid), List.reverse_reverse]

theorem solid_of_head?_dropStart (cs : List Char) :
    ∀ c ∈ (dropStart cs).head?, isBlank c = false := by
  intro c head
  have first := List.head?_dropWhile_not isBlank cs
  rw [show cs.dropWhile isBlank = dropStart cs from rfl, head] at first
  simpa using first

/-- What is left of a text is trimmed of its white space. -/
theorem isTrimmed_trim (s : String) : IsTrimmed s (trim s) := by
  have kept : (trim s).toList = dropEnd (dropStart s.toList) := String.toList_ofList
  obtain ⟨after, ends, blankAfter⟩ : ∃ after, dropStart s.toList =
      dropEnd (dropStart s.toList) ++ after ∧ ∀ c ∈ after, isBlank c = true := by
    refine ⟨((dropStart s.toList).reverse.takeWhile isBlank).reverse, ?_, fun c member => ?_⟩
    · rw [dropEnd, ← List.reverse_append, List.takeWhile_append_dropWhile, List.reverse_reverse]
    · exact List.all_eq_true.1 List.all_takeWhile c (List.mem_reverse.1 member)
  refine ⟨⟨s.toList.takeWhile isBlank, after, ?_, fun c member => ?_, blankAfter⟩, ?_, ?_⟩
  · rw [kept, List.append_assoc, ← ends]
    exact List.takeWhile_append_dropWhile.symm
  · exact List.all_eq_true.1 List.all_takeWhile c member
  · rw [kept]
    intro c head
    refine solid_of_head?_dropStart s.toList c ?_
    rw [ends, List.head?_append, head]
    rfl
  · rw [kept, dropEnd_eq_reverse, List.getLast?_reverse]
    exact solid_of_head?_dropStart _

/-- A text is trimmed in one way. -/
theorem IsTrimmed.unique {s trimmed : String} (is : IsTrimmed s trimmed) : trimmed = trim s := by
  obtain ⟨⟨before, after, split, blankBefore, blankAfter⟩, first, last⟩ := is
  rw [trim, split, List.append_assoc, dropStart_of_blank blankBefore]
  by_cases empty : trimmed.toList = []
  · have nothing : dropStart after = [] := by
      rw [← List.append_nil after, dropStart_of_blank blankAfter]
      rfl
    rw [empty, List.nil_append, nothing, ← String.toList_inj, String.toList_ofList, empty]
    rfl
  · have begins : dropStart (trimmed.toList ++ after) = trimmed.toList ++ after := by
      refine dropStart_eq_self fun c head => first c ?_
      rw [List.head?_append, List.head?_eq_some_head empty] at head
      rwa [List.head?_eq_some_head empty]
    rw [begins, dropEnd_of_blank blankAfter, dropEnd_eq_self last, String.ofList_toList]

end MessageConformance.Text
