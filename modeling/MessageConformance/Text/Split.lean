/-!
# Splitting text

Pieces of a text between separators. `pieces` cuts at a single character,
`piecesBetween` at a marker of several.
-/

namespace MessageConformance.Text

/-- The runs of elements between the separators that satisfy `cut`: one more than
    there are separators. -/
def pieces {α : Type} (cut : α → Bool) : List α → List (List α)
  | [] => [[]]
  | c :: cs =>
    if cut c then [] :: pieces cut cs
    else match pieces cut cs with
      | [] => [[c]]
      | piece :: rest => (c :: piece) :: rest

/-- A piece holds no separator. -/
theorem not_cut_of_mem_pieces {α : Type} {cut : α → Bool} {cs piece : List α}
    (h : piece ∈ pieces cut cs) {c : α} (hc : c ∈ piece) : cut c = false := by
  induction cs generalizing piece with
  | nil => simp [pieces] at h; subst h; simp at hc
  | cons d cs ih =>
    simp only [pieces] at h
    split at h
    · rcases List.mem_cons.1 h with rfl | h
      · simp at hc
      · exact ih h hc
    · next hd =>
      split at h
      · simp only [List.mem_singleton] at h
        subst h
        simp only [List.mem_singleton] at hc
        subst hc
        simpa using hd
      · next first rest heq =>
        rcases List.mem_cons.1 h with rfl | h
        · rcases List.mem_cons.1 hc with rfl | hc
          · simpa using hd
          · exact ih (by simp [heq]) hc
        · exact ih (by simp [heq, h]) hc

/-- The texts between the occurrences of one character. -/
def split (separator : Char) (s : String) : List String :=
  (pieces (· == separator) s.toList).map String.ofList

/-- The texts between separators hold none. -/
theorem not_mem_of_mem_split {separator : Char} {s piece : String} (h : piece ∈ split separator s) :
    separator ∉ piece.toList := by
  obtain ⟨cs, hcs, rfl⟩ := List.mem_map.1 h
  intro hmem
  rw [String.toList_ofList] at hmem
  simpa using not_cut_of_mem_pieces hcs hmem

/-- Scans for a marker; `skip` characters of the last one found are still to pass
    over, `run` holds the current piece, latest character first. -/
def piecesBetweenFrom (marker : List Char) : Nat → List Char → List Char → List (List Char)
  | _, run, [] => [run.reverse]
  | skip + 1, run, _ :: cs => piecesBetweenFrom marker skip run cs
  | 0, run, c :: cs =>
    if marker.isPrefixOf (c :: cs) then
      run.reverse :: piecesBetweenFrom marker (marker.length - 1) [] cs
    else piecesBetweenFrom marker 0 (c :: run) cs

/-- The pieces between the occurrences of a non-empty marker, found from left to
    right without overlap. -/
def piecesBetween (marker : List Char) (cs : List Char) : List (List Char) :=
  piecesBetweenFrom marker 0 [] cs

/-- The parts before and after the first element that satisfies `cut`, if any. -/
def cutOnce {α : Type} (cut : α → Bool) (cs : List α) : Option (List α × List α) :=
  match cs.dropWhile (fun c => !cut c) with
  | [] => none
  | _ :: rest => some (cs.takeWhile (fun c => !cut c), rest)

/-- Whether one text occurs in another. -/
def occursIn (needle : List Char) : List Char → Bool
  | [] => needle.isEmpty
  | c :: cs => needle.isPrefixOf (c :: cs) || occursIn needle cs

end MessageConformance.Text
