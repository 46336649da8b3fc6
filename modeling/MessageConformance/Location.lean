import MessageConformance.Text.Split

/-!
# Locations

The place of a document in a store: a non-empty sequence of plain segments. Every
way to make one ends in `collapse`, which fails as soon as a path climbs above the
root, so a location never leads out of its store (`Location.plain`).
-/

namespace MessageConformance

/-- A segment that names an entry of a directory. -/
def IsPlain (segment : String) : Prop :=
  segment ≠ "" ∧ segment ≠ "." ∧ segment ≠ ".." ∧ '/' ∉ segment.toList

instance (segment : String) : Decidable (IsPlain segment) := by
  unfold IsPlain; infer_instance

/-- The place of a document, as segments below the root of a store. -/
structure Location where
  segments : List String
  nonempty : segments ≠ []
  plain : ∀ segment ∈ segments, IsPlain segment
  deriving DecidableEq

namespace Location

/-- Walks along segments from `above`, the segments walked so far, latest first: empty
    ones and `.` stay, `..` goes back, and going back from the root fails. -/
def collapse (above : List String) : List String → Option (List String)
  | [] => some above.reverse
  | segment :: rest =>
    if segment = "" ∨ segment = "." then collapse above rest
    else if segment = ".." then
      match above with
      | [] => none
      | _ :: parent => collapse parent rest
    else collapse (segment :: above) rest

theorem collapse_plain {above segments result : List String}
    (h : collapse above segments = some result) (habove : ∀ s ∈ above, IsPlain s)
    (hsegments : ∀ s ∈ segments, '/' ∉ s.toList) : ∀ s ∈ result, IsPlain s := by
  induction segments generalizing above with
  | nil =>
    simp only [collapse, Option.some.injEq] at h
    subst h
    simpa using habove
  | cons segment rest ih =>
    have hrest : ∀ s ∈ rest, '/' ∉ s.toList := fun s hs => hsegments s (by simp [hs])
    simp only [collapse] at h
    split at h
    · exact ih h habove hrest
    · next hstay =>
      split at h
      · split at h
        · simp at h
        · exact ih h (fun s hs => habove s (by simp [hs])) hrest
      · next hback =>
        refine ih h (fun s hs => ?_) hrest
        rcases List.mem_cons.1 hs with rfl | hs
        · exact ⟨fun e => hstay (.inl e), fun e => hstay (.inr e), hback, hsegments s (by simp)⟩
        · exact habove s hs

/-- The location that some segments lead to from `above`; `none` when they climb above
    the root or end there. -/
def walk? (above : List String) (habove : ∀ s ∈ above, IsPlain s) (path : String) :
    Option Location :=
  match h : collapse above (Text.split '/' path) with
  | none => none
  | some segments =>
    if hne : segments = [] then none
    else some ⟨segments, hne, collapse_plain h habove fun _ hs => Text.not_mem_of_mem_split hs⟩

/-- The location that a path names, slashes at its ends and repeated ones aside. -/
def parse? (path : String) : Option Location := walk? [] (by simp) path

/-- The segments of the directory that holds a location. -/
def directory (base : Location) : List String := base.segments.dropLast

/-- The location that a reference names as seen from the document at `base`. -/
def resolve? (base : Location) (reference : String) : Option Location :=
  walk? base.directory.reverse
    (fun s hs => base.plain s (List.dropLast_subset _ (List.mem_reverse.1 hs))) reference

def text (l : Location) : String := "/".intercalate l.segments

end Location
end MessageConformance
