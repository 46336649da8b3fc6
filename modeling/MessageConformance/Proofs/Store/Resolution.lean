import MessageConformance.Resolver

/-!
# Which documents are found

A reference stands for the first of its candidate locations that can be read
(`value_resolve_eq_some_iff`), and a group member for the document at its own path
(`outcome_load_eq_ok_iff`). All that is found is in the store, at its location
(`mem_documents_of_document?`).
-/

namespace MessageConformance

namespace Store

theorem document?_eq_some_iff (store : Store) (location : Location) (content : Bytes) :
    store.document? location = some content ↔ store.look location = .found content := by
  unfold document?
  cases store.look location <;> simp

theorem mem_documents_of_document? {store : Store} {location : Location} {content : Bytes}
    (found : store.document? location = some content) :
    location ∈ store.documents.map (·.1) := by
  rw [document?_eq_some_iff] at found
  unfold look at found
  split at found
  · simp at found
  · cases entry : store.documents.lookup location with
    | none => simp [entry] at found
    | some _ =>
      have member := List.lookup_eq_some_iff.1 entry
      obtain ⟨before, after, shape, -⟩ := member
      simp [shape]

end Store

/-- The document is in the store, at its location. -/
def Resource.IsIn (r : Resource) (store : Store) : Prop :=
  store.document? r.location = some r.content

instance (r : Resource) (store : Store) : Decidable (r.IsIn store) :=
  inferInstanceAs (Decidable (_ = _))

/-- There is one document at a location. -/
theorem Resource.IsIn.eq_of_location {store : Store} {r s : Resource} (first : r.IsIn store)
    (second : s.IsIn store) (same : r.location = s.location) : r = s := by
  have content : some r.content = some s.content := by
    rw [← first, ← second, same]
  cases r; cases s; simp_all

namespace Resolver

/-- A reference in the document at `base` stands for a location: it is the first candidate that
    can be read. -/
def Resolves (store : Store) (base : Location) (reference : String) (found : Location) : Prop :=
  (store.document? found).isSome ∧
    ∃ before after, candidates reference (some base) = before ++ found :: after ∧
      ∀ l ∈ before, store.document? l = none

/-- The first location that can be read is taken, with the document there. -/
theorem value_firstReadable (store : Store) (locations : List Location) :
    (firstReadable store locations).value =
      locations.findSome? fun l => (store.document? l).map (Resource.mk l) := by
  induction locations with
  | nil => rfl
  | cons l rest ih =>
    rw [firstReadable, Reading.value_bind, List.findSome?_cons, ← ih, Store.document?]
    simp only [Store.read]
    cases store.look l <;> rfl

/-- Locations are read in order, up to one that can be read. -/
theorem asked_firstReadable_initial (store : Store) (locations : List Location) :
    (firstReadable store locations).asked <+: locations := by
  induction locations with
  | nil => exact List.nil_prefix
  | cons l rest ih =>
    rw [firstReadable, Reading.asked_bind]
    simp only [Store.read]
    cases store.look l with
    | found _ => exact List.cons_prefix_cons.2 ⟨rfl, List.nil_prefix⟩
    | missing | broken _ => exact List.cons_prefix_cons.2 ⟨rfl, ih⟩

/-- A reference leads to the first candidate that can be read. -/
theorem value_resolve_eq_some_iff (store : Store) (base : Location) (reference : String)
    (r : Resource) :
    (resolve store reference (some base)).value = some r ↔
      Resolves store base reference r.location ∧ r.IsIn store := by
  rw [resolve, value_firstReadable, List.findSome?_eq_some_iff]
  constructor
  · rintro ⟨before, l, after, shape, found, passed⟩
    obtain ⟨content, here, rfl⟩ := Option.map_eq_some_iff.1 found
    have isIn : Resource.IsIn ⟨l, content⟩ store := here
    exact ⟨⟨by simp [here], before, after, shape, by simpa using passed⟩, isIn⟩
  · rintro ⟨⟨-, before, after, shape, passed⟩, isIn⟩
    refine ⟨before, r.location, after, shape, ?_, by simpa using passed⟩
    rw [show store.document? r.location = some r.content from isIn]
    rfl

theorem value_resolve_isSome_iff (store : Store) (base : Location) (reference : String) :
    (resolve store reference (some base)).value.isSome ↔
      ∃ found, Resolves store base reference found := by
  rw [Option.isSome_iff_exists]
  constructor
  · rintro ⟨r, found⟩
    exact ⟨r.location, ((value_resolve_eq_some_iff store base reference r).1 found).1⟩
  · rintro ⟨l, resolves⟩
    obtain ⟨content, here⟩ := Option.isSome_iff_exists.1 resolves.1
    exact ⟨⟨l, content⟩, (value_resolve_eq_some_iff store base reference _).2 ⟨resolves, here⟩⟩

/-! ## Members -/

/-- A path names a document of the store. -/
def Names (store : Store) (path : String) (r : Resource) : Prop :=
  Location.parse? path = some r.location ∧ r.IsIn store

instance (store : Store) (path : String) (r : Resource) : Decidable (Names store path r) :=
  inferInstanceAs (Decidable (_ ∧ _))

/-- A member is read when its path names a document. -/
theorem outcome_load_eq_ok_iff (store : Store) (path : String) (r : Resource) :
    (load store path).outcome = .ok r ↔ Names store path r := by
  unfold load Names Resource.IsIn
  cases Location.parse? path with
  | none => simp
  | some l =>
    simp only [Loading.outcome_bind, Loading.outcome_lift, Store.read, Store.document?,
      Option.some.injEq]
    cases looked : store.look l with
    | found content =>
      constructor
      · intro made
        obtain rfl := Except.ok.inj made
        simp [looked]
      · rintro ⟨rfl, isIn⟩
        simp [looked] at isIn
        cases r; simp_all
    | missing =>
      simp only [Loading.outcome_throw, reduceCtorEq, false_iff, not_and]
      rintro rfl
      simp [looked]
    | broken reason =>
      simp only [Loading.outcome_throw, reduceCtorEq, false_iff, not_and]
      rintro rfl
      simp [looked]

theorem asked_load {store : Store} {path : String} {l : Location}
    (parsed : Location.parse? path = some l) : (load store path).asked = [l] := by
  rw [load, parsed, Loading.asked_bind]
  simp only [Loading.asked_lift, Loading.outcome_lift, Store.read]
  cases store.look l <;> rfl

/-- Nothing is read but the location that the path of a member names. -/
theorem parse?_of_mem_asked_load {store : Store} {path : String} {l : Location}
    (asked : l ∈ (load store path).asked) : Location.parse? path = some l := by
  cases parsed : Location.parse? path with
  | none => simp [load, parsed] at asked
  | some l' =>
    rw [asked_load parsed] at asked
    rw [List.mem_singleton.1 asked]

end Resolver
end MessageConformance
