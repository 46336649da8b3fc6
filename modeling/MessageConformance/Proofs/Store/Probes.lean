import MessageConformance.Proofs.Store.Paths
import MessageConformance.Proofs.Store.Resolution
import MessageConformance.Proofs.Text.Trimming

/-!
# Looking for a reference

A reference is looked for without the white space around it (`Text.isTrimmed_trim`,
`Text.IsTrimmed.unique`). Its candidates are read one after the other up to the first that can be
read (`upTo`, `Resolver.asked_firstReadable`), and whether the others are missing or unreadable
does not matter (`Resolver.firstReadable_congr`). `Resolver.resolve_probes` puts this together
with the paths of the candidates.
-/

namespace MessageConformance

/-! ## Stopping -/

/-- The items up to the first at which one stops, and that one. -/
def upTo {α : Type} (stops : α → Prop) [DecidablePred stops] : List α → List α
  | [] => []
  | a :: rest => if stops a then [a] else a :: upTo stops rest

section

variable {α : Type} {stops : α → Prop} [DecidablePred stops]

theorem upTo_append_cons {before : List α} {a : α} (passed : ∀ b ∈ before, ¬ stops b)
    (here : stops a) (after : List α) : upTo stops (before ++ a :: after) = before ++ [a] := by
  induction before with
  | nil => rw [List.nil_append, upTo, if_pos here, List.nil_append]
  | cons b before ih =>
    rw [List.forall_mem_cons] at passed
    rw [List.cons_append, upTo, if_neg passed.1, ih passed.2, List.cons_append]

end

/-! ## Candidates -/

/-- A document can be read at a location. -/
def Store.Holds (store : Store) (l : Location) : Prop := (store.document? l).isSome = true

instance (store : Store) : DecidablePred store.Holds := fun _ =>
  inferInstanceAs (Decidable (_ = true))

/-- A location where there is nothing to read may as well be unreadable. -/
theorem Store.document?_deny {store : Store} {l : Location} (absent : store.document? l = none)
    (reason : String) (other : Location) :
    (store.deny l reason).document? other = store.document? other := by
  by_cases same : other = l
  · subst same
    rw [absent]
    simp [document?, look, deny, lookup_put]
  · simp [document?, look, deny, lookup_put, same]

namespace Resolver

/-- Locations are read up to the first that can be. -/
theorem asked_firstReadable (store : Store) (locations : List Location) :
    (firstReadable store locations).asked = upTo store.Holds locations := by
  induction locations with
  | nil => rfl
  | cons l rest ih =>
    rw [firstReadable, Reading.asked_bind, upTo]
    simp only [Store.read]
    cases looked : store.look l with
    | found content =>
      have here : store.Holds l := by simp [Store.Holds, Store.document?, looked]
      rw [if_pos here]
      rfl
    | missing | broken _ =>
      have absent : ¬ store.Holds l := by simp [Store.Holds, Store.document?, looked]
      rw [if_neg absent, ih]
      rfl

theorem upTo_congr_store {store other : Store}
    (same : ∀ l, other.document? l = store.document? l) (locations : List Location) :
    upTo other.Holds locations = upTo store.Holds locations := by
  induction locations with
  | nil => rfl
  | cons l rest ih =>
    have here : other.Holds l ↔ store.Holds l := by rw [Store.Holds, same l, Store.Holds]
    simp only [upTo, here, ih]

/-- Only what can be read of a store matters. -/
theorem firstReadable_congr {store other : Store}
    (same : ∀ l, other.document? l = store.document? l) (locations : List Location) :
    firstReadable other locations = firstReadable store locations := by
  apply Reading.ext
  · simp only [value_firstReadable, same]
  · rw [asked_firstReadable, asked_firstReadable, upTo_congr_store same]

theorem isRelative_iff (reference : String) :
    isRelative reference = true ↔
      "./".toList <+: reference.toList ∨ "../".toList <+: reference.toList := by
  rw [isRelative, Bool.or_eq_true, List.isPrefixOf_iff_prefix, List.isPrefixOf_iff_prefix]
  exact Iff.rfl

/-- A reference is looked for without the white space around it: if it begins with `./` or `../`,
    first beside the document it stands in, and then below each of four directories. The paths
    that name locations are its candidates. They are read in order up to the first that can be
    read, which is the answer, and all of them if there is none. It makes no difference which of
    the others are missing and which cannot be read. -/
theorem resolve_probes (store : Store) (reference : String) (base : Option Location) :
    ∃ r paths candidates,
      (Text.IsTrimmed reference r ∧ ∀ other, Text.IsTrimmed reference other → other = r) ∧
      paths = (if r = "" then []
        else (if "./".toList <+: r.toList ∨ "../".toList <+: r.toList
            then base.toList.map fun b => b.besidePath r else []) ++
          [r, "ebxml/" ++ r, "w3/" ++ r, "xmlsoap/" ++ r]) ∧
      candidates = paths.filterMap Location.parse? ∧
      (resolve store reference base).value =
        candidates.findSome? (fun l => (store.document? l).map (Resource.mk l)) ∧
      (resolve store reference base).asked = upTo store.Holds candidates ∧
      ∀ other : Store, (∀ l, other.document? l = store.document? l) →
        resolve other reference base = resolve store reference base := by
  refine ⟨Text.trim reference, candidatePaths reference base, candidates reference base,
    ⟨Text.isTrimmed_trim reference, fun _ trimmed => trimmed.unique⟩, ?_,
    candidates_eq_filterMap reference base, value_firstReadable store _,
    asked_firstReadable store _,
    fun other same => firstReadable_congr same _⟩
  simp only [candidatePaths, isRelative_iff]
  rfl

/-- A document beside which another one is looked for. -/
def headerLocation : Location := ⟨["ebxml", "header.xsd"], by decide, by decide⟩

/-- The place of the document that is looked for. -/
def signatureLocation : Location := ⟨["w3", "dsig.xsd"], by decide, by decide⟩

def signatureStore : Store := Store.empty.insert signatureLocation (Bytes.ascii "<a/>")

/-- The place beside the header, where there is nothing. -/
def besideHeader : Location := ⟨["ebxml", "dsig.xsd"], by decide, by decide⟩

/-- A place that comes up twice is read twice, and it makes no difference whether it is missing or
    cannot be read. -/
theorem resolve_unreadableBeside :
    (resolve signatureStore "\t./dsig.xsd " (some headerLocation)).value =
      some ⟨signatureLocation, Bytes.ascii "<a/>"⟩ ∧
    (resolve signatureStore "\t./dsig.xsd " (some headerLocation)).asked.map Location.text =
      ["ebxml/dsig.xsd", "dsig.xsd", "ebxml/dsig.xsd", "w3/dsig.xsd"] ∧
    signatureStore.document? besideHeader = none ∧
    resolve (signatureStore.deny besideHeader "denied") "\t./dsig.xsd " (some headerLocation) =
      resolve signatureStore "\t./dsig.xsd " (some headerLocation) := by
  have absent : signatureStore.document? besideHeader = none := by decide +kernel
  obtain ⟨r, paths, candidates, -, -, -, -, -, alike⟩ :=
    resolve_probes signatureStore "\t./dsig.xsd " (some headerLocation)
  exact ⟨by decide +kernel, by decide +kernel, absent,
    alike _ (Store.document?_deny absent "denied")⟩

end Resolver
end MessageConformance
