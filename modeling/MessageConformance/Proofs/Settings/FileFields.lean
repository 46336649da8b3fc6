import Mathlib.Data.List.Nodup
import MessageConformance.Proofs.Settings.Layers

/-!
# What a settings file gives

A value that is read from a settings file is a record of sections, or a list of them in order, and
so is each section of its fields. `Layer.ofValue` takes every setting from the one place where it
can stand. Decoding a value puts these settings over the default ones (`merge_decode?`): a field
changes its own setting and no other, and a name that stands twice is refused. Null is no mode and
no number of threads, and an empty list gives no extensions.
-/

namespace MessageConformance.Settings

open Data (Value)

/-! ## Sections -/

/-- The value of the field of a name in a section: in a record what stands under the name, in a list
    what stands where the field is. -/
def held? (fields : List Field) (name : String) : Value → Option Value
  | .record entries => entries.lookup name
  | .list items => ((fields.map (·.name)).zip items).lookup name
  | _ => none

variable {α : Type}

/-- All that a field changes of a part of the settings is to put there what it reads, if it reads
    anything. -/
def Field.Reads (kind : FileKind) (part : Settings → α) (read : Value → Option α) (f : Field) :
    Prop :=
  ∀ v s s', f.set kind v s = some s' → part s' = (read v).getD (part s)

/-- Of the fields of a section the one of a name reads a part of the settings, and the others leave
    it as it is. -/
structure Governs (fields : List Field) (kind : FileKind) (name : String) (part : Settings → α)
    (read : Value → Option α) : Prop where
  distinct : (fields.map (·.name)).Nodup
  named : name ∈ fields.map (·.name)
  reads : ∀ f ∈ fields, f.Reads kind part (if f.name = name then read else fun _ => none)

namespace Governs

variable {fields : List Field} {kind : FileKind} {name : String} {part : Settings → α}
  {read : Value → Option α} {s s' : Settings}

/-- A known name stands in a record once, so the first value under it is the one that is read. -/
theorem of_setByName (governs : Governs fields kind name part read)
    {entries : List (String × Value)} (set : setByName kind fields entries s = some s') :
    part s' = ((entries.lookup name).bind read).getD (part s) := by
  induction entries generalizing s with
  | nil =>
    obtain rfl := Option.some.inj set
    rfl
  | cons entry entries ih =>
    obtain ⟨other, v⟩ := entry
    rw [setByName] at set
    cases found : fields.find? (·.name = other) with
    | none =>
      have unknown : (name == other) = false := by
        obtain ⟨f, member, rfl⟩ := List.mem_map.1 governs.named
        simpa using List.find?_eq_none.1 found f member
      rw [found] at set
      rw [List.lookup_cons, unknown]
      exact ih set
    | some f =>
      obtain rfl : f.name = other := by simpa using List.find?_some found
      simp only [found] at set
      split at set
      · cases set
      next once =>
      obtain ⟨next, first, rest⟩ := Option.bind_eq_some_iff.1 set
      have changed := governs.reads f (List.mem_of_find?_eq_some found) v s next first
      rw [List.lookup_cons]
      by_cases here : f.name = name
      · subst here
        have absent : entries.lookup f.name = none := by
          refine List.lookup_eq_none_iff.2 fun entry member => ?_
          have other : entry.1 ≠ f.name := fun same =>
            once (List.any_eq_true.2 ⟨entry, member, decide_eq_true same⟩)
          simpa using Ne.symm other
        rw [ih rest, absent]
        simpa using changed
      · have other : (name == f.name) = false := by simpa using Ne.symm here
        rw [other, ih rest, changed]
        simp [here]

theorem of_setInOrder (distinct : (fields.map (·.name)).Nodup)
    (reads : ∀ f ∈ fields, f.Reads kind part (if f.name = name then read else fun _ => none))
    {items : List Value} (set : setInOrder kind fields items s = some s') :
    part s' = ((((fields.map (·.name)).zip items).lookup name).bind read).getD (part s) := by
  induction fields generalizing s items with
  | nil =>
    cases items with
    | nil =>
      obtain rfl := Option.some.inj set
      rfl
    | cons v vs =>
      obtain ⟨-, rfl⟩ : kind = .toml ∧ s = s' := by simpa [setInOrder] using set
      rfl
  | cons f fields ih =>
    rw [List.map_cons, List.nodup_cons] at distinct
    rw [List.forall_mem_cons] at reads
    cases items with
    | nil =>
      obtain rfl := Option.some.inj set
      rfl
    | cons v vs =>
      rw [setInOrder] at set
      obtain ⟨next, first, rest⟩ := Option.bind_eq_some_iff.1 set
      have changed := reads.1 v s next first
      rw [ih distinct.2 reads.2 rest, List.map_cons, List.zip_cons_cons, List.lookup_cons]
      by_cases here : f.name = name
      · subst here
        have absent : ((fields.map (·.name)).zip vs).lookup f.name = none := by
          refine List.lookup_eq_none_iff.2 fun entry member => ?_
          have known := (List.of_mem_zip member).1
          simpa using fun same : f.name = entry.1 => distinct.1 (same ▸ known)
        rw [absent]
        simpa using changed
      · have other : (name == f.name) = false := by simpa using Ne.symm here
        rw [other, changed]
        simp [here]

/-- What a section changes of a part of the settings is said by the field that governs the part. -/
theorem of_setSection (governs : Governs fields kind name part read) {v : Value}
    (set : setSection fields kind v s = some s') :
    part s' = ((held? fields name v).bind read).getD (part s) := by
  cases v with
  | record entries => exact governs.of_setByName set
  | list items => exact of_setInOrder governs.distinct governs.reads set
  | _ => cases set

end Governs

/-! ## Files -/

/-- The sections by name, with their fields. -/
def sectionFields : List (String × List Field) := [
  ("validation", validationFields), ("schemas", schemaFields), ("output", outputFields),
  ("files", fileFields)]

theorem sections_eq :
    sections = sectionFields.map fun (name, fields) => ⟨name, setSection fields⟩ := rfl

/-- The value of the field of a name in a section of a file. -/
def stated? (v : Value) (group : String) (fields : List Field) (name : String) : Option Value :=
  (held? sections group v).bind (held? fields name)

/-- A part of the settings that is read by one field of one section, and by no other field, is what
    that field reads, or the default. -/
theorem decode?_part (group : String) (fields : List Field) (name : String) {kind : FileKind}
    (part : Settings → α) (read : Value → Option α) {v : Value} {s : Settings}
    (decoded : decode? kind v = some s)
    (known : (group, fields) ∈ sectionFields := by simp [sectionFields])
    (named : name ∈ fields.map (·.name) := by decide)
    (reads : ∀ g ∈ sectionFields, ∀ f ∈ g.2,
      f.Reads kind part (if g.1 = group ∧ f.name = name then read else fun _ => none) := by
        simp [sectionFields, validationFields, schemaFields, outputFields, fileFields, Field.Reads]
        grind) :
    part s = ((stated? v group fields name).bind read).getD (part default) := by
  have distinct : ∀ g ∈ sectionFields, (g.2.map (·.name)).Nodup := by decide
  have some : ∀ g ∈ sectionFields, g.2 ≠ [] := by decide
  have groups : (sectionFields.map (·.1)).Nodup := by decide
  have governs : Governs sections kind group part fun inner =>
      (held? fields name inner).bind read := by
    refine ⟨by decide, List.mem_map.2 ⟨⟨group, setSection fields⟩, ?_, rfl⟩, ?_⟩
    · exact sections_eq ▸ List.mem_map_of_mem known
    rw [sections_eq, List.forall_mem_map]
    rintro ⟨other, others⟩ member v s s' set
    have own := reads _ member
    by_cases here : other = group
    · subst here
      obtain ⟨-, rfl⟩ : (other, others) = (other, fields) :=
        List.inj_on_of_nodup_map groups member known rfl
      have inner : Governs fields kind name part read :=
        ⟨distinct _ member, named, by simpa using own⟩
      simpa using inner.of_setSection set
    · obtain ⟨f, first⟩ := List.exists_mem_of_ne_nil _ (some _ member)
      have inner : Governs others kind f.name part fun _ => none :=
        ⟨distinct _ member, List.mem_map_of_mem first, by simpa [here] using own⟩
      have kept := inner.of_setSection set
      simp only [here, ↓reduceIte]
      simpa using kept
  rw [governs.of_setSection decoded, stated?, Option.bind_assoc]

/-- What a settings file gives that says a value. -/
def Layer.ofValue (kind : FileKind) (v : Value) : Layer where
  mode := (stated? v "validation" validationFields "mode").bind Value.text?
  context := (stated? v "validation" validationFields "context").bind (choice? Context.ofName? kind)
  isReceipt := (stated? v "validation" validationFields "receipt").bind Value.boolean?
  threads := (stated? v "validation" validationFields "threads").bind word?
  timeout := (stated? v "validation" validationFields "timeout_seconds").bind word?
  schemaDirectory := (stated? v "schemas" schemaFields "directory").bind Value.text?
  format := (stated? v "output" outputFields "format").bind (choice? OutputFormat.ofName? kind)
  verbose := (stated? v "output" outputFields "verbose").bind Value.boolean?
  quiet := (stated? v "output" outputFields "quiet").bind Value.boolean?
  extensions := ((stated? v "files" fileFields "extensions").bind texts?).filter (· ≠ [])

theorem getD_bind_orNull (read : Value → Option α) (nothing : read .null = none)
    (o : Option Value) : (o.bind (orNull read)).getD none = o.bind read := by
  have joined (o : Option α) : (o.map some).getD none = o := by cases o <;> rfl
  cases o with
  | none => rfl
  | some v =>
    cases v with
    | null => exact nothing.symm
    | _ => exact joined _

theorem getD_filter_ne_nil (o : Option (List α)) (base : List α) :
    (if (o.getD base).isEmpty then base else o.getD base) = (o.filter (· ≠ [])).getD base := by
  cases o with
  | none => simp
  | some items => cases items <;> rfl

/-- Decoding puts what a file gives over the default settings. -/
theorem merge_decode? {kind : FileKind} {v : Value} {s : Settings}
    (decoded : decode? kind v = some s) : default.merge s = (Layer.ofValue kind v).on default := by
  have mode : s.mode = _ :=
    decode?_part "validation" validationFields "mode" (·.mode) (orNull Value.text?) decoded
  have context : s.context = _ :=
    decode?_part "validation" validationFields "context" (·.context)
      (choice? Context.ofName? kind) decoded
  have isReceipt : s.isReceipt = _ :=
    decode?_part "validation" validationFields "receipt" (·.isReceipt) Value.boolean? decoded
  have threads : s.threads = _ :=
    decode?_part "validation" validationFields "threads" (·.threads) (orNull word?) decoded
  have timeout : s.timeout = _ :=
    decode?_part "validation" validationFields "timeout_seconds" (·.timeout) word? decoded
  have schemaDirectory : s.schemaDirectory = _ :=
    decode?_part "schemas" schemaFields "directory" (·.schemaDirectory) Value.text? decoded
  have format : s.format = _ :=
    decode?_part "output" outputFields "format" (·.format)
      (choice? OutputFormat.ofName? kind) decoded
  have verbose : s.verbose = _ :=
    decode?_part "output" outputFields "verbose" (·.verbose) Value.boolean? decoded
  have quiet : s.quiet = _ :=
    decode?_part "output" outputFields "quiet" (·.quiet) Value.boolean? decoded
  have extensions : s.extensions = _ :=
    decode?_part "files" fileFields "extensions" (·.extensions) texts? decoded
  have modes : s.mode.or default.mode = (Layer.ofValue kind v).mode.or default.mode := by
    rw [mode]
    exact congrArg (·.or none) (getD_bind_orNull Value.text? rfl _)
  have numbers : s.threads.or default.threads =
      (Layer.ofValue kind v).threads.or default.threads := by
    rw [threads]
    exact congrArg (·.or none) (getD_bind_orNull word? rfl _)
  have lists : (if s.extensions.isEmpty then default.extensions else s.extensions) =
      (Layer.ofValue kind v).extensions.getD default.extensions := by
    rw [extensions]
    exact getD_filter_ne_nil _ _
  rw [merge, modes, numbers, lists, context, isReceipt, timeout, schemaDirectory, format, verbose,
    quiet]
  rfl

end MessageConformance.Settings
