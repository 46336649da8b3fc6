import MessageConformance.Proofs.Schema.Closures
import MessageConformance.Proofs.Schema.Drafts
import MessageConformance.Proofs.Store.Readings

/-!
# Documents as they are stored

`stored` is a document as it is put into a catalog, and `Scans` says which documents can be: the
document is in order, every include and redefinition leads somewhere, and there is no NUL byte
in what is stored. A document is rewritten to its stored form exactly if it scans
(`outcome_rewrite_eq_ok_iff`, `outcome_process_eq_ok_iff`). The documents of a group are
processed one after the other in an order of their own (`expand_eq_foldlM`), hence they are all
stored, each under its location, exactly if all of them scan (`outcome_expand_eq_ok_iff`), and
each reference of each document is then resolved once (`asked_expand`).
-/

namespace MessageConformance.Schema

open Resolver (Resolves)

/-! ## Parts -/

namespace Part

/-- A part as it is stored. -/
def stored (store : Store) (base : Location) : Part → Bytes
  | .copied token => token.written
  | .reference r =>
    r.written ((Resolver.resolve store r.target (some base)).value.map (·.location))

/-- The locations that are read for a part. -/
def asked (store : Store) (base : Location) : Part → List Location
  | .copied _ => []
  | .reference r => (Resolver.resolve store r.target (some base)).asked

/-- Unless a part imports another schema, it leads somewhere if it refers to one. -/
def Leads (store : Store) (base : Location) (part : Part) : Prop :=
  ∀ r, part = .reference r → r.kind ≠ .imports → ∃ l, Resolves store base r.target l

variable (store : Store) (base : Location) (part : Part)

theorem outcome_rewritePart_eq_ok_iff (made : Bytes × Option Resource) :
    (rewritePart store base part).outcome = .ok made ↔
      part.Leads store base ∧ made = (part.stored store base, part.found? store base) := by
  cases part with
  | copied token => simp [rewritePart, Leads, stored, found?, eq_comm (a := made)]
  | reference r =>
    have leads : Leads store base (.reference r) ↔
        (r.kind ≠ .imports → (Resolver.resolve store r.target (some base)).value.isSome) := by
      rw [Resolver.value_resolve_isSome_iff]
      simp [Leads]
    rw [leads, rewritePart, Loading.outcome_bind]
    simp only [Loading.outcome_lift, stored, found?]
    cases (Resolver.resolve store r.target (some base)).value with
    | some found => simp [eq_comm (a := made)]
    | none => by_cases imports : r.kind = .imports <;> simp [imports, eq_comm (a := made)]

theorem asked_rewritePart : (rewritePart store base part).asked = part.asked store base := by
  cases part with
  | copied token => rfl
  | reference r =>
    rw [rewritePart, Loading.asked_bind]
    simp only [Loading.asked_lift, Loading.outcome_lift, asked]
    split <;> exact List.append_nil _

end Part

/-! ## Documents -/

/-- A document as it is stored. -/
def stored (store : Store) (d : Resource) : Bytes :=
  ((Outline.of d.content).parts.map (Part.stored store d.location)).flatten

/-- The target namespace of a document. -/
def namespaceOf (content : Bytes) : Option String :=
  ((Scan.of content).tokens.foldl Draft.after {}).targetNamespace

/-- The locations that are read for the references of a document. -/
def askedFor (store : Store) (d : Resource) : List Location :=
  (Outline.of d.content).parts.flatMap (Part.asked store d.location)

/-- A document can be stored. -/
structure Scans (store : Store) (d : Resource) : Prop where
  tokenizes : Tokenizes d.content
  root : HasSchemaRoot d.content
  references : HasReadableReferences d.content
  resolves : ∀ r, Part.reference r ∈ (Outline.of d.content).parts → r.kind ≠ .imports →
    ∃ l, Resolves store d.location r.target l
  nulFree : 0 ∉ stored store d

variable {store : Store}

/-- A document is rewritten when it is in order and its includes and redefinitions lead
    somewhere. -/
theorem outcome_rewrite_eq_ok_iff (d : Resource) (rewritten : Rewritten) :
    (rewrite store d).outcome = .ok rewritten ↔
      ((Tokenizes d.content ∧ HasSchemaRoot d.content ∧ HasReadableReferences d.content) ∧
        ∀ part ∈ (Outline.of d.content).parts, part.Leads store d.location) ∧
      rewritten = ⟨stored store d, namespaceOf d.content, discovered store d⟩ := by
  have parts := Loading.outcome_mapM_eq_ok_iff_of_step
    (Part.outcome_rewritePart_eq_ok_iff store d.location) (Outline.of d.content).parts
  simp only [rewrite, Loading.outcome_bind_eq_ok_iff, parts]
  cases outlined : (Outline.of d.content).targetNamespace with
  | error fault =>
    have faulty := mt fun sound =>
      (targetNamespace_eq_ok_iff d.content (namespaceOf d.content)).2 ⟨sound, rfl⟩
    rw [outlined] at faulty
    simp [faulty (by simp)]
  | ok targetNamespace =>
    obtain ⟨sound, rfl⟩ := (targetNamespace_eq_ok_iff d.content targetNamespace).1 outlined
    have made : (⟨(((Outline.of d.content).parts.map fun part =>
          (part.stored store d.location, part.found? store d.location)).map (·.1)).flatten,
        namespaceOf d.content, ((Outline.of d.content).parts.map fun part =>
          (part.stored store d.location, part.found? store d.location)).filterMap (·.2)⟩ :
        Rewritten) = ⟨stored store d, namespaceOf d.content, discovered store d⟩ := by
      simp [stored, discovered, List.filterMap_map, Function.comp_def]
    constructor
    · rintro ⟨_, ⟨leads, rfl⟩, rest⟩
      exact ⟨⟨sound, leads⟩, (Except.ok.inj rest).symm.trans made⟩
    · rintro ⟨⟨-, leads⟩, rfl⟩
      exact ⟨_, ⟨leads, rfl⟩, congrArg Except.ok made⟩

theorem asked_rewrite {d : Resource} {rewritten : Rewritten}
    (made : (rewrite store d).outcome = .ok rewritten) :
    (rewrite store d).asked = askedFor store d := by
  rw [rewrite, Loading.outcome_bind_eq_ok_iff] at made
  obtain ⟨results, parts, -⟩ := made
  rw [rewrite, Loading.asked_bind_of_ok parts, Loading.asked_mapM parts, askedFor]
  simp only [Part.asked_rewritePart]
  cases (Outline.of d.content).targetNamespace <;> simp

/-- Rewrites a document and puts it into the catalog. -/
def process (store : Store) (closure : Closure) (d : Resource) : Loading SchemaFailure Closure := do
  let rewritten ← rewrite store d
  let catalog ← liftExcept (closure.catalog.insert d.location rewritten.content)
  return ⟨catalog, closure.namespaces ++ [(d.location, rewritten.targetNamespace)]⟩

/-- A closure with one more document. -/
def Closure.add (store : Store) (closure : Closure) (d : Resource) : Closure where
  catalog := ⟨Store.put d.location (stored store d) closure.catalog.documents⟩
  namespaces := closure.namespaces ++ [(d.location, namespaceOf d.content)]

/-- A document is processed when it scans. -/
theorem outcome_process_eq_ok_iff (closure closure' : Closure) (d : Resource) :
    (process store closure d).outcome = .ok closure' ↔
      Scans store d ∧ closure' = closure.add store d := by
  have scans : Scans store d ↔
      ((Tokenizes d.content ∧ HasSchemaRoot d.content ∧ HasReadableReferences d.content) ∧
        ∀ part ∈ (Outline.of d.content).parts, part.Leads store d.location) ∧
      0 ∉ stored store d := by
    constructor
    · rintro ⟨tokenizes, root, references, resolves, nulFree⟩
      exact ⟨⟨⟨tokenizes, root, references⟩,
        fun part member r equal => resolves r (equal ▸ member)⟩, nulFree⟩
    · rintro ⟨⟨⟨tokenizes, root, references⟩, leads⟩, nulFree⟩
      exact ⟨tokenizes, root, references, fun r member => leads _ member r rfl, nulFree⟩
  have inserted (catalog : Catalog) :
      closure.catalog.insert d.location (stored store d) = .ok catalog ↔
        0 ∉ stored store d ∧ catalog = (closure.add store d).catalog := by
    rw [Catalog.insert]
    by_cases nul : 0 ∈ stored store d <;> simp [nul, Closure.add, eq_comm (a := catalog)]
  simp only [process, scans, Loading.outcome_bind_eq_ok_iff, outcome_rewrite_eq_ok_iff,
    Loading.outcome_liftExcept, Loading.outcome_pure]
  constructor
  · rintro ⟨_, ⟨sound, rfl⟩, catalog, made, rest⟩
    obtain ⟨nulFree, rfl⟩ := (inserted catalog).1 made
    exact ⟨⟨sound, nulFree⟩, (Except.ok.inj rest).symm⟩
  · rintro ⟨⟨sound, nulFree⟩, rfl⟩
    exact ⟨_, ⟨sound, rfl⟩, _, (inserted _).2 ⟨nulFree, rfl⟩, rfl⟩

theorem asked_process {closure closure' : Closure} {d : Resource}
    (made : (process store closure d).outcome = .ok closure') :
    (process store closure d).asked = askedFor store d := by
  simp only [process, Loading.outcome_bind_eq_ok_iff] at made
  obtain ⟨r, rewritten, catalog, inserted, -⟩ := made
  rw [process, Loading.asked_bind_of_ok rewritten, asked_rewrite rewritten,
    Loading.asked_bind_of_ok inserted]
  simp

/-! ## Groups -/

/-- The documents of a group are processed in their order, each once. -/
theorem expand_eq_foldlM (closure : Closure) (f : Frontier) :
    expand store closure f = (f.order store).foldlM (process store) closure := by
  fun_induction Frontier.order store f generalizing closure with
  | case1 unseen => rw [expand]; rfl
  | case2 unseen d queue ih =>
    rw [expand, List.foldlM_cons, process, bind_assoc]
    refine Loading.bind_congr fun rewritten made => ?_
    obtain ⟨-, rfl⟩ := (outcome_rewrite_eq_ok_iff d rewritten).1 made
    rw [bind_assoc]
    refine Loading.bind_congr fun catalog _ => ?_
    rw [pure_bind]
    exact ih _

theorem outcome_foldlM_process_eq_ok_iff (ds : List Resource) (closure closure' : Closure) :
    (ds.foldlM (process store) closure).outcome = .ok closure' ↔
      (∀ d ∈ ds, Scans store d) ∧ closure' = ds.foldl (Closure.add store) closure := by
  induction ds generalizing closure with
  | nil => simp [eq_comm (a := closure')]
  | cons d ds ih =>
    simp only [List.foldlM_cons, Loading.outcome_bind_eq_ok_iff, outcome_process_eq_ok_iff, ih,
      List.forall_mem_cons, List.foldl_cons]
    constructor
    · rintro ⟨_, ⟨here, rfl⟩, later, rfl⟩
      exact ⟨⟨here, later⟩, rfl⟩
    · rintro ⟨⟨here, later⟩, rfl⟩
      exact ⟨_, ⟨here, rfl⟩, later, rfl⟩

theorem asked_foldlM_process {ds : List Resource} {closure closure' : Closure}
    (made : (ds.foldlM (process store) closure).outcome = .ok closure') :
    (ds.foldlM (process store) closure).asked = ds.flatMap (askedFor store) := by
  induction ds generalizing closure with
  | nil => rfl
  | cons d ds ih =>
    rw [List.foldlM_cons, Loading.outcome_bind_eq_ok_iff] at made
    obtain ⟨next, first, rest⟩ := made
    rw [List.foldlM_cons, Loading.asked_bind_of_ok first, asked_process first, ih rest,
      List.flatMap_cons]

/-- Documents at new locations come after those that are there. -/
theorem foldl_add (ds : List Resource) (closure : Closure)
    (distinct : (closure.catalog.documents.map (·.1) ++ ds.map (·.location)).Nodup) :
    ds.foldl (Closure.add store) closure =
      { catalog := ⟨closure.catalog.documents ++ ds.map fun d => (d.location, stored store d)⟩
        namespaces :=
          closure.namespaces ++ ds.map fun d => (d.location, namespaceOf d.content) } := by
  induction ds generalizing closure with
  | nil => simp
  | cons d ds ih =>
    have new : d.location ∉ closure.catalog.documents.map (·.1) := by
      intro old
      exact (List.nodup_append.1 distinct).2.2 _ old _ (List.mem_cons_self ..) rfl
    have added : closure.add store d =
        { catalog := ⟨closure.catalog.documents ++ [(d.location, stored store d)]⟩
          namespaces := closure.namespaces ++ [(d.location, namespaceOf d.content)] } := by
      rw [Closure.add, Store.put_of_new _ new]
    rw [List.foldl_cons, ih, added]
    · simp
    · simpa [added] using distinct

/-- What comes of a group whose documents are stored: each document under its location. -/
theorem outcome_expand_eq_ok_iff {f : Frontier} (distinct : f.places.Nodup) (closure : Closure) :
    (expand store {} f).outcome = .ok closure ↔
      (∀ d ∈ f.order store, Scans store d) ∧ closure =
        { catalog := ⟨(f.order store).map fun d => (d.location, stored store d)⟩
          namespaces := (f.order store).map fun d => (d.location, namespaceOf d.content) } := by
  rw [expand_eq_foldlM, outcome_foldlM_process_eq_ok_iff, foldl_add]
  · simp
  · simpa using (Frontier.nodup_order distinct).1

/-- Each reference of each document of a group is resolved once. -/
theorem asked_expand {f : Frontier} {closure : Closure}
    (made : (expand store {} f).outcome = .ok closure) :
    (expand store {} f).asked = (f.order store).flatMap (askedFor store) := by
  rw [expand_eq_foldlM] at made ⊢
  exact asked_foldlM_process made

end MessageConformance.Schema
