import MessageConformance.Proofs.Schema.Stored
import MessageConformance.Proofs.Text.AsciiBytes

/-!
# Target namespaces without NUL

A document that can be stored has no NUL byte in its root tag and in its document type, for
these are stored as they are. The target namespace is read from nothing else, so there is no NUL
in it (`nul_not_mem_namespaceOf`).
-/

namespace MessageConformance

/-! ## Pieces of text -/

namespace Text

theorem mem_of_mem_piecesBetweenFrom {marker : List Char} {skip : Nat} {run cs piece : List Char}
    (listed : piece ∈ piecesBetweenFrom marker skip run cs) {c : Char} (member : c ∈ piece) :
    c ∈ run ∨ c ∈ cs := by
  fun_induction piecesBetweenFrom marker skip run cs with
  | case1 skip run => simp_all
  | case2 skip run c' cs ih => grind
  | case3 run c' cs found ih => grind
  | case4 run c' cs other ih => grind

theorem mem_of_mem_piecesBetween {marker cs piece : List Char}
    (listed : piece ∈ piecesBetween marker cs) {c : Char} (member : c ∈ piece) : c ∈ cs := by
  simpa using mem_of_mem_piecesBetweenFrom listed member

theorem mem_of_cutOnce {α : Type} {cut : α → Bool} {cs before after : List α}
    (found : cutOnce cut cs = some (before, after)) :
    (∀ c ∈ before, c ∈ cs) ∧ ∀ c ∈ after, c ∈ cs := by
  unfold cutOnce at found
  cases rest : cs.dropWhile (fun c => !cut c) with
  | nil => simp [rest] at found
  | cons first others =>
    simp only [rest, Option.some.injEq, Prod.mk.injEq] at found
    obtain ⟨rfl, rfl⟩ := found
    refine ⟨fun c member => (List.takeWhile_prefix _).subset member, fun c member => ?_⟩
    refine (List.dropWhile_suffix fun c => !cut c).subset ?_
    rw [rest]
    exact List.mem_cons_of_mem _ member

theorem mem_of_mem_dropStart {cs : List Char} {c : Char} (member : c ∈ dropStart cs) : c ∈ cs :=
  (List.dropWhile_suffix isBlank).subset member

end Text

namespace Schema

open Bytes

/-! ## Entities -/

theorem mem_of_mem_quoted? {cs value : List Char} (found : quoted? cs = some value) {c : Char}
    (member : c ∈ value) : c ∈ cs := by
  cases cs with
  | nil => simp [quoted?] at found
  | cons mark rest =>
    simp only [quoted?] at found
    split at found
    · obtain ⟨⟨before, after⟩, cut, rfl⟩ := Option.map_eq_some_iff.1 found
      exact List.mem_cons_of_mem mark ((Text.mem_of_cutOnce cut).1 c member)
    · simp at found

theorem mem_of_mem_declaration? {cs : List Char} {name value : String}
    (found : declaration? cs = some (name, value)) {c : Char} (member : c ∈ value.toList) :
    c ∈ cs := by
  simp only [declaration?] at found
  split at found
  · simp at found
  · simp only [Option.bind_eq_bind, Option.bind_eq_some_iff, Option.pure_def,
      Option.some.injEq, Prod.mk.injEq] at found
    obtain ⟨⟨before, after⟩, cut, quoted, read, -, rfl⟩ := found
    rw [String.toList_ofList] at member
    have inAfter := Text.mem_of_mem_dropStart (mem_of_mem_quoted? read member)
    exact Text.mem_of_mem_dropStart ((Text.mem_of_cutOnce cut).2 c inAfter)

/-- No entity has a NUL in its value. -/
def Entities.NulFree (entities : Entities) : Prop := ∀ e ∈ entities, '\x00' ∉ e.2.toList

theorem Entities.nulFree_of {documentType : List Char} (nulFree : '\x00' ∉ documentType) :
    (Entities.of documentType).NulFree := by
  intro e member nul
  obtain ⟨piece, listed, found⟩ := List.mem_filterMap.1 member
  have inPiece := mem_of_mem_declaration? found nul
  exact nulFree (Text.mem_of_mem_piecesBetween (List.drop_subset 1 _ listed) inPiece)

variable {entities : Entities}

theorem nul_not_mem_reference? (clean : entities.NulFree) {name value : List Char}
    (found : reference? entities name = some value) : '\x00' ∉ value := by
  unfold reference? at found
  split at found
  · obtain ⟨n, -, read⟩ := Option.bind_eq_some_iff.1 found
    split at read
    · next scalar =>
      obtain rfl := Option.some.inj read
      have other : n ≠ ('\x00').toNat := scalar.1
      simpa using (ofNat_ne scalar.2 other).symm
    · simp at read
  · obtain ⟨text, known, rfl⟩ := Option.map_eq_some_iff.1 found
    obtain ⟨before, after, shape, -⟩ := List.lookup_eq_some_iff.1 known
    exact clean (String.ofList name, text) (by simp [shape])

theorem nul_not_mem_expandFrom (clean : entities.NulFree) {name? : Option (List Char)}
    {cs expanded : List Char} (nulFree : '\x00' ∉ cs)
    (made : expandFrom entities name? cs = some expanded) : '\x00' ∉ expanded := by
  induction cs generalizing name? expanded with
  | nil => cases name? <;> simp_all [expandFrom]
  | cons c cs ih =>
    rw [List.mem_cons, not_or] at nulFree
    obtain ⟨other, nulFree⟩ := nulFree
    cases name? with
    | none =>
      simp only [expandFrom] at made
      split at made
      · exact ih nulFree made
      · obtain ⟨rest, later, rfl⟩ := Option.map_eq_some_iff.1 made
        rw [List.mem_cons, not_or]
        exact ⟨other, ih nulFree later⟩
    | some name =>
      simp only [expandFrom] at made
      split_ifs at made
      · obtain ⟨value, referred, rest⟩ := Option.bind_eq_some_iff.1 made
        obtain ⟨rest, later, rfl⟩ := Option.map_eq_some_iff.1 rest
        rw [List.mem_append, not_or]
        exact ⟨nul_not_mem_reference? clean referred, ih nulFree later⟩
      · exact ih nulFree made

/-- A value without NUL is expanded to a text without NUL. -/
theorem nul_not_mem_expand? (clean : entities.NulFree) {value : Bytes} {text : String}
    (nulFree : 0 ∉ value) (made : expand? entities value = some text) : '\x00' ∉ text.toList := by
  obtain ⟨s, read, expansion⟩ := Option.bind_eq_some_iff.1 made
  obtain ⟨expanded, complete, rfl⟩ := Option.map_eq_some_iff.1 expansion
  have nul : ('\x00').toNat < 128 := by decide
  simpa using nul_not_mem_expandFrom clean (not_mem_text? nul nulFree read) complete

/-! ## Attributes -/

namespace AttributeScanner

/-- The bytes of the values read so far. -/
def values (s : AttributeScanner) : Bytes :=
  s.attributes.flatMap (·.value) ++
    match s.place with
    | .value _ _ raw => raw
    | _ => []

theorem mem_values_step (s : AttributeScanner) (b : UInt8) {x : UInt8}
    (member : x ∈ (s.step b).values) : x ∈ s.values ∨ x = b := by
  obtain ⟨attributes, place⟩ := s
  cases place <;> simp only [step, go, values] at member ⊢ <;> grind

theorem mem_values_foldl (s : AttributeScanner) (content : Bytes) {x : UInt8}
    (member : x ∈ (content.foldl step s).values) : x ∈ s.values ∨ x ∈ content := by
  induction content generalizing s with
  | nil => exact .inl member
  | cons b content ih =>
    obtain before | after := ih (s.step b) member
    · obtain before | rfl := mem_values_step s b before
      · exact .inl before
      · exact .inr (List.mem_cons_self ..)
    · exact .inr (List.mem_cons_of_mem b after)

end AttributeScanner

theorem mem_of_mem_value {content : Bytes} {a : Attribute}
    (listed : a ∈ (Attributes.of content).list) {x : UInt8} (member : x ∈ a.value) :
    x ∈ content := by
  let scanner := (content.dropWhile fun b => !isSpace b).foldl AttributeScanner.step {}
  have read : a ∈ scanner.attributes := by
    have all : (Attributes.of content).list = scanner.attributes.reverse := by
      show scanner.finish.list = _
      unfold AttributeScanner.finish
      split <;> rfl
    simpa [all] using listed
  have inValues : x ∈ scanner.values :=
    List.mem_append_left _ (List.mem_flatMap.2 ⟨a, read, member⟩)
  obtain none | inTag := AttributeScanner.mem_values_foldl {} _ inValues
  · simp [AttributeScanner.values] at none
  · exact (List.dropWhile_suffix _).subset inTag

/-! ## Documents -/

/-- There is no NUL in the entities and in the target namespace that are known. -/
structure Draft.NulFree (d : Draft) : Prop where
  entities : d.entities.NulFree
  targetNamespace : ∀ uri, d.targetNamespace = some uri → '\x00' ∉ uri.toList

namespace Draft

variable {d d' : Draft} {store : Store} {base : Location}

theorem eq_copied_of_root {token : Token} {part : Part} {content : Bytes} {isEmpty : Bool}
    (read : d.readTag token content isEmpty = .ok (d', part)) (first : d.rootSeen = false) :
    part = .copied token := by
  obtain ⟨-, root, made, -⟩ := (readTag_eq_ok_iff d d' token content isEmpty part).1 read
  obtain ⟨-, schema, -⟩ := root first
  have other : referenceKind? (ascii "schema") = none := by decide
  simp only [readPart, schema, other, ite_self] at made
  exact (Except.ok.inj made).symm

theorem NulFree.afterRoot (clean : d.NulFree) {content : Bytes}
    (nulFree : d.rootSeen = false → 0 ∉ content) : (d.afterRoot content).NulFree := by
  unfold Draft.afterRoot
  cases seen : d.rootSeen with
  | true => simpa using clean
  | false =>
    refine ⟨clean.entities, fun uri target => ?_⟩
    simp only [Bool.false_eq_true, ↓reduceIte] at target
    split at target
    · next value found =>
      unfold Attributes.find? at found
      split at found
      · next a listed =>
        obtain rfl : a.value = value := by simpa using found
        have within : 0 ∉ a.value := fun nul =>
          nulFree seen (mem_of_mem_value (List.mem_of_find?_eq_some listed) nul)
        exact nul_not_mem_expand? clean.entities within target
      · split at found <;> simp at found
    · exact clean.targetNamespace uri target

/-- What is known after a token that is stored without NUL. -/
theorem NulFree.step {token : Token} {part : Part} (clean : d.NulFree)
    (read : d.step token = .ok (d', part)) (nulFree : 0 ∉ part.stored store base) :
    d'.NulFree := by
  obtain rfl := eq_after_of_step read
  cases token with
  | opening content =>
    have root : (d.afterRoot content).NulFree := clean.afterRoot fun first nul => by
      obtain rfl := eq_copied_of_root read first
      simp [Part.stored, Token.written, Token.source, nul] at nulFree
    exact ⟨root.entities, root.targetNamespace⟩
  | emptyTag content =>
    exact clean.afterRoot fun first nul => by
      obtain rfl := eq_copied_of_root read first
      simp [Part.stored, Token.written, Token.source, nul] at nulFree
  | documentType keyword space content =>
    obtain rfl : Part.copied _ = part := (Prod.mk.inj (Except.ok.inj read)).2
    have within : 0 ∉ content := fun nul => by simp [Part.stored, Token.written, nul] at nulFree
    have nul : ('\x00').toNat < 128 := by decide
    exact ⟨Entities.nulFree_of (not_mem_lossyText nul within), clean.targetNamespace⟩
  | closing name space => exact ⟨clean.entities, clean.targetNamespace⟩
  | text _ | comment _ | literal _ | instruction _ => exact clean

theorem NulFree.read {tokens : List Token} (clean : d.NulFree)
    (made : (d.read tokens).2 = .ok d')
    (nulFree : ∀ part ∈ (d.read tokens).1, 0 ∉ part.stored store base) : d'.NulFree := by
  induction tokens generalizing d with
  | nil =>
    obtain rfl := Except.ok.inj made
    exact clean
  | cons token tokens ih =>
    unfold Draft.read at made nulFree
    cases stepped : d.step token with
    | error fault => simp [stepped] at made
    | ok next =>
      obtain ⟨next, part⟩ := next
      simp only [stepped, List.mem_cons, forall_eq_or_imp] at made nulFree
      exact ih (clean.step stepped nulFree.1) made nulFree.2

end Draft

/-- There is no NUL in the target namespace of a document that can be stored. -/
theorem nul_not_mem_namespaceOf {store : Store} {d : Resource} (scans : Scans store d)
    {uri : String} (target : namespaceOf d.content = some uri) : '\x00' ∉ uri.toList := by
  have read := (Draft.read_eq_ok_iff {} _ (Scan.of d.content).tokens).2
    ⟨fun p member => ⟨scans.tokenizes.2 p member, scans.root.2 p member,
      scans.references p member⟩, rfl⟩
  -- What is stored is made of the parts, so none of them has a NUL byte.
  have parts : ∀ part ∈ (Draft.read {} (Scan.of d.content).tokens).1,
      0 ∉ part.stored store d.location := fun part member nul =>
    scans.nulFree (List.mem_flatten.2 ⟨_, List.mem_map_of_mem member, nul⟩)
  have clean : ({} : Draft).NulFree := ⟨by simp [Entities.NulFree], by simp⟩
  exact (clean.read read parts).targetNamespace uri target

end Schema
end MessageConformance
