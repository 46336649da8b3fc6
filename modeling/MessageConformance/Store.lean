import MessageConformance.Location
import MessageConformance.Text.Bytes

/-!
# Stores

A finite collection of schema documents by location, and computations that read
from one. A `Reading` gives its value together with the locations it asked for, in
order, so what is read is part of every result.
-/

namespace MessageConformance

/-- Puts a value under a key in the place of an earlier one, or at the end. -/
def Store.put {α β : Type} [DecidableEq α] (key : α) (value : β) : List (α × β) → List (α × β)
  | [] => [(key, value)]
  | (k, v) :: rest => if k = key then (key, value) :: rest else (k, v) :: Store.put key value rest

namespace Store

variable {α β : Type} [DecidableEq α]

/-- Putting a value adds no key but its own. -/
theorem mem_keys_put (key : α) (value : β) (entries : List (α × β)) (k : α) :
    k ∈ (put key value entries).map (·.1) ↔ k = key ∨ k ∈ entries.map (·.1) := by
  induction entries with
  | nil => simp [put]
  | cons entry rest ih =>
    obtain ⟨other, v⟩ := entry
    by_cases same : other = key
    · subst same; simp [put]
    · simp only [put, same, ↓reduceIte, List.map_cons, List.mem_cons, ih]
      grind

/-- Putting a value repeats no key. -/
theorem nodup_keys_put (key : α) (value : β) {entries : List (α × β)}
    (distinct : (entries.map (·.1)).Nodup) : ((put key value entries).map (·.1)).Nodup := by
  induction entries with
  | nil => simp [put]
  | cons entry rest ih =>
    obtain ⟨other, v⟩ := entry
    rw [List.map_cons, List.nodup_cons] at distinct
    by_cases same : other = key
    · subst same; simpa [put] using distinct
    · simp only [put, same, ↓reduceIte, List.map_cons, List.nodup_cons, mem_keys_put]
      exact ⟨by rintro (equal | later) <;> simp_all, ih distinct.2⟩

/-- A value under a new key comes last. -/
theorem put_of_new {key : α} (value : β) {entries : List (α × β)}
    (new : key ∉ entries.map (·.1)) : put key value entries = entries ++ [(key, value)] := by
  induction entries with
  | nil => rfl
  | cons entry rest ih =>
    rw [List.map_cons, List.mem_cons, not_or] at new
    simp [put, Ne.symm new.1, ih new.2]

theorem lookup_cons_ne {key k : α} (other : k ≠ key) (value : β) (entries : List (α × β)) :
    ((key, value) :: entries).lookup k = entries.lookup k := by
  rw [List.lookup_cons, beq_false_of_ne other]

/-- A value that was put is found under its key, and other keys keep theirs. -/
theorem lookup_put (key : α) (value : β) (entries : List (α × β)) (k : α) :
    (put key value entries).lookup k = if k = key then some value else entries.lookup k := by
  induction entries with
  | nil => by_cases asked : k = key <;> simp [put, asked, lookup_cons_ne]
  | cons entry rest ih =>
    obtain ⟨other, v⟩ := entry
    by_cases same : other = key
    · subst same
      by_cases asked : k = other <;> simp [put, asked, lookup_cons_ne]
    · by_cases asked : k = other
      · subst asked; simp [put, same]
      · simp [put, same, asked, lookup_cons_ne, ih]

/-- Where no key is repeated, a value is found under a key when it was made for it. -/
theorem lookup_map_eq_some_iff {ι : Type} {key : ι → α} (value : ι → β) {items : List ι}
    (distinct : (items.map key).Nodup) (k : α) (v : β) :
    (items.map fun i => (key i, value i)).lookup k = some v ↔
      ∃ i ∈ items, key i = k ∧ value i = v := by
  induction items with
  | nil => simp
  | cons i items ih =>
    rw [List.map_cons, List.nodup_cons] at distinct
    rw [List.map_cons]
    by_cases here : k = key i
    · subst here
      have later : ¬ ∃ j ∈ items, key j = key i ∧ value j = v := by
        rintro ⟨j, member, same, -⟩
        exact distinct.1 (same ▸ List.mem_map_of_mem member)
      simp [later]
    · rw [lookup_cons_ne here, ih distinct.2]
      simp [Ne.symm here]

end Store

/-- Schema documents by location, each location once, and the locations whose
    documents cannot be read, with the reason. -/
structure Store where
  documents : List (Location × Bytes) := []
  broken : List (Location × String) := []
  distinct : (documents.map (·.1)).Nodup := by simp
  deriving DecidableEq

/-- What a store answers for a location. -/
inductive Lookup where
  | found (content : Bytes)
  | missing
  | broken (reason : String)
  deriving DecidableEq

namespace Store

def empty : Store := {}

/-- Adds a document at a location, in the place of an earlier one. -/
def insert (s : Store) (location : Location) (content : Bytes) : Store :=
  { s with
    documents := put location content s.documents
    distinct := nodup_keys_put location content s.distinct }

/-- Adds a document at a path, unless the path names no location. -/
def insert? (s : Store) (path : String) (content : Bytes) : Option Store :=
  (Location.parse? path).map fun location => s.insert location content

/-- Makes a location unreadable. -/
def deny (s : Store) (location : Location) (reason : String) : Store :=
  { s with broken := put location reason s.broken }

def size (s : Store) : Nat := s.documents.length

/-- What the store holds at a location. -/
def look (s : Store) (location : Location) : Lookup :=
  match s.broken.lookup location with
  | some reason => .broken reason
  | none =>
    match s.documents.lookup location with
    | some content => .found content
    | none => .missing

/-- The document at a location, if it can be read. -/
def document? (s : Store) (location : Location) : Option Bytes :=
  match s.look location with
  | .found content => some content
  | _ => none

end Store

/-- A value found by reading from a store, and the locations read, in order. -/
structure Reading (α : Type) where
  value : α
  asked : List Location

namespace Reading

/-- A value found without reading. -/
def done {α : Type} (value : α) : Reading α := ⟨value, []⟩

def andThen {α β : Type} (r : Reading α) (next : α → Reading β) : Reading β :=
  ⟨(next r.value).value, r.asked ++ (next r.value).asked⟩

instance : Monad Reading where
  pure := done
  bind := andThen

@[simp] theorem value_pure {α : Type} (a : α) : (pure a : Reading α).value = a := rfl

@[simp] theorem asked_pure {α : Type} (a : α) : (pure a : Reading α).asked = [] := rfl

@[simp] theorem value_bind {α β : Type} (r : Reading α) (next : α → Reading β) :
    (r >>= next).value = (next r.value).value := rfl

@[simp] theorem asked_bind {α β : Type} (r : Reading α) (next : α → Reading β) :
    (r >>= next).asked = r.asked ++ (next r.value).asked := rfl

@[ext] theorem ext {α : Type} {r s : Reading α} (value : r.value = s.value)
    (asked : r.asked = s.asked) : r = s := by
  cases r; cases s; simp_all

instance : LawfulMonad Reading :=
  LawfulMonad.mk' Reading
    (fun r => Reading.ext rfl (List.append_nil r.asked))
    (fun _ _ => rfl)
    (fun _ _ _ => Reading.ext rfl (List.append_assoc _ _ _))

end Reading

def Store.read (s : Store) (location : Location) : Reading Lookup := ⟨s.look location, [location]⟩

/-- A computation over a store that may fail. -/
abbrev Loading (ε α : Type) := ExceptT ε Reading α

/-- A computation that reads nothing. -/
def liftExcept {ε α : Type} (r : Except ε α) : Loading ε α := ExceptT.mk (pure r)

/-- What a computation over a store comes to. -/
def Loading.outcome {ε α : Type} (r : Loading ε α) : Except ε α := r.run.value

/-- The locations that a computation over a store reads. -/
def Loading.asked {ε α : Type} (r : Loading ε α) : List Location := r.run.asked

namespace Loading

variable {ε α β : Type}

@[simp] theorem outcome_pure (a : α) : outcome (pure a : Loading ε α) = .ok a := rfl

@[simp] theorem asked_pure (a : α) : asked (pure a : Loading ε α) = [] := rfl

@[simp] theorem outcome_throw (e : ε) : outcome (throw e : Loading ε α) = .error e := rfl

@[simp] theorem asked_throw (e : ε) : asked (throw e : Loading ε α) = [] := rfl

@[simp] theorem outcome_lift (r : Reading α) : outcome (liftM r : Loading ε α) = .ok r.value := rfl

@[simp] theorem asked_lift (r : Reading α) : asked (liftM r : Loading ε α) = r.asked :=
  List.append_nil r.asked

@[simp] theorem outcome_liftExcept (r : Except ε α) : outcome (liftExcept r) = r := rfl

@[simp] theorem asked_liftExcept (r : Except ε α) : asked (liftExcept r) = [] := rfl

/-- What follows a computation is done when it succeeds. -/
theorem outcome_bind (r : Loading ε α) (next : α → Loading ε β) :
    outcome (r >>= next) =
      match r.outcome with
      | .ok a => (next a).outcome
      | .error e => .error e := by
  have unfolded : outcome (r >>= next) = (ExceptT.bindCont next r.outcome).value := rfl
  rw [unfolded]
  cases r.outcome <;> rfl

theorem asked_bind (r : Loading ε α) (next : α → Loading ε β) :
    asked (r >>= next) = r.asked ++
      match r.outcome with
      | .ok a => (next a).asked
      | .error _ => [] := by
  have unfolded : asked (r >>= next) = r.asked ++ (ExceptT.bindCont next r.outcome).asked := rfl
  rw [unfolded]
  cases r.outcome <;> rfl

/-- Computations are told apart by what they come to and by what they read. -/
theorem ext {r s : Loading ε α} (outcome : r.outcome = s.outcome) (asked : r.asked = s.asked) :
    r = s :=
  Reading.ext outcome asked

/-- What follows a computation matters only for what it comes to. -/
theorem bind_congr {r : Loading ε α} {next next' : α → Loading ε β}
    (same : ∀ a, r.outcome = .ok a → next a = next' a) : r >>= next = r >>= next' := by
  apply ext
  · rw [outcome_bind, outcome_bind]
    cases made : r.outcome with
    | error e => rfl
    | ok a => simp [same a made]
  · rw [asked_bind, asked_bind]
    cases made : r.outcome with
    | error e => rfl
    | ok a => simp [same a made]

end Loading

end MessageConformance
