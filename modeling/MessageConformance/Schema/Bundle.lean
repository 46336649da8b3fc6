import MessageConformance.Schema.Driver

/-!
# Bundles

All that is needed to compile a group of schemas: its members and every document they
reach through references, rewritten and put into a catalog, and a driver schema. All
members are read before any reference is followed; documents are then rewritten breadth
first, each once.
-/

namespace MessageConformance.Schema

/-- A group of schemas made ready for compilation. -/
structure Bundle where
  driver : Bytes
  catalog : Catalog
  members : List Location
  deriving DecidableEq

/-- The documents that wait to be rewritten, and the locations not yet met. -/
structure Frontier where
  unseen : List Location
  queue : List Resource

namespace Frontier

/-- Puts a document at the end of the queue when it is met for the first time. -/
def meet (f : Frontier) (r : Resource) : Frontier :=
  if r.location ∈ f.unseen then ⟨f.unseen.erase r.location, f.queue ++ [r]⟩ else f

def meetAll (f : Frontier) (rs : List Resource) : Frontier := rs.foldl meet f

def size (f : Frontier) : Nat := f.unseen.length + f.queue.length

/-- Meeting a document moves it from the unseen to the waiting ones. -/
theorem size_meet (f : Frontier) (r : Resource) : (f.meet r).size = f.size := by
  unfold meet size
  split
  · next h =>
    have := List.length_pos_of_mem h
    simp [List.length_erase_of_mem h]
    omega
  · rfl

/-- Meeting documents changes how many may still be rewritten in no way. -/
theorem size_meetAll (f : Frontier) (rs : List Resource) : (f.meetAll rs).size = f.size := by
  induction rs generalizing f with
  | nil => rfl
  | cons r rs ih => exact (ih (f.meet r)).trans (size_meet f r)

end Frontier

/-- The rewritten documents of a closure in the order they were rewritten, with their
    target namespaces. -/
structure Closure where
  catalog : Catalog := {}
  namespaces : List (Location × Option String) := []

/-- Rewrites the waiting documents and those they lead to. -/
def expand (store : Store) (closure : Closure) : Frontier → Loading SchemaFailure Closure
  | ⟨_, []⟩ => return closure
  | ⟨unseen, document :: queue⟩ => do
    let rewritten ← rewrite store document
    let catalog ← liftExcept (closure.catalog.insert document.location rewritten.content)
    expand store
      ⟨catalog, closure.namespaces ++ [(document.location, rewritten.targetNamespace)]⟩
      (Frontier.meetAll ⟨unseen, queue⟩ rewritten.discovered)
termination_by f => f.size
decreasing_by
  rw [Frontier.size_meetAll]
  simp [Frontier.size]

/-- Loads a group of schemas and everything it refers to. -/
def Bundle.load (store : Store) (paths : List String) : Loading SchemaFailure Bundle := do
  if paths.isEmpty then throw .noPaths
  let loaded ← paths.mapM (Resolver.load store)
  let start := Frontier.meetAll ⟨store.documents.map (·.1), []⟩ loaded
  let members := start.queue.map (·.location)
  let closure ← expand store {} start
  let namespaces := members.map fun member => (member, (closure.namespaces.lookup member).join)
  let (catalog, driver) ← liftExcept (buildDriver closure.catalog namespaces)
  return ⟨driver, catalog, members⟩

end MessageConformance.Schema
