import MessageConformance.Failure

/-!
# Namespace registry

The prefixes that queries use and the namespaces they stand for, in prefix order.
-/

namespace MessageConformance

/-- Prefixes with their namespaces, ascending by prefix, each prefix once. -/
structure Registry where
  bindings : List (String × String)
  deriving DecidableEq, Repr

namespace Registry

/-- Binds a prefix in an ordered list, in the place of an earlier binding of it. -/
def bind (nsPrefix uri : String) : List (String × String) → List (String × String)
  | [] => [(nsPrefix, uri)]
  | (other, bound) :: rest =>
    if nsPrefix < other then (nsPrefix, uri) :: (other, bound) :: rest
    else if nsPrefix = other then (nsPrefix, uri) :: rest
    else (other, bound) :: bind nsPrefix uri rest

/-- The registry of some bindings; of two for one prefix the later counts. -/
def ofList (mappings : List (String × String)) : Registry :=
  ⟨mappings.foldl (fun bindings (nsPrefix, uri) => bind nsPrefix uri bindings) []⟩

/-- The namespaces of AS4 messages. -/
def as4 : Registry := ofList [
  ("env", "http://www.w3.org/2003/05/soap-envelope"),
  ("eb", "http://docs.oasis-open.org/ebxml-msg/ebms/v3.0/ns/core/200704/"),
  ("ebbp", "http://docs.oasis-open.org/ebxml-bp/ebbp-signals-2.0"),
  ("ds", "http://www.w3.org/2000/09/xmldsig#"),
  ("sbdh", "http://www.unece.org/cefact/namespaces/StandardBusinessDocumentHeader")]

/-- The namespace of a prefix; the empty one for an unknown prefix. -/
def uri (r : Registry) (nsPrefix : String) : String := (r.bindings.lookup nsPrefix).getD ""

/-- The prefixes of a namespace, in order. -/
def prefixes (r : Registry) (uri : String) : List String :=
  (r.bindings.filter (·.2 = uri)).map (·.1)

def firstPrefix (r : Registry) (uri : String) : Except Failure String :=
  match r.bindings.find? (·.2 = uri) with
  | some (nsPrefix, _) => .ok nsPrefix
  | none => .error (.unknownNamespace uri)

def size (r : Registry) : Nat := r.bindings.length

end Registry
end MessageConformance
