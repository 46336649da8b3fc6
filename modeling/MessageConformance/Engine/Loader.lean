import MessageConformance.Engine.Basic
import MessageConformance.Schema.Catalog

/-!
# Serving documents to an engine

While a group is compiled its catalog is bound, and every address that the engine asks
for is answered from it alone. When the engine is done the catalog is released, whatever
came of it; with no catalog bound the engine loads by itself.
-/

namespace MessageConformance

open Schema (Catalog)

/-- The loader that answers an engine: the catalog bound to it, if any. -/
structure Loader where
  bound : Option Catalog := none

namespace Loader

def bind (_ : Loader) (catalog : Catalog) : Loader := ⟨some catalog⟩

def release (_ : Loader) : Loader := ⟨none⟩

/-- What the engine is given for an address. -/
def answer (loader : Loader) (engine : Engine) (url : Url) : Option Bytes :=
  match loader.bound with
  | none => engine.fetch url
  | some catalog => url.bind fun address => catalog.serve? address.lossyText

end Loader

/-- What the errors of a rejected schema say. -/
def rejection (report : Report) : String :=
  let errors := Diagnostic.lines (Collector.empty.recordAll report.diagnostics).errors
  if errors = "" then "no schema produced" else Text.trimEnd errors

/-- Compiles a driver while the loader answers: what the engine was asked, and the texts of
    the schema if one comes out. -/
def Engine.compileWith (engine : Engine) (loader : Loader) (driver : Bytes) :
    List EngineCall × Except EngineFailure SchemaInput :=
  match engine.requests driver with
  | none => ([.noParser], .error .outOfMemory)
  | some urls =>
    let input := ⟨driver, urls.map (loader.answer engine)⟩
    let (report, isCompiled) := engine.compile input
    ([.schema driver input.served isCompiled],
      if isCompiled then .ok input else .error (.schemaRejected (rejection report)))

end MessageConformance
