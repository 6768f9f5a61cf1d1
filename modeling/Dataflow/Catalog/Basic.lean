import Dataflow.Catalog.Cache
import Dataflow.Graph.Basic

/-! # Adding functions to graphs

A node takes its sockets from the signature of its function. Signatures come from an extractor,
which may answer differently every time, and are kept in a cache. When anything fails the graph
stays as it is.
-/

namespace Dataflow

/-- Asks for the signature of a function. -/
abbrev Extractor (m : Type → Type) := FunctionRef → m (Except ExtractionError Signature)

/-- Why a function cannot be added, or a node not given another one. -/
inductive CatalogError where
  | extraction (error : ExtractionError)
  | graph (error : GraphError)
  /-- A value was given for a parameter that the function does not take. -/
  | unknownParameter (functionName : String) (name : String)

def CatalogError.message : CatalogError → String
  | .extraction error => error.message
  | .graph error => error.message
  | .unknownParameter functionName name =>
    "function '" ++ functionName ++ "' has no parameter '" ++ name ++ "'"

namespace SignatureCache

variable {m : Type → Type} [Monad m]

/-- Extracts a signature, which replaces the cached one. A failure leaves the cache as it is. -/
def refresh (c : SignatureCache) (extract : Extractor m) (ref : FunctionRef) :
    m (Except CatalogError Signature × SignatureCache) := do
  match ← extract ref with
  | .ok signature => return (.ok signature, c.insert ref signature)
  | .error e => return (.error (.extraction e), c)

/-- The signature of a function, extracted only when it is not known. -/
def signature (c : SignatureCache) (extract : Extractor m) (ref : FunctionRef) :
    m (Except CatalogError Signature × SignatureCache) :=
  match c.get? ref with
  | some signature => return (.ok signature, c)
  | none => c.refresh extract ref

end SignatureCache

namespace Graph

/-- Adds a node for a function whose signature is known. The first parameter, in the order of
names, that the function does not take is an error. -/
def addSignature (g : Graph) (signature : Signature) (kind : NodeKind) (parameters : Values) :
    Except CatalogError (NodeId × Graph) :=
  match parameters.keys.find? (!signature.takes ·) with
  | some name => .error (.unknownParameter signature.functionName name)
  | none => .ok (g.addNode kind signature.inputSockets signature.outputSockets parameters)

variable {m : Type → Type} [Monad m]

/-- Adds a node for a function. -/
def addFunction (g : Graph) (cache : SignatureCache) (extract : Extractor m) (kind : NodeKind)
    (parameters : Values) : m (Except CatalogError (NodeId × Graph) × SignatureCache) := do
  let (signature, cache) ← cache.signature extract kind.functionRef
  return (signature.bind fun s => g.addSignature s kind parameters, cache)

/-- Gives a node another function, whose signature is always extracted anew. -/
def rebindFunction (g : Graph) (cache : SignatureCache) (extract : Extractor m) (id : NodeId)
    (ref : FunctionRef) : m (Except CatalogError Graph × SignatureCache) := do
  if g.hasNode id then
    let (signature, cache) ← cache.refresh extract ref
    let rebound := signature.bind fun s =>
      (g.rebind id ref s.inputSockets s.outputSockets).mapError .graph
    return (rebound, cache)
  else return (.error (.graph (.nodeNotFound id)), cache)

end Graph

end Dataflow
