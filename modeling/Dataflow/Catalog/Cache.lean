import Dataflow.Signature

/-! # Cached signatures

A cache keeps at most one signature per function. Functions are the same when their names are equal
and their paths have the same components.
-/

namespace Dataflow

/-- The signatures that are known, by their functions. -/
structure SignatureCache where
  entries : List (FunctionRef × Signature)

namespace SignatureCache

/-- The cache that knows nothing. -/
def empty : SignatureCache := ⟨[]⟩

/-- The signature of a function, if it is known. -/
def get? (c : SignatureCache) (ref : FunctionRef) : Option Signature :=
  (c.entries.find? (·.1 == ref)).map (·.2)

/-- Replaces or adds the signature of a function. -/
def insert (c : SignatureCache) (ref : FunctionRef) (signature : Signature) : SignatureCache :=
  if (c.get? ref).isSome then
    ⟨c.entries.map fun entry => if entry.1 == ref then (entry.1, signature) else entry⟩
  else ⟨c.entries ++ [(ref, signature)]⟩

/-- Forgets the signature of a function. -/
def erase (c : SignatureCache) (ref : FunctionRef) : SignatureCache :=
  ⟨c.entries.filter (!·.1 == ref)⟩

/-- Forgets the signatures of all functions in a file. -/
def eraseFile (c : SignatureCache) (path : FilePath) : SignatureCache :=
  ⟨c.entries.filter (!·.1.filePath == path)⟩

/-- How many signatures are known. -/
def size (c : SignatureCache) : Nat :=
  c.entries.length

end SignatureCache

end Dataflow
