import Dataflow.Proofs.CommandLine.Adding

/-! # One node or nothing

Adding a function to a graph file either leaves everything as it is or appends one entry to the
nodes of the document that the graph is saved as. Nothing else in that document changes but the
counter of nodes.
-/

namespace Dataflow

namespace Graph

open Document

variable {g : Graph} {kind : NodeKind} {signature : Signature} {parameters : Values}

end Graph

namespace CommandLine

open Dataflow.Graph Document

namespace Host

variable {σ : Type} {h : Host (StateM σ)} {s s' : σ} {launch : Launch} {path : FilePath}
  {kind : NodeKind} {parameters : Values} {d : Document} {g : Graph} {signature : Signature}

namespace Reliable

end Reliable

/-! ### The program -/

end Host

end CommandLine

end Dataflow
