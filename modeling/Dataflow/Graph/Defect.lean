import Dataflow.Graph.Layering
import Std.Data.HashMap

/-! # Structural defects

A graph can be run when no link dangles, no input is written twice and no node depends on itself.
`Graph.validate` lists every defect: first the dangling ends in the order of the links, then the
inputs with several writers in the order of their first one, then the nodes on cycles.
-/

namespace Dataflow

/-- An end of a link. -/
inductive LinkEnd where
  | source
  | target
  deriving DecidableEq

def LinkEnd.name : LinkEnd → String
  | .source => "source"
  | .target => "target"

/-- Why an end of a link hangs in the air. -/
inductive DanglingReason where
  | missingNode (id : NodeId)
  | socketOutOfRange (id : NodeId) (index : UInt64) (socketCount : Nat)
  deriving DecidableEq

namespace DanglingReason

def message : DanglingReason → String
  | .missingNode id => "missing node " ++ toString id
  | .socketOutOfRange id index socketCount =>
    "port " ++ toString index.toNat ++ " of node " ++ toString id ++ " (node has " ++
      toString socketCount ++ " ports)"

def toJson : DanglingReason → Json
  | .missingNode id => .object [("reason", .string "missing_node"), ("node_id", id.toJson)]
  | .socketOutOfRange id index socketCount =>
    .object
      [("reason", .string "port_out_of_range"), ("node_id", id.toJson),
        ("index", .ofUInt64 index), ("port_count", .ofNat socketCount)]

end DanglingReason

/-- What keeps a graph from being run. -/
inductive Defect where
  | danglingLink (link : LinkId) (linkEnd : LinkEnd) (reason : DanglingReason)
  | multipleWriters (node : NodeId) (input : UInt64) (links : List LinkId)
  | cycle (nodes : List NodeId)
  deriving DecidableEq

namespace Defect

def message : Defect → String
  | .danglingLink link linkEnd reason =>
    "link " ++ toString link ++ " has a dangling " ++ linkEnd.name ++ ": " ++ reason.message
  | .multipleWriters node input links =>
    "input " ++ toString input.toNat ++ " of node " ++ toString node ++ " is written by " ++
      toString links.length ++ " links"
  | .cycle nodes =>
    "cyclic dependency between nodes [" ++ ", ".intercalate (nodes.map toString) ++ "]"

/-- The fields of a defect as they are written. -/
def toFields : Defect → List (String × Json)
  | .danglingLink link linkEnd reason =>
    [("kind", .string "dangling_link_reference"), ("link_id", link.toJson),
      ("endpoint", .string linkEnd.name), ("reason", reason.toJson)]
  | .multipleWriters node input links =>
    [("kind", .string "multiple_writers_to_input"), ("node_id", node.toJson),
      ("input_index", .ofUInt64 input), ("link_ids", .array (links.map LinkId.toJson))]
  | .cycle nodes =>
    [("kind", .string "cyclic_dependency"), ("node_ids", .array (nodes.map NodeId.toJson))]

def toJson (d : Defect) : Json :=
  .object d.toFields

end Defect

/-- The ids of the links to every input, and the inputs in the order in which they were met. -/
structure WriterTable where
  order : List (NodeId × UInt64)
  ids : Std.HashMap (NodeId × UInt64) (List LinkId)

namespace WriterTable

/-- The table of no links. -/
def empty : WriterTable := ⟨[], ∅⟩

/-- Enters a link behind the other links to its input. -/
def add (t : WriterTable) (link : Link) : WriterTable :=
  let others := t.ids.getD link.slot []
  { order := if others.isEmpty then t.order ++ [link.slot] else t.order
    ids := t.ids.insert link.slot (others ++ [link.id]) }

end WriterTable

namespace Graph

/-- Why an end of a link dangles, if it does. `sockets` counts the sockets on its side. -/
def dangling? (g : Graph) (sockets : Node → Nat) (id : NodeId) (index : UInt64) :
    Option DanglingReason :=
  match g.node? id with
  | none => some (.missingNode id)
  | some node =>
    if index.toNat < sockets node then none else some (.socketOutOfRange id index (sockets node))

/-- The dangling ends of a link, the source before the target. -/
def danglingEnds (g : Graph) (link : Link) : List Defect :=
  ((g.dangling? (·.outputs.length) link.source link.output).map
      (.danglingLink link.id .source)).toList ++
    ((g.dangling? (·.inputs.length) link.target link.input).map
      (.danglingLink link.id .target)).toList

/-- The inputs with several writers, in the order of the first link to each. -/
def contestedInputs (g : Graph) : List Defect :=
  let table := g.links.foldl WriterTable.add .empty
  table.order.filterMap fun slot =>
    let links := table.ids.getD slot []
    if 1 < links.length then some (.multipleWriters slot.1 slot.2 links) else none

/-- The nodes on cycles, as one defect. -/
def cycleDefects (g : Graph) : List Defect :=
  if g.cyclicNodes.isEmpty then [] else [.cycle g.cyclicNodes]

/-- Every defect of a graph. -/
def validate (g : Graph) : List Defect :=
  g.links.flatMap g.danglingEnds ++ g.contestedInputs ++ g.cycleDefects

end Graph

end Dataflow
