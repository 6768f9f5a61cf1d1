import Dataflow.Node

/-! # Links

A link feeds an input of one node from an output of another, both given by their places. Nothing
says that they exist: that is for validation to find.
-/

namespace Dataflow

open Json (Reader Fields)

/-- The number of a link, never given to a second one. -/
structure LinkId where
  value : UInt64
  deriving DecidableEq

namespace LinkId

instance : ToString LinkId := ⟨fun id => toString id.value.toNat⟩

def reader : Reader LinkId :=
  Reader.uint64.map LinkId.mk

def toJson (id : LinkId) : Json :=
  .ofUInt64 id.value

end LinkId

/-- A dependency of an input on an output. -/
structure Link where
  id : LinkId
  source : NodeId
  output : UInt64
  target : NodeId
  input : UInt64
  linkType : Option String
  deriving DecidableEq

namespace Link

/-- Whether a link starts or ends at a node. -/
def touches (link : Link) (id : NodeId) : Bool :=
  link.source = id || link.target = id

/-- The input that a link writes to. -/
def slot (link : Link) : NodeId × UInt64 :=
  (link.target, link.input)

def reader : Reader Link :=
  (Reader.record "struct Link"
    (.cons (.required "id" LinkId.reader)
      (.cons (.required "source_node_id" NodeId.reader)
        (.cons (.required "source_output_index" Reader.index)
          (.cons (.required "target_node_id" NodeId.reader)
            (.cons (.required "target_input_index" Reader.index)
              (.cons (.nullable "link_type" Reader.string) .nil))))))).map
    fun (id, source, output, target, input, linkType, ()) =>
      ⟨id, source, output, target, input, linkType⟩

def toJson (link : Link) : Json :=
  .object
    [("id", link.id.toJson), ("source_node_id", link.source.toJson),
      ("source_output_index", .ofUInt64 link.output), ("target_node_id", link.target.toJson),
      ("target_input_index", .ofUInt64 link.input),
      ("link_type", Json.ofOption .string link.linkType)]

end Link

end Dataflow
