import Dataflow.Proofs.Graph.Parts
import Dataflow.Proofs.IndexedGraph.Connecting

/-! # Removing nodes and links

Nothing goes wrong in a graph when links are removed, or a node whose links were removed before, and
then no node is in a later stage than it was. A node that is removed alone is missed by each of its
links, and that is all that is wrong afterwards.
-/

namespace Dataflow

namespace Graph

variable {g : Graph}

/-- What is left when the links of a node are removed and then the node. -/
theorem detachNode_removeNode_partOf (g : Graph) (id : NodeId) :
    ((g.detachNode id).2.removeNode id).2.PartOf g :=
  ((g.detachNode id).2.removeNode_partOf id).trans (g.detachNode_partOf id)

/-- A node whose links are removed first is missed nowhere. -/
theorem valid_detachNode_removeNode (hg : g.nodeIds.Nodup) (hvalid : g.Valid) (id : NodeId) :
    ((g.detachNode id).2.removeNode id).2.Valid := by
  have hdetached := (g.detachNode_partOf id).valid_of_nodes hg hvalid rfl
  refine valid_removeNode (g := (g.detachNode id).2) hg hdetached fun link hlink => ?_
  simpa using (List.mem_filter.mp hlink).2

/-- A part of a graph that can be run has no defects and stages that are no later. -/
theorem PartOf.runs {part : Graph} (h : part.PartOf g) (hg : g.nodeIds.Nodup) (hvalid : g.Valid)
    (hpart : part.Valid) : part.validate = [] ∧ g.StagedNoLater part :=
  ⟨(validate_eq_nil_iff (hg.sublist h.nodeIds)).mpr hpart, h.stagedNoLater hg hvalid hpart⟩

end Graph

namespace IndexedGraph

variable {s : IndexedGraph}

/-- What the index gives for an id is what is found by going through the nodes. -/
def FindsByIndex (s : IndexedGraph) : Prop :=
  ∀ id, s.node? id = s.graph.node? id ∧ s.position? id = s.graph.position? id

theorem Sound.findsByIndex (hs : s.Sound) : s.FindsByIndex :=
  fun id => ⟨hs.node?_eq id, hs.position?_eq id⟩

/-- Where nothing is wrong with a graph, nothing is wrong after a link is removed, after the links
of a node are removed, and after these and then the node are, and no node that is left is in a later
stage than before. Removing the node alone leaves one defect for every link that touched it, in the
order of the links: the end that touched the node misses it. After a node has gone, the index is
right for the others. The links of a node are removed and returned, all others are kept, and all of
them stay in their order. -/
theorem removals_exact (hs : s.Reachable) :
    (s.graph.validate = [] →
      (∀ id, (s.disconnect id).2.graph.validate = [] ∧
        s.graph.StagedNoLater (s.disconnect id).2.graph) ∧
      ∀ id,
        let detached := (s.detachNode id).2
        let removed := (detached.removeNode id).2
        (detached.graph.validate = [] ∧ s.graph.StagedNoLater detached.graph) ∧
        (removed.graph.validate = [] ∧ s.graph.StagedNoLater removed.graph) ∧
        removed.FindsByIndex ∧
        (s.removeNode id).2.graph.validate =
          (s.graph.links.filter (·.touches id)).map (fun link =>
            .danglingLink link.id (link.endAt id) (.missingNode id)) ∧
        (s.removeNode id).2.FindsByIndex) ∧
    ∀ id,
      let (removed, detached) := s.detachNode id
      (∀ link, link ∈ removed ↔
        link ∈ s.graph.links ∧ (link.source = id ∨ link.target = id)) ∧
      (removed ++ detached.graph.links).Perm s.graph.links ∧
      removed.Sublist s.graph.links ∧ detached.graph.links.Sublist s.graph.links ∧
      detached = { s with graph := { s.graph with links := detached.graph.links } } := by
  have hnodup := hs.sound.wellKept.nodup_nodeIds
  constructor
  · intro hnone
    have hvalid := (Graph.validate_eq_nil_iff hnodup).mp hnone
    refine ⟨fun id => ?_, fun id => ?_⟩
    · have hpart := s.graph.disconnect_partOf id
      exact hpart.runs hnodup hvalid (hpart.valid_of_nodes hnodup hvalid rfl)
    · have hdetached : (s.detachNode id).2.Sound := (hs.step (.detachNode s id)).sound
      refine ⟨?_, ?_, (hdetached.removeNode id).findsByIndex, ?_,
        (hs.sound.removeNode id).findsByIndex⟩
      · have hpart := s.graph.detachNode_partOf id
        exact hpart.runs hnodup hvalid (hpart.valid_of_nodes hnodup hvalid rfl)
      · rw [hdetached.graph_removeNode]
        exact (s.graph.detachNode_removeNode_partOf id).runs hnodup hvalid
          (Graph.valid_detachNode_removeNode hnodup hvalid id)
      · rw [hs.sound.graph_removeNode]
        exact Graph.validate_removeNode hnodup hvalid id
  · intro id
    refine ⟨fun link => ?_, List.filter_append_perm _ _, List.filter_sublist, List.filter_sublist,
      rfl⟩
    change link ∈ s.graph.links.filter (·.touches id) ↔ _
    simp [Link.touches]

/-- Three nodes one behind the other. -/
def chain : IndexedGraph :=
  (line.connect ⟨2⟩ 0 ⟨3⟩ 0).2

theorem chain_reachable : chain.Reachable :=
  .step line_reachable (.connect _ _ _ _ _ (by decide))

theorem validate_chain : chain.graph.validate = [] := by
  cbv

/-- Without the first link the nodes behind it move to the front. The node in the middle is missed
by both its links. -/
theorem removals_exact_chain :
    (chain.disconnect ⟨1⟩).2.graph.validate = [] ∧
      chain.graph.StagedNoLater (chain.disconnect ⟨1⟩).2.graph ∧
      chain.graph.staging = .ok ⟨[[⟨1⟩], [⟨2⟩], [⟨3⟩]]⟩ ∧
      (chain.disconnect ⟨1⟩).2.graph.staging = .ok ⟨[[⟨1⟩, ⟨2⟩], [⟨3⟩]]⟩ ∧
      ((chain.detachNode ⟨2⟩).2.removeNode ⟨2⟩).2.graph.validate = [] ∧
      (chain.removeNode ⟨2⟩).2.graph.validate =
        [.danglingLink ⟨1⟩ .target (.missingNode ⟨2⟩),
          .danglingLink ⟨2⟩ .source (.missingNode ⟨2⟩)] := by
  have hlinks : chain.graph.links =
      [⟨⟨1⟩, ⟨1⟩, 0, ⟨2⟩, 0, none⟩, ⟨⟨2⟩, ⟨2⟩, 0, ⟨3⟩, 0, none⟩] := by
    cbv
  obtain ⟨hlink, hnode⟩ := (removals_exact chain_reachable).1 validate_chain
  obtain ⟨-, ⟨hremoved, -⟩, -, hmissed, -⟩ := hnode ⟨2⟩
  refine ⟨(hlink ⟨1⟩).1, (hlink ⟨1⟩).2, by cbv, by cbv, hremoved, ?_⟩
  rw [hmissed, hlinks]
  rfl

end IndexedGraph

end Dataflow
