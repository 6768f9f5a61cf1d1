import Dataflow.Proofs.Graph.Defects
import Dataflow.Proofs.IndexedGraph.History

/-! # Links that wait for a node

A link may name a node that does not exist, and nothing says that it has existed. The id of a new
node is one that no node has had, so links to nodes that were removed go on dangling. A link that
has named an id ahead of the counter is met by the node that gets this id.
-/

namespace Dataflow

namespace Graph

/-- A node that comes last under a new id changes what is wrong with the ends that name it, and with
no other ends. -/
theorem dangles_append_iff {g g' : Graph} {node : Node} (hnodes : g'.nodes = g.nodes ++ [node])
    (hnew : node.id ∉ g.nodeIds) {link : Link} {linkEnd : LinkEnd} {reason : DanglingReason} :
    g'.Dangles link linkEnd reason ↔
      (g.Dangles link linkEnd reason ∧ reason ≠ .missingNode node.id) ∨
        linkEnd.node link = node.id ∧
          (linkEnd.sockets node).length ≤ (linkEnd.index link).toNat ∧
          reason = .socketOutOfRange node.id (linkEnd.index link)
            (linkEnd.sockets node).length := by
  have hids : g'.nodeIds = g.nodeIds ++ [node.id] := by
    rw [nodeIds, hnodes, List.map_append, nodeIds, List.map_singleton]
  constructor
  · intro h
    cases h with
    | missing hmissing =>
        rw [hids, List.mem_append, List.mem_singleton, not_or] at hmissing
        refine .inl ⟨.missing hmissing.1, fun heq => ?_⟩
        exact hmissing.2 (DanglingReason.missingNode.inj heq)
    | outOfRange hmem hid hrange =>
        rw [hnodes, List.mem_append, List.mem_singleton] at hmem
        rcases hmem with hmem | rfl
        · exact .inl ⟨.outOfRange hmem hid hrange, by simp⟩
        · exact .inr ⟨hid.symm, hrange, by rw [hid]⟩
  · intro h
    rcases h with ⟨hdangles, hne⟩ | ⟨hid, hrange, rfl⟩
    · cases hdangles with
      | missing hmissing =>
          refine .missing fun hmem => ?_
          rw [hids, List.mem_append, List.mem_singleton] at hmem
          rcases hmem with hmem | heq
          · exact hmissing hmem
          · exact hne (congrArg _ heq)
      | outOfRange hmem hid hrange =>
          exact .outOfRange (hnodes ▸ List.mem_append_left _ hmem) hid hrange
    · have hmem : node ∈ g'.nodes := hnodes ▸ List.mem_append_right _ (List.mem_singleton_self _)
      rw [← hid]
      exact .outOfRange hmem hid.symm hrange

theorem danglingLink_mem_append_iff {g g' : Graph} {node : Node} (hg : g.nodeIds.Nodup)
    (hg' : g'.nodeIds.Nodup) (hnodes : g'.nodes = g.nodes ++ [node]) (hlinks : g'.links = g.links)
    (hnew : node.id ∉ g.nodeIds) {id : LinkId} {linkEnd : LinkEnd} {reason : DanglingReason} :
    .danglingLink id linkEnd reason ∈ g'.validate ↔
      (.danglingLink id linkEnd reason ∈ g.validate ∧ reason ≠ .missingNode node.id) ∨
        ∃ link ∈ g.links, link.id = id ∧ linkEnd.node link = node.id ∧
          (linkEnd.sockets node).length ≤ (linkEnd.index link).toNat ∧
          reason = .socketOutOfRange node.id (linkEnd.index link)
            (linkEnd.sockets node).length := by
  rw [danglingLink_mem_validate_iff hg', danglingLink_mem_validate_iff hg, hlinks]
  constructor
  · rintro ⟨link, hlink, rfl, hdangles⟩
    rcases (dangles_append_iff hnodes hnew).mp hdangles with ⟨hold, hne⟩ | hmet
    · exact .inl ⟨⟨link, hlink, rfl, hold⟩, hne⟩
    · exact .inr ⟨link, hlink, rfl, hmet⟩
  · rintro (⟨⟨link, hlink, rfl, hold⟩, hne⟩ | ⟨link, hlink, rfl, hmet⟩)
    · exact ⟨link, hlink, rfl, (dangles_append_iff hnodes hnew).mpr (.inl ⟨hold, hne⟩)⟩
    · exact ⟨link, hlink, rfl, (dangles_append_iff hnodes hnew).mpr (.inr hmet)⟩

end Graph

namespace IndexedGraph

open Relation

/-- The id of a new node is ahead of the counter, so no node has had it at any time before. Ends of
links that name it have named a missing node. Once the node is there, they dangle just if it lacks
the socket, and all other ends dangle as they did. -/
theorem dangling_after_addNode {s s' : IndexedGraph} (hs : s.Reachable)
    (hroom : s.graph.lastNodeId.toNat + 1 < UInt64.size) {kind : NodeKind}
    {inputs outputs : List Socket} {parameters : Values} {id : NodeId}
    (h : s.addNode kind inputs outputs parameters = (id, s')) :
    (∀ known : NodeId, known.value ≤ s.graph.lastNodeId → known ≠ id) ∧
      (∀ s₀, s₀.Reachable → ReflTransGen Step s₀ s → id ∉ s₀.graph.nodeIds) ∧
      (∀ link ∈ s.graph.links, ∀ linkEnd : LinkEnd, linkEnd.node link = id →
        .danglingLink link.id linkEnd (.missingNode id) ∈ s.graph.validate) ∧
      ∃ node : Node, node.id = id ∧ node.inputs = inputs ∧ node.outputs = outputs ∧
        s'.graph.nodes = s.graph.nodes ++ [node] ∧ s'.graph.links = s.graph.links ∧
        ∀ linkId linkEnd reason,
          .danglingLink linkId linkEnd reason ∈ s'.graph.validate ↔
            (.danglingLink linkId linkEnd reason ∈ s.graph.validate ∧ reason ≠ .missingNode id) ∨
              ∃ link ∈ s.graph.links, link.id = linkId ∧ linkEnd.node link = id ∧
                (linkEnd.sockets node).length ≤ (linkEnd.index link).toNat ∧
                reason = .socketOutOfRange id (linkEnd.index link)
                  (linkEnd.sockets node).length := by
  obtain ⟨rfl, rfl⟩ := Prod.mk.inj h
  have hkept := hs.sound.wellKept
  have hkept' := (hs.step (.addNode s kind inputs outputs parameters hroom)).sound.wellKept
  have hahead : ∀ known : NodeId, known.value ≤ s.graph.lastNodeId →
      known ≠ ⟨s.graph.lastNodeId + 1⟩ := by
    intro known hknown heq
    exact UInt64.lt_irrefl _ (heq ▸ Graph.WellKept.lt_succ_counter hknown hroom)
  have hnew : ⟨s.graph.lastNodeId + 1⟩ ∉ s.graph.nodeIds := hkept.newNodeId_not_mem hroom
  refine ⟨hahead, ?_, ?_, ⟨⟨s.graph.lastNodeId + 1⟩, kind, inputs, outputs, parameters, .pending⟩,
    rfl, rfl, rfl, rfl, rfl, ?_⟩
  · intro s₀ hs₀ hhistory hmem
    have hle := UInt64.le_trans (hs₀.sound.wellKept.nodeId_le _ hmem)
      (counters_le_of_history hs₀ hhistory).1
    exact hahead _ hle rfl
  · intro link hlink linkEnd hend
    refine (Graph.danglingLink_mem_validate_iff hkept.nodup_nodeIds).mpr ⟨link, hlink, rfl, ?_⟩
    rw [← hend] at hnew ⊢
    exact .missing hnew
  · intro linkId linkEnd reason
    exact Graph.danglingLink_mem_append_iff hkept.nodup_nodeIds hkept'.nodup_nodeIds rfl rfl hnew

/-- A link to a node that was removed, and two links to a node that is yet to come. -/
def waiting : IndexedGraph :=
  (((pair.connect ⟨1⟩ 0 ⟨3⟩ 0).2.connect ⟨1⟩ 0 ⟨3⟩ 1).2.removeNode ⟨2⟩).2

theorem waiting_reachable : waiting.Reachable :=
  .step (.step (.step pair_reachable (.connect _ _ _ _ _ (by decide)))
    (.connect _ _ _ _ _ (by decide))) (.removeNode _ _)

theorem validate_waiting : waiting.graph.validate =
    [.danglingLink ⟨1⟩ .target (.missingNode ⟨2⟩), .danglingLink ⟨2⟩ .target (.missingNode ⟨3⟩),
      .danglingLink ⟨3⟩ .target (.missingNode ⟨3⟩)] := by
  cbv

/-- The removed node is missed as before. The new one is met by both links that have waited for it,
one of them at an input that it does not have. -/
theorem dangling_after_addNode_waiting :
    let added := waiting.addNode (.function ⟨⟨"a.py"⟩, "h"⟩) [⟨"x", none⟩] [] .empty
    added.1 = ⟨3⟩ ∧
      .danglingLink ⟨1⟩ .target (.missingNode ⟨2⟩) ∈ added.2.graph.validate ∧
      (∀ reason, .danglingLink ⟨2⟩ .target reason ∉ added.2.graph.validate) ∧
      .danglingLink ⟨3⟩ .target (.socketOutOfRange ⟨3⟩ 1 1) ∈ added.2.graph.validate := by
  intro added
  have hlinks : waiting.graph.links =
      [⟨⟨1⟩, ⟨1⟩, 0, ⟨2⟩, 0, none⟩, ⟨⟨2⟩, ⟨1⟩, 0, ⟨3⟩, 0, none⟩, ⟨⟨3⟩, ⟨1⟩, 0, ⟨3⟩, 1, none⟩] := by
    cbv
  have hid : added.1 = ⟨3⟩ := by cbv
  have hroom : waiting.graph.lastNodeId.toNat + 1 < UInt64.size := by cbv
  obtain ⟨-, -, -, node, -, hinputs, -, -, -, hdangling⟩ :=
    dangling_after_addNode waiting_reachable hroom (Prod.ext hid rfl : added = (⟨3⟩, added.2))
  refine ⟨hid, (hdangling _ _ _).mpr (.inl ⟨by simp [validate_waiting], by decide⟩), ?_,
    (hdangling _ _ _).mpr (.inr ⟨⟨⟨3⟩, ⟨1⟩, 0, ⟨3⟩, 1, none⟩, by simp [hlinks], rfl, rfl, ?_, ?_⟩)⟩
  · intro reason hmem
    rcases (hdangling _ _ _).mp hmem with ⟨hold, hne⟩ | ⟨link, hlink, hlinkId, -, hrange, -⟩
    · exact hne (by simpa [validate_waiting] using hold)
    · simp only [hlinks, List.mem_cons, List.not_mem_nil, or_false] at hlink
      rcases hlink with rfl | rfl | rfl
      · exact absurd hlinkId (by decide)
      · simp [LinkEnd.sockets, LinkEnd.index, hinputs] at hrange
      · exact absurd hlinkId (by decide)
  · simp [LinkEnd.sockets, LinkEnd.index, hinputs]
  · simp [LinkEnd.sockets, LinkEnd.index, hinputs]

/-- A document without counters, in which a link leads ahead of the ids of the nodes. -/
def forwardDocument : Document :=
  { lastNodeId := none
    lastLinkId := none
    nodes := [⟨1, .load, ⟨"a.py", "f"⟩, [], [⟨"out", none, none, none⟩], .empty⟩]
    links := [⟨1, 1, 0, 2, 0, none⟩] }

/-- The graph of this document. -/
def forward : IndexedGraph :=
  ((empty.addNode (.load ⟨⟨"a.py"⟩, "f"⟩) [] [⟨"out", none⟩] .empty).2.connect ⟨1⟩ 0 ⟨2⟩ 0).2

/-- The next node that is added to it gets the id that the link names, and nothing dangles any
more. -/
theorem new_node_is_end_of_link :
    ofDocument forwardDocument = .ok forward ∧ forward.Reachable ∧
      let added := forward.addNode (.function ⟨⟨"a.py"⟩, "g"⟩) [⟨"x", none⟩] [] .empty
      (∃ link ∈ forward.graph.links, link.target = added.1) ∧
        forward.graph.validate = [.danglingLink ⟨1⟩ .target (.missingNode added.1)] ∧
        added.2.graph.validate = [] := by
  have hload : ofDocument forwardDocument = .ok forward := by cbv
  have hlinks : forward.graph.links = [⟨⟨1⟩, ⟨1⟩, 0, ⟨2⟩, 0, none⟩] := by cbv
  refine ⟨hload, .loaded hload, ⟨_, hlinks ▸ List.mem_singleton_self _, rfl⟩, ?_, ?_⟩ <;> cbv

end IndexedGraph

end Dataflow
