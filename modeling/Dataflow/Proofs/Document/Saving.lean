import Dataflow.Document.Conversion
import Dataflow.Proofs.Document.Texts
import Dataflow.Proofs.Graph.Store

/-! # Saved graphs

A graph is loaded from the document that it is saved as. Nothing of it is lost but the statuses:
the ids that it is rebuilt from are distinct, so none is rejected, and none of them is above the
counters, so no counter is raised.
-/

namespace Dataflow

namespace Graph

open Document

variable {g : Graph}

/-! ### Entries -/

theorem map_mapIdx_eq_map {α β γ : Type} {f : Nat → α → β} (f' : β → γ) (f'' : α → γ)
    (h : ∀ n a, f' (f n a) = f'' a) (as : List α) : (as.mapIdx f).map f' = as.map f'' :=
  List.ext_getElem (by simp) (by simp [h])

/-- What an entry keeps of a node is the node before any run. -/
theorem node_nodeEntry (g : Graph) (node : Node) :
    (g.nodeEntry node).node = { node with status := .pending } := by
  have hinputs : (g.nodeEntry node).inputs.map SocketEntry.socket = node.inputs.map id :=
    map_mapIdx_eq_map SocketEntry.socket id (fun _ _ => rfl) node.inputs
  have houtputs : (g.nodeEntry node).outputs.map SocketEntry.socket = node.outputs.map id :=
    map_mapIdx_eq_map SocketEntry.socket id (fun _ _ => rfl) node.outputs
  have hkind : (NodeType.ofKind node.kind).kind node.functionRef = node.kind := by
    rw [Node.functionRef]
    cases node.kind <;> rfl
  rw [NodeEntry.node, hinputs, houtputs, List.map_id, List.map_id]
  exact congrArg (fun kind => { node with kind := kind, status := .pending }) hkind

/-! ### Inserting -/

theorem max_le {a b c : UInt64} (ha : a ≤ c) (hb : b ≤ c) : max a b ≤ c := by
  change (if a ≤ b then b else a) ≤ c
  split
  next => exact hb
  next => exact ha

/-- Nodes with new ids are inserted behind the others, and a counter that they do not exceed bounds
the counter of the graph. -/
theorem foldlM_insertNode {nodes : List Node} {last : UInt64}
    (hnodup : (g.nodeIds ++ nodes.map Node.id).Nodup) (hlast : g.lastNodeId ≤ last)
    (hids : ∀ node ∈ nodes, node.id.value ≤ last) :
    ∃ last' ≤ last, nodes.foldlM insertNode g =
      .ok { g with nodes := g.nodes ++ nodes, lastNodeId := last' } := by
  induction nodes generalizing g with
  | nil => exact ⟨g.lastNodeId, hlast, by rw [List.append_nil]; rfl⟩
  | cons node nodes ih =>
      obtain ⟨hid, hids⟩ := List.forall_mem_cons.mp hids
      have hnew : node.id ∉ g.nodeIds := by
        intro hmem
        exact (List.disjoint_of_nodup_append hnodup) hmem List.mem_cons_self
      let g' : Graph :=
        { g with nodes := g.nodes ++ [node], lastNodeId := max g.lastNodeId node.id.value }
      have hinsert : g.insertNode node = .ok g' :=
        if_neg fun h => hnew (hasNode_eq_true.mp h)
      obtain ⟨last', hle, hrest⟩ := @ih g'
        (by simpa [nodeIds, g'] using hnodup) (max_le hlast hid) hids
      refine ⟨last', hle, ?_⟩
      rw [List.foldlM_cons, hinsert]
      change nodes.foldlM insertNode g' = _
      rw [hrest]
      simp [g']

theorem foldlM_insertLink {links : List Link} {last : UInt64}
    (hnodup : (g.linkIds ++ links.map Link.id).Nodup) (hlast : g.lastLinkId ≤ last)
    (hids : ∀ link ∈ links, link.id.value ≤ last) :
    ∃ last' ≤ last, links.foldlM insertLink g =
      .ok { g with links := g.links ++ links, lastLinkId := last' } := by
  induction links generalizing g with
  | nil => exact ⟨g.lastLinkId, hlast, by rw [List.append_nil]; rfl⟩
  | cons link links ih =>
      obtain ⟨hid, hids⟩ := List.forall_mem_cons.mp hids
      have hnew : link.id ∉ g.linkIds := by
        intro hmem
        exact (List.disjoint_of_nodup_append hnodup) hmem List.mem_cons_self
      let g' : Graph :=
        { g with links := g.links ++ [link], lastLinkId := max g.lastLinkId link.id.value }
      have hinsert : g.insertLink link = .ok g' :=
        if_neg fun h => hnew (hasLink_eq_true.mp h)
      obtain ⟨last', hle, hrest⟩ := @ih g'
        (by simpa [linkIds, g'] using hnodup) (max_le hlast hid) hids
      refine ⟨last', hle, ?_⟩
      rw [List.foldlM_cons, hinsert]
      change links.foldlM insertLink g' = _
      rw [hrest]
      simp [g']

/-! ### Loading -/

/-- A graph is loaded from the document that it is saved as, every node pending. -/
theorem ofDocument_toDocument (hg : g.WellKept) :
    ofDocument g.toDocument = .ok g.resetStatuses := by
  have hnodeIds : (g.resetStatuses.nodes.map Node.id).Nodup := by
    simpa [resetStatuses, nodeIds, Function.comp_def] using hg.nodup_nodeIds
  obtain ⟨lastNode, hlastNode, hnodes⟩ := @foldlM_insertNode Graph.empty g.resetStatuses.nodes
    g.lastNodeId hnodeIds (UInt64.zero_le) (by simpa [resetStatuses, nodeIds] using hg.nodeId_le)
  obtain ⟨lastLink, hlastLink, hlinks⟩ := @foldlM_insertLink
    { Graph.empty with nodes := g.resetStatuses.nodes, lastNodeId := lastNode } g.links
    g.lastLinkId hg.nodup_linkIds (UInt64.zero_le) (by simpa [linkIds] using hg.linkId_le)
  have hload : ofDocument g.toDocument = .ok (raiseCounters
      { Graph.empty with
        nodes := g.resetStatuses.nodes
        links := g.links
        lastNodeId := lastNode
        lastLinkId := lastLink } g.lastNodeId g.lastLinkId) := by
    simp only [ofDocument, toDocument, List.foldlM_map, node_nodeEntry, bind_eq_ok_iff,
      pure_eq_ok_iff]
    refine ⟨_, Eq.trans ?_ hnodes, _, hlinks, rfl⟩
    rw [resetStatuses, List.foldlM_map]
  rw [hload, raiseCounters]
  have hmaxNode : max lastNode g.lastNodeId = g.lastNodeId := if_pos hlastNode
  have hmaxLink : max lastLink g.lastLinkId = g.lastLinkId := if_pos hlastLink
  rw [hmaxNode, hmaxLink, resetStatuses]

/-- The document of a graph is read back from the value in memory that it is written as. -/
theorem ofJson_toDocument (g : Graph) :
    Document.ofJson g.toDocument.toJson.sorted = .ok g.toDocument := by
  have hroom : Json.Source.value.Admits 6 := trivial
  exact (reader_apply_toJson_eq_ok_iff Json.Arrangement.ascending hroom).mpr
    ⟨fun _ _ => trivial, rfl⟩

/-- Saving a graph and loading it loses nothing but the statuses, and neither does the value in
memory that its document is written as. -/
theorem saving_lossless (hg : g.Reachable) :
    ofDocument g.toDocument = .ok g.resetStatuses ∧
      Document.ofJson g.toDocument.toJson.sorted = .ok g.toDocument :=
  ⟨ofDocument_toDocument hg.wellKept, ofJson_toDocument g⟩

/-- A loaded node feeds another one, which has a value for its other input and has failed. -/
def failedPair : Graph where
  nodes :=
    [⟨⟨2⟩, .load ⟨⟨"./a.py"⟩, "f"⟩, [], [⟨"out", some "int"⟩], .empty, .succeeded⟩,
      ⟨⟨5⟩, .function ⟨⟨"b.py"⟩, "g"⟩, [⟨"x", none⟩, ⟨"y", none⟩], [⟨"out", none⟩],
        .ofList [("y", .of (.array [.object [("b", .number (.negative 0)), ("a", .null)]]))],
        .failed⟩]
  links := [⟨⟨3⟩, ⟨2⟩, 0, ⟨5⟩, 0, some "int"⟩]
  lastNodeId := 7
  lastLinkId := 3

theorem failedPair_reachable : failedPair.Reachable := by
  have hload : ofDocument failedPair.toDocument = .ok failedPair.resetStatuses := rfl
  have hfirst : ∃ g, failedPair.resetStatuses.setStatus ⟨2⟩ .succeeded = .ok g ∧
      g.setStatus ⟨5⟩ .failed = .ok failedPair := ⟨_, rfl, rfl⟩
  obtain ⟨g, hsucceeded, hfailed⟩ := hfirst
  exact .edited (.edited (.loaded hload) (.setStatus hsucceeded)) (.setStatus hfailed)

theorem saving_lossless_failedPair :
    failedPair.Reachable ∧
      ofDocument failedPair.toDocument = .ok failedPair.resetStatuses ∧
      Document.ofJson failedPair.toDocument.toJson.sorted = .ok failedPair.toDocument :=
  ⟨failedPair_reachable, saving_lossless failedPair_reachable⟩

end Graph

end Dataflow
