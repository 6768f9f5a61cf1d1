import Dataflow.Document.Conversion
import Dataflow.Proofs.Failure
import Mathlib.Data.List.Nodup

/-! # Graphs that can come about

A graph starts empty or as a document and is changed by its operations only. Whatever they are, ids
stay distinct and below the counters they are taken from.
-/

namespace Dataflow

namespace Graph

/-- One operation that changes a graph. Counters do not run over. The catalog and the runs use no
other operations than these. -/
inductive Edit : Graph → Graph → Prop
  | addNode (g : Graph) (kind : NodeKind) (inputs outputs : List Socket) (parameters : Values)
      (hroom : g.lastNodeId.toNat + 1 < UInt64.size) :
      Edit g (g.addNode kind inputs outputs parameters).2
  | insertNode {g g' : Graph} {node : Node} (h : g.insertNode node = .ok g') : Edit g g'
  | removeNode (g : Graph) (id : NodeId) : Edit g (g.removeNode id).2
  | detachNode (g : Graph) (id : NodeId) : Edit g (g.detachNode id).2
  | connect (g : Graph) (source : NodeId) (output : UInt64) (target : NodeId) (input : UInt64)
      (hroom : g.lastLinkId.toNat + 1 < UInt64.size) :
      Edit g (g.connect source output target input).2
  | insertLink {g g' : Graph} {link : Link} (h : g.insertLink link = .ok g') : Edit g g'
  | disconnect (g : Graph) (id : LinkId) : Edit g (g.disconnect id).2
  | setParameter {g g' : Graph} {id : NodeId} {name : String} {value : Datum}
      (h : g.setParameter id name value = .ok g') : Edit g g'
  | rebind {g g' : Graph} {id : NodeId} {ref : FunctionRef} {inputs outputs : List Socket}
      (h : g.rebind id ref inputs outputs = .ok g') : Edit g g'
  | setStatus {g g' : Graph} {id : NodeId} {status : NodeStatus}
      (h : g.setStatus id status = .ok g') : Edit g g'
  | resetStatuses (g : Graph) : Edit g g.resetStatuses

/-- The graphs that operations make of the empty graph or of a document. -/
inductive Reachable : Graph → Prop
  | empty : Reachable .empty
  | loaded {document : Document} {g : Graph} (h : ofDocument document = .ok g) : Reachable g
  | edited {g g' : Graph} (hg : Reachable g) (h : Edit g g') : Reachable g'

/-- The ids of the links in their order. -/
def linkIds (g : Graph) : List LinkId :=
  g.links.map Link.id

/-- Ids are distinct, and the counters are not below them. -/
structure WellKept (g : Graph) : Prop where
  nodup_nodeIds : g.nodeIds.Nodup
  nodup_linkIds : g.linkIds.Nodup
  nodeId_le : ∀ id ∈ g.nodeIds, id.value ≤ g.lastNodeId
  linkId_le : ∀ id ∈ g.linkIds, id.value ≤ g.lastLinkId

theorem hasNode_eq_true {g : Graph} {id : NodeId} : g.hasNode id = true ↔ id ∈ g.nodeIds := by
  simp [hasNode, nodeIds]

theorem hasLink_eq_true {g : Graph} {id : LinkId} : g.hasLink id = true ↔ id ∈ g.linkIds := by
  simp [hasLink, linkIds]

/-- An update that keeps ids keeps everything but nodes. -/
theorem updateNode_eq_ok {g g' : Graph} {id : NodeId} {change : Node → Node}
    (h : g.updateNode id change = .ok g') :
    id ∈ g.nodeIds ∧ g' = { g with
      nodes := g.nodes.map fun node => if node.id = id then change node else node } := by
  unfold updateNode at h
  split at h
  next hnode => exact ⟨hasNode_eq_true.mp hnode, (Except.ok.inj h).symm⟩
  next => cases h

theorem insertNode_eq_ok {g g' : Graph} {node : Node} (h : g.insertNode node = .ok g') :
    node.id ∉ g.nodeIds ∧
      g' = { g with
        nodes := g.nodes ++ [node]
        lastNodeId := max g.lastNodeId node.id.value } := by
  unfold insertNode at h
  split at h
  next => cases h
  next hnew => exact ⟨fun hmem => hnew (hasNode_eq_true.mpr hmem), (Except.ok.inj h).symm⟩

theorem insertLink_eq_ok {g g' : Graph} {link : Link} (h : g.insertLink link = .ok g') :
    link.id ∉ g.linkIds ∧
      g' = { g with
        links := g.links ++ [link]
        lastLinkId := max g.lastLinkId link.id.value } := by
  unfold insertLink at h
  split at h
  next => cases h
  next hnew => exact ⟨fun hmem => hnew (hasLink_eq_true.mpr hmem), (Except.ok.inj h).symm⟩

theorem nodeIds_map {g : Graph} {f : Node → Node} (hf : ∀ node, (f node).id = node.id) :
    ({ g with nodes := g.nodes.map f } : Graph).nodeIds = g.nodeIds := by
  simp [nodeIds, hf]

theorem nodeIds_of_updateNode {g g' : Graph} {id : NodeId} {change : Node → Node}
    (hchange : ∀ node, (change node).id = node.id) (h : g.updateNode id change = .ok g') :
    g'.nodeIds = g.nodeIds := by
  obtain ⟨-, rfl⟩ := updateNode_eq_ok h
  refine nodeIds_map fun node => ?_
  split
  next => exact hchange node
  next => rfl

theorem counter_le_max (a b : UInt64) : a ≤ max a b ∧ b ≤ max a b := by
  change a ≤ (if a ≤ b then b else a) ∧ b ≤ (if a ≤ b then b else a)
  split
  next h => exact ⟨h, UInt64.le_refl _⟩
  next h => exact ⟨UInt64.le_refl _, UInt64.le_of_lt (UInt64.not_le.mp h)⟩

namespace WellKept

theorem empty : WellKept .empty :=
  ⟨List.nodup_nil, List.nodup_nil, by simp [nodeIds, Graph.empty], by simp [linkIds, Graph.empty]⟩

/-- Whatever takes ids away, or raises counters, keeps a graph well kept. -/
theorem of_sublist {g g' : Graph} (hg : g.WellKept) (hnodes : g'.nodeIds.Sublist g.nodeIds)
    (hlinks : g'.linkIds.Sublist g.linkIds) (hlastNode : g.lastNodeId ≤ g'.lastNodeId)
    (hlastLink : g.lastLinkId ≤ g'.lastLinkId) : g'.WellKept where
  nodup_nodeIds := hg.nodup_nodeIds.sublist hnodes
  nodup_linkIds := hg.nodup_linkIds.sublist hlinks
  nodeId_le id hid := UInt64.le_trans (hg.nodeId_le id (hnodes.subset hid)) hlastNode
  linkId_le id hid := UInt64.le_trans (hg.linkId_le id (hlinks.subset hid)) hlastLink

theorem of_map {g : Graph} (hg : g.WellKept) {f : Node → Node}
    (hf : ∀ node, (f node).id = node.id) : WellKept { g with nodes := g.nodes.map f } :=
  hg.of_sublist (by rw [nodeIds_map hf]) (.refl _) (UInt64.le_refl _) (UInt64.le_refl _)

/-- A node with a new id may come last. -/
theorem append_node {g : Graph} (hg : g.WellKept) {node : Node} {last : UInt64}
    (hnew : node.id ∉ g.nodeIds) (hid : node.id.value ≤ last) (hlast : g.lastNodeId ≤ last) :
    WellKept { g with nodes := g.nodes ++ [node], lastNodeId := last } where
  nodup_nodeIds := by
    simpa [nodeIds, List.nodup_append] using
      ⟨hg.nodup_nodeIds, fun other hother heq => hnew (heq ▸ List.mem_map_of_mem hother)⟩
  nodup_linkIds := hg.nodup_linkIds
  nodeId_le id hmem := by
    simp only [nodeIds, List.map_append, List.map_cons, List.map_nil, List.mem_append,
      List.mem_singleton] at hmem
    rcases hmem with hmem | rfl
    · exact UInt64.le_trans (hg.nodeId_le id hmem) hlast
    · exact hid
  linkId_le := hg.linkId_le

/-- A link with a new id may come last. -/
theorem append_link {g : Graph} (hg : g.WellKept) {link : Link} {last : UInt64}
    (hnew : link.id ∉ g.linkIds) (hid : link.id.value ≤ last) (hlast : g.lastLinkId ≤ last) :
    WellKept { g with links := g.links ++ [link], lastLinkId := last } where
  nodup_nodeIds := hg.nodup_nodeIds
  nodup_linkIds := by
    simpa [linkIds, List.nodup_append] using
      ⟨hg.nodup_linkIds, fun other hother heq => hnew (heq ▸ List.mem_map_of_mem hother)⟩
  nodeId_le := hg.nodeId_le
  linkId_le id hmem := by
    simp only [linkIds, List.map_append, List.map_cons, List.map_nil, List.mem_append,
      List.mem_singleton] at hmem
    rcases hmem with hmem | rfl
    · exact UInt64.le_trans (hg.linkId_le id hmem) hlast
    · exact hid

theorem insertNode {g g' : Graph} (hg : g.WellKept) {node : Node}
    (h : g.insertNode node = .ok g') : g'.WellKept := by
  obtain ⟨hnew, rfl⟩ := insertNode_eq_ok h
  exact hg.append_node hnew (counter_le_max _ _).2 (counter_le_max _ _).1

theorem insertLink {g g' : Graph} (hg : g.WellKept) {link : Link}
    (h : g.insertLink link = .ok g') : g'.WellKept := by
  obtain ⟨hnew, rfl⟩ := insertLink_eq_ok h
  exact hg.append_link hnew (counter_le_max _ _).2 (counter_le_max _ _).1

theorem updateNode {g g' : Graph} (hg : g.WellKept) {id : NodeId} {change : Node → Node}
    (hchange : ∀ node, (change node).id = node.id) (h : g.updateNode id change = .ok g') :
    g'.WellKept := by
  obtain ⟨-, rfl⟩ := updateNode_eq_ok h
  refine hg.of_map fun node => ?_
  split
  · exact hchange node
  · rfl

/-- A counter that does not run over is above all ids once it is raised. -/
theorem lt_succ_counter {id last : UInt64} (hle : id ≤ last)
    (hroom : last.toNat + 1 < UInt64.size) : id < last + 1 := by
  have hsucc : (last + 1).toNat = last.toNat + 1 := by
    rw [UInt64.toNat_add]
    exact Nat.mod_eq_of_lt hroom
  have := UInt64.le_iff_toNat_le.mp hle
  rw [UInt64.lt_iff_toNat_lt]
  omega

theorem newNodeId_not_mem {g : Graph} (hg : g.WellKept)
    (hroom : g.lastNodeId.toNat + 1 < UInt64.size) : ⟨g.lastNodeId + 1⟩ ∉ g.nodeIds :=
  fun hmem => UInt64.lt_irrefl _ (lt_succ_counter (hg.nodeId_le _ hmem) hroom)

theorem newLinkId_not_mem {g : Graph} (hg : g.WellKept)
    (hroom : g.lastLinkId.toNat + 1 < UInt64.size) : ⟨g.lastLinkId + 1⟩ ∉ g.linkIds :=
  fun hmem => UInt64.lt_irrefl _ (lt_succ_counter (hg.linkId_le _ hmem) hroom)

theorem edit {g g' : Graph} (hg : g.WellKept) (h : Edit g g') : g'.WellKept := by
  cases h with
  | addNode kind inputs outputs parameters hroom =>
      have hlt := lt_succ_counter (UInt64.le_refl g.lastNodeId) hroom
      exact hg.append_node (hg.newNodeId_not_mem hroom) (UInt64.le_refl _) (UInt64.le_of_lt hlt)
  | insertNode h => exact hg.insertNode h
  | removeNode id =>
      exact hg.of_sublist (List.eraseP_sublist.map _) (.refl _) (UInt64.le_refl _)
        (UInt64.le_refl _)
  | detachNode id =>
      exact hg.of_sublist (.refl _) (List.filter_sublist.map _) (UInt64.le_refl _)
        (UInt64.le_refl _)
  | connect source output target input hroom =>
      have hlt := lt_succ_counter (UInt64.le_refl g.lastLinkId) hroom
      exact hg.append_link (hg.newLinkId_not_mem hroom) (UInt64.le_refl _) (UInt64.le_of_lt hlt)
  | insertLink h => exact hg.insertLink h
  | disconnect id =>
      exact hg.of_sublist (.refl _) (List.eraseP_sublist.map _) (UInt64.le_refl _)
        (UInt64.le_refl _)
  | setParameter h => exact hg.updateNode (by simp) h
  | rebind h => exact hg.updateNode (by simp) h
  | setStatus h => exact hg.updateNode (by simp) h
  | resetStatuses => exact hg.of_map (by simp)

theorem ofDocument {document : Document} {g : Graph} (h : Graph.ofDocument document = .ok g) :
    g.WellKept := by
  simp only [Graph.ofDocument, bind_eq_ok_iff, pure_eq_ok_iff] at h
  obtain ⟨withNodes, hnodes, withLinks, hlinks, rfl⟩ := h
  have hnodes := foldlM_preserves (motive := WellKept) (fun _ _ _ _ h hg => hg.insertNode h) hnodes
    .empty
  have hlinks := foldlM_preserves (motive := WellKept) (fun _ _ _ _ h hg => hg.insertLink h) hlinks
    hnodes
  refine hlinks.of_sublist (.refl _) (.refl _) ?_ ?_
  · exact (counter_le_max _ _).1
  · exact (counter_le_max _ _).1

end WellKept

/-- Every graph that can come about has distinct ids below its counters. -/
theorem Reachable.wellKept {g : Graph} (hg : g.Reachable) : g.WellKept := by
  induction hg with
  | empty => exact .empty
  | loaded h => exact .ofDocument h
  | edited _ h ih => exact ih.edit h

/-! ### Small graphs -/

/-- The graph with one more node, which has some inputs and one output. -/
def withNode (g : Graph) (inputs : List String) : Graph :=
  (g.addNode (.function ⟨⟨"f.py"⟩, "f"⟩) (inputs.map (⟨·, none⟩)) [⟨"out", none⟩] .empty).2

/-- The graph with one more link, which starts from the first output. -/
def withLink (g : Graph) (source target : NodeId) (input : UInt64) : Graph :=
  (g.connect source 0 target input).2

theorem Reachable.withNode {g : Graph} (hg : g.Reachable) {inputs : List String}
    (hroom : g.lastNodeId.toNat + 1 < UInt64.size) : (g.withNode inputs).Reachable :=
  hg.edited (.addNode g _ _ _ _ hroom)

theorem Reachable.withLink {g : Graph} (hg : g.Reachable) {source target : NodeId} {input : UInt64}
    (hroom : g.lastLinkId.toNat + 1 < UInt64.size) : (g.withLink source target input).Reachable :=
  hg.edited (.connect g _ _ _ _ hroom)

/-- One node feeds two others, which both feed a fourth. -/
def diamond : Graph :=
  let nodes := (((empty.withNode []).withNode ["a"]).withNode ["a"]).withNode ["a", "b"]
  (((nodes.withLink ⟨1⟩ ⟨2⟩ 0).withLink ⟨1⟩ ⟨3⟩ 0).withLink ⟨2⟩ ⟨4⟩ 0).withLink ⟨3⟩ ⟨4⟩ 1

theorem diamond_reachable : diamond.Reachable := by
  iterate 4 refine Reachable.withLink ?_ (by decide)
  iterate 4 refine Reachable.withNode ?_ (by decide)
  exact .empty

end Graph

end Dataflow
