import Dataflow.Proofs.Graph.Defects
import Dataflow.Proofs.Graph.Stages

/-! # Parts of a graph

A part of a graph has some of its nodes and links, in their order. Its paths are paths of the graph.
So a part of a graph without defects can only have links that miss an end, and where none does, no
node is in a later stage of the part than of the graph.
-/

namespace Dataflow

open Relation

theorem StepsTo.mono {α : Type} {r r' : α → α → Prop} (h : ∀ a b, r a b → r' a b) {n : Nat} {a : α}
    (hsteps : StepsTo r n a) : StepsTo r' n a :=
  hsteps.map (f := id) h

/-- The end at which a link meets a node. -/
def Link.endAt (link : Link) (id : NodeId) : LinkEnd :=
  if link.source = id then .source else .target

namespace Graph

/-- Some nodes and some links of a graph, in their order. -/
structure PartOf (part g : Graph) : Prop where
  nodes : part.nodes.Sublist g.nodes
  links : part.links.Sublist g.links

/-- A graph has stages and so has another one, in which no node is in a later stage. -/
def StagedNoLater (g g' : Graph) : Prop :=
  ∃ before after, g.staging = .ok before ∧ g'.staging = .ok after ∧
    ∀ id ∈ g'.nodeIds, ∃ i j,
      before.stageOf? id = some i ∧ after.stageOf? id = some j ∧ j ≤ i

variable {g part : Graph}

theorem Feeds.ne_of_acyclic (hacyclic : ∀ id, ¬ TransGen g.Feeds id id) {a b : NodeId}
    (h : g.Feeds a b) : a ≠ b := by
  rintro rfl
  exact hacyclic a (.single h)

theorem StagedBy.exists_stageOf? {s : Staging} (hs : g.StagedBy s) {id : NodeId}
    (hid : id ∈ g.nodeIds) :
    ∃ i, s.stageOf? id = some i ∧ IsGreatest {n | StepsTo g.Feeds n id} i := by
  obtain ⟨i, ids, hi, hmem⟩ := hs.exists_stage hid
  exact ⟨i, hs.stageOf? hi hmem, hs.depth i ids hi id hmem⟩

namespace PartOf

theorem trans {g' : Graph} (h : part.PartOf g') (h' : g'.PartOf g) : part.PartOf g :=
  ⟨h.nodes.trans h'.nodes, h.links.trans h'.links⟩

theorem nodeIds (h : part.PartOf g) : part.nodeIds.Sublist g.nodeIds :=
  h.nodes.map Node.id

theorem feeds (h : part.PartOf g) (a b : NodeId) (hfeeds : part.Feeds a b) : g.Feeds a b := by
  obtain ⟨ha, hb, link, hlink, hsource, htarget⟩ := hfeeds
  exact ⟨h.nodeIds.subset ha, h.nodeIds.subset hb, link, h.links.subset hlink, hsource, htarget⟩

theorem acyclic (h : part.PartOf g) (hacyclic : ∀ id, ¬ TransGen g.Feeds id id) (id : NodeId) :
    ¬ TransGen part.Feeds id id :=
  fun hcycle => hacyclic id (TransGen.mono h.feeds id id hcycle)

theorem writers (h : part.PartOf g) (hwriters : (g.links.map Link.slot).Nodup) :
    (part.links.map Link.slot).Nodup :=
  hwriters.sublist (h.links.map _)

/-- A node that a part has under an id is the one that the graph has. -/
theorem mem_nodes (h : part.PartOf g) (hg : g.nodeIds.Nodup) {node : Node} (hnode : node ∈ g.nodes)
    (hid : node.id ∈ part.nodeIds) : node ∈ part.nodes := by
  obtain ⟨other, hother, heq⟩ := List.mem_map.mp hid
  exact List.inj_on_of_nodup_map hg (h.nodes.subset hother) hnode heq ▸ hother

theorem hasOutput (h : part.PartOf g) (hg : g.nodeIds.Nodup) {id : NodeId} {output : UInt64}
    (hid : id ∈ part.nodeIds) (houtput : g.HasOutput id output) : part.HasOutput id output := by
  obtain ⟨node, hnode, rfl, hlt⟩ := houtput
  exact ⟨node, h.mem_nodes hg hnode hid, rfl, hlt⟩

theorem hasInput (h : part.PartOf g) (hg : g.nodeIds.Nodup) {id : NodeId} {input : UInt64}
    (hid : id ∈ part.nodeIds) (hinput : g.HasInput id input) : part.HasInput id input := by
  obtain ⟨node, hnode, rfl, hlt⟩ := hinput
  exact ⟨node, h.mem_nodes hg hnode hid, rfl, hlt⟩

/-- A part without defects is one in which every link has kept the nodes at its ends. -/
theorem valid (h : part.PartOf g) (hg : g.nodeIds.Nodup) (hvalid : g.Valid)
    (hends : ∀ link ∈ part.links, link.source ∈ part.nodeIds ∧ link.target ∈ part.nodeIds) :
    part.Valid where
  ends link hlink := by
    obtain ⟨houtput, hinput⟩ := hvalid.ends link (h.links.subset hlink)
    obtain ⟨hsource, htarget⟩ := hends link hlink
    exact ⟨h.hasOutput hg hsource houtput, h.hasInput hg htarget hinput⟩
  writers := h.writers hvalid.writers
  acyclic := h.acyclic hvalid.acyclic

/-- The longest path to a node in a part is a path to it in the graph. -/
theorem stagedNoLater (h : part.PartOf g) (hg : g.nodeIds.Nodup) (hvalid : g.Valid)
    (hpart : part.Valid) : g.StagedNoLater part := by
  have hnodup : part.nodeIds.Nodup := hg.sublist h.nodeIds
  have hbefore := stagedBy_layering hg hvalid.acyclic
  have hafter := stagedBy_layering hnodup hpart.acyclic
  refine ⟨_, _, (staging_eq_ok_iff hg).mpr ⟨hvalid, rfl⟩,
    (staging_eq_ok_iff hnodup).mpr ⟨hpart, rfl⟩, fun id hid => ?_⟩
  obtain ⟨i, hi, hlongest⟩ := hbefore.exists_stageOf? (h.nodeIds.subset hid)
  obtain ⟨j, hj, hdepth⟩ := hafter.exists_stageOf? hid
  exact ⟨i, j, hi, hj, hlongest.2 (StepsTo.mono h.feeds hdepth.1)⟩

end PartOf

/-! ### Taking links away -/

theorem disconnect_partOf (g : Graph) (id : LinkId) : (g.disconnect id).2.PartOf g :=
  ⟨.refl _, List.eraseP_sublist⟩

theorem detachNode_partOf (g : Graph) (id : NodeId) : (g.detachNode id).2.PartOf g :=
  ⟨.refl _, List.filter_sublist⟩

/-- Without some of its links a graph has no more defects than with them. -/
theorem PartOf.valid_of_nodes (h : part.PartOf g) (hg : g.nodeIds.Nodup) (hvalid : g.Valid)
    (hnodes : part.nodes = g.nodes) : part.Valid := by
  have hids : part.nodeIds = g.nodeIds := congrArg (List.map Node.id) hnodes
  refine h.valid hg hvalid fun link hlink => ?_
  obtain ⟨hsource, htarget, -⟩ := hvalid.feeds (h.links.subset hlink)
  exact hids ▸ ⟨hsource, htarget⟩

/-! ### Taking a node away -/

theorem removeNode_partOf (g : Graph) (id : NodeId) : (g.removeNode id).2.PartOf g :=
  ⟨List.eraseP_sublist, .refl _⟩

theorem mem_nodeIds_removeNode (hg : g.nodeIds.Nodup) {id other : NodeId} :
    other ∈ (g.removeNode id).2.nodeIds ↔ other ∈ g.nodeIds ∧ other ≠ id := by
  have hids : (g.removeNode id).2.nodeIds = g.nodeIds.erase id := by
    rw [nodeIds, nodeIds, removeNode, List.erase_eq_eraseP', List.eraseP_map]
    congr 1
  rw [hids, hg.mem_erase_iff, and_comm]

/-- A node to which no link leads, and from which none does, is missed nowhere. -/
theorem valid_removeNode (hg : g.nodeIds.Nodup) (hvalid : g.Valid) {id : NodeId}
    (hfree : ∀ link ∈ g.links, link.touches id = false) : (g.removeNode id).2.Valid := by
  refine (g.removeNode_partOf id).valid hg hvalid fun link hlink => ?_
  obtain ⟨hsource, htarget, -⟩ := hvalid.feeds hlink
  have hends : link.source ≠ id ∧ link.target ≠ id := by
    simpa [Link.touches] using hfree link hlink
  exact ⟨(mem_nodeIds_removeNode hg).mpr ⟨hsource, hends.1⟩,
    (mem_nodeIds_removeNode hg).mpr ⟨htarget, hends.2⟩⟩

/-- An end of a link dangles without a node just when it names the node. -/
theorem danglingEnd?_removeNode (hg : g.nodeIds.Nodup) (hvalid : g.Valid) (id : NodeId)
    {link : Link} (hlink : link ∈ g.links) (linkEnd : LinkEnd) :
    (g.removeNode id).2.danglingEnd? link linkEnd =
      if linkEnd.node link = id then some (.missingNode id) else none := by
  have hpart := g.removeNode_partOf id
  have hnodup : (g.removeNode id).2.nodeIds.Nodup := hg.sublist hpart.nodeIds
  obtain ⟨houtput, hinput⟩ := hvalid.ends link hlink
  obtain ⟨hsource, htarget, -⟩ := hvalid.feeds hlink
  by_cases hid : linkEnd.node link = id
  · subst hid
    rw [if_pos rfl, danglingEnd?_eq_some_iff hnodup]
    exact .missing fun hmem => ((mem_nodeIds_removeNode hg).mp hmem).2 rfl
  · rw [if_neg hid, danglingEnd?, dangling?_eq_none_iff hnodup]
    cases linkEnd with
    | source =>
        exact hpart.hasOutput hg ((mem_nodeIds_removeNode hg).mpr ⟨hsource, hid⟩) houtput
    | target =>
        exact hpart.hasInput hg ((mem_nodeIds_removeNode hg).mpr ⟨htarget, hid⟩) hinput

/-- A link of a graph without cycles that touches a node meets it at one end. -/
theorem danglingEnds_removeNode (hg : g.nodeIds.Nodup) (hvalid : g.Valid) (id : NodeId)
    {link : Link} (hlink : link ∈ g.links) :
    (g.removeNode id).2.danglingEnds link =
      if link.touches id then [.danglingLink link.id (link.endAt id) (.missingNode id)]
      else [] := by
  have hne := Feeds.ne_of_acyclic hvalid.acyclic (hvalid.feeds hlink)
  rw [danglingEnds_eq]
  simp only [danglingEnd?_removeNode hg hvalid id hlink, Link.touches, Link.endAt, LinkEnd.node]
  by_cases hsource : link.source = id
  · have htarget : link.target ≠ id := fun heq => hne (hsource.trans heq.symm)
    simp [hsource, htarget]
  · by_cases htarget : link.target = id <;> simp [hsource, htarget]

/-- Without a node all links that touched it dangle where they did, and nothing else is wrong. -/
theorem validate_removeNode (hg : g.nodeIds.Nodup) (hvalid : g.Valid) (id : NodeId) :
    (g.removeNode id).2.validate = (g.links.filter (·.touches id)).map fun link =>
      .danglingLink link.id (link.endAt id) (.missingNode id) := by
  have hpart := g.removeNode_partOf id
  rw [validate_eq_flatMap_danglingEnds (hg.sublist hpart.nodeIds) (hpart.writers hvalid.writers)
    (hpart.acyclic hvalid.acyclic)]
  change g.links.flatMap _ = _
  rw [List.flatMap_congr fun link hlink => danglingEnds_removeNode hg hvalid id hlink]
  induction g.links with
  | nil => rfl
  | cons link links ih => cases htouches : link.touches id <;> simp [htouches, ih]

end Graph

end Dataflow
