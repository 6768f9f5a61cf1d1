import Dataflow.Proofs.Document.Saving
import Dataflow.Proofs.IndexedGraph.Index
import Mathlib.Logic.Relation

/-! # Histories of graphs

A graph starts empty or as a document. It is changed by its operations, by the catalog, by runs, and
by being saved and loaded again. Along every such history look-ups by id find what is there, nodes
keep their order, and an id that was given to a node or a link once is never given out again.
-/

namespace Dataflow

/-- What is left stands in the order in which it stood before, and what is new comes behind. -/
def KeepsOrder (before after : List NodeId) : Prop :=
  ∃ new, (∀ id ∈ new, id ∉ before) ∧ after = before.filter (· ∈ after) ++ new

namespace KeepsOrder

variable {before after : List NodeId}

theorem of_sublist (hbefore : before.Nodup) (h : after.Sublist before) :
    KeepsOrder before after := by
  have hafter : after.Sublist (before.filter (· ∈ after)) := by
    have hfilter := h.filter (· ∈ after)
    rwa [List.filter_eq_self.mpr (by simp)] at hfilter
  have hlength : (before.filter (· ∈ after)).length ≤ after.length :=
    ((hbefore.filter _).subperm fun id hid => by simpa using (List.mem_filter.mp hid).2).length_le
  exact ⟨[], by simp, by simpa using hafter.eq_of_length_le hlength⟩

theorem concat {id : NodeId} (hid : id ∉ before) : KeepsOrder before (before ++ [id]) := by
  refine ⟨[id], by simpa using hid, ?_⟩
  rw [List.filter_eq_self.mpr]
  simp +contextual

end KeepsOrder

namespace Graph

variable {g g' : Graph}

@[simp] theorem resetStatuses_resetStatuses (g : Graph) :
    g.resetStatuses.resetStatuses = g.resetStatuses := by
  simp [resetStatuses]

@[simp] theorem nodeIds_resetStatuses (g : Graph) : g.resetStatuses.nodeIds = g.nodeIds :=
  nodeIds_map fun _ => rfl

theorem resetStatuses_of_setStatus {id : NodeId} {status : NodeStatus}
    (h : g.setStatus id status = .ok g') : g'.resetStatuses = g.resetStatuses := by
  obtain ⟨-, rfl⟩ := updateNode_eq_ok h
  rw [resetStatuses, resetStatuses, List.map_map]
  congr 1
  refine List.map_congr_left fun node _ => ?_
  rw [Function.comp_apply]
  split <;> rfl

/-- An operation that changes nothing but statuses. -/
def Marks (g g' : Graph) : Prop :=
  Edit g g' ∧ g'.resetStatuses = g.resetStatuses

theorem resetStatuses_of_marks (h : Relation.ReflTransGen Marks g g') :
    g'.resetStatuses = g.resetStatuses := by
  induction h with
  | refl => rfl
  | tail _ h ih => exact h.2.trans ih

theorem Reachable.marks (hg : g.Reachable) (h : Relation.ReflTransGen Marks g g') :
    g'.Reachable := by
  induction h with
  | refl => exact hg
  | tail _ h ih => exact ih.edited h.1

theorem Edit.keepsOrder (hg : g.WellKept) (h : Edit g g') : KeepsOrder g.nodeIds g'.nodeIds := by
  have hkept : ∀ {ids : List NodeId}, ids = g.nodeIds → KeepsOrder g.nodeIds ids :=
    fun h => .of_sublist hg.nodup_nodeIds (h ▸ .refl _)
  cases h with
  | addNode kind inputs outputs parameters hroom =>
      have hids : (g.addNode kind inputs outputs parameters).2.nodeIds =
          g.nodeIds ++ [⟨g.lastNodeId + 1⟩] := List.map_append
      exact hids ▸ .concat (hg.newNodeId_not_mem hroom)
  | @insertNode _ node h =>
      obtain ⟨hnew, hinserted⟩ := insertNode_eq_ok h
      have hids : g'.nodeIds = g.nodeIds ++ [node.id] := by rw [hinserted]; exact List.map_append
      exact hids ▸ .concat hnew
  | removeNode id => exact .of_sublist hg.nodup_nodeIds (List.eraseP_sublist.map _)
  | detachNode id => exact hkept rfl
  | connect source output target input hroom => exact hkept rfl
  | insertLink h =>
      obtain ⟨-, rfl⟩ := insertLink_eq_ok h
      exact hkept rfl
  | disconnect id => exact hkept rfl
  | setParameter h => exact hkept (nodeIds_of_updateNode (by simp) h)
  | rebind h => exact hkept (nodeIds_of_updateNode (by simp) h)
  | setStatus h => exact hkept (nodeIds_of_updateNode (by simp) h)
  | resetStatuses => exact hkept (nodeIds_resetStatuses g)

theorem counters_le_of_updateNode {id : NodeId} {change : Node → Node}
    (h : g.updateNode id change = .ok g') :
    g.lastNodeId ≤ g'.lastNodeId ∧ g.lastLinkId ≤ g'.lastLinkId := by
  obtain ⟨-, rfl⟩ := updateNode_eq_ok h
  exact ⟨UInt64.le_refl _, UInt64.le_refl _⟩

theorem Edit.counters_le (h : Edit g g') :
    g.lastNodeId ≤ g'.lastNodeId ∧ g.lastLinkId ≤ g'.lastLinkId := by
  cases h with
  | addNode kind inputs outputs parameters hroom =>
      exact ⟨UInt64.le_of_lt (WellKept.lt_succ_counter (UInt64.le_refl _) hroom), UInt64.le_refl _⟩
  | insertNode h =>
      obtain ⟨-, rfl⟩ := insertNode_eq_ok h
      exact ⟨(counter_le_max _ _).1, UInt64.le_refl _⟩
  | removeNode id => exact ⟨UInt64.le_refl _, UInt64.le_refl _⟩
  | detachNode id => exact ⟨UInt64.le_refl _, UInt64.le_refl _⟩
  | connect source output target input hroom =>
      exact ⟨UInt64.le_refl _, UInt64.le_of_lt (WellKept.lt_succ_counter (UInt64.le_refl _) hroom)⟩
  | insertLink h =>
      obtain ⟨-, rfl⟩ := insertLink_eq_ok h
      exact ⟨UInt64.le_refl _, (counter_le_max _ _).1⟩
  | disconnect id => exact ⟨UInt64.le_refl _, UInt64.le_refl _⟩
  | setParameter h => exact counters_le_of_updateNode h
  | rebind h => exact counters_le_of_updateNode h
  | setStatus h => exact counters_le_of_updateNode h
  | resetStatuses => exact ⟨UInt64.le_refl _, UInt64.le_refl _⟩

end Graph

namespace IndexedGraph

/-- One thing that happens to a graph: an operation that succeeds, a node that the catalog adds or
rebinds, the statuses of a run, or saving and loading. Counters do not run over. -/
inductive Step : IndexedGraph → IndexedGraph → Prop
  | addNode (s : IndexedGraph) (kind : NodeKind) (inputs outputs : List Socket)
      (parameters : Values) (hroom : s.graph.lastNodeId.toNat + 1 < UInt64.size) :
      Step s (s.addNode kind inputs outputs parameters).2
  | insertNode {s s' : IndexedGraph} {node : Node} (h : s.insertNode node = .ok s') : Step s s'
  | removeNode (s : IndexedGraph) (id : NodeId) : Step s (s.removeNode id).2
  | detachNode (s : IndexedGraph) (id : NodeId) : Step s (s.detachNode id).2
  | connect (s : IndexedGraph) (source : NodeId) (output : UInt64) (target : NodeId)
      (input : UInt64) (hroom : s.graph.lastLinkId.toNat + 1 < UInt64.size) :
      Step s (s.connect source output target input).2
  | insertLink {s s' : IndexedGraph} {link : Link} (h : s.insertLink link = .ok s') : Step s s'
  | disconnect (s : IndexedGraph) (id : LinkId) : Step s (s.disconnect id).2
  | setParameter {s s' : IndexedGraph} {id : NodeId} {name : String} {value : Datum}
      (h : s.setParameter id name value = .ok s') : Step s s'
  | rebind {s s' : IndexedGraph} {id : NodeId} {ref : FunctionRef} {inputs outputs : List Socket}
      (h : s.rebind id ref inputs outputs = .ok s') : Step s s'
  | setStatus {s s' : IndexedGraph} {id : NodeId} {status : NodeStatus}
      (h : s.setStatus id status = .ok s') : Step s s'
  | resetStatuses (s : IndexedGraph) : Step s s.resetStatuses
  | applyStatuses (s : IndexedGraph) (r : Report) : Step s (s.applyStatuses r)
  | addFunction {s s' : IndexedGraph} {cache : SignatureCache} {extract : Extractor Id}
      {kind : NodeKind} {parameters : Values} {id : NodeId}
      (h : (s.addFunction cache extract kind parameters).1 = .ok (id, s'))
      (hroom : s.graph.lastNodeId.toNat + 1 < UInt64.size) : Step s s'
  | rebindFunction {s s' : IndexedGraph} {cache : SignatureCache} {extract : Extractor Id}
      {id : NodeId} {ref : FunctionRef} (h : (s.rebindFunction cache extract id ref).1 = .ok s') :
      Step s s'
  | reload {s s' : IndexedGraph} (h : ofDocument s.graph.toDocument = .ok s') : Step s s'

/-- The graphs that histories lead to. -/
inductive Reachable : IndexedGraph → Prop
  | empty : Reachable .empty
  | loaded {document : Document} {s : IndexedGraph} (h : ofDocument document = .ok s) : Reachable s
  | step {s s' : IndexedGraph} (hs : Reachable s) (h : Step s s') : Reachable s'

variable {s s' : IndexedGraph}

/-! ### What a step can do -/

theorem addNode_of_addSignature {signature : Signature} {kind : NodeKind} {parameters : Values}
    {id : NodeId}
    (h : ((s.graph.addSignature signature kind parameters).map fun (id, graph) =>
      (id, (⟨graph, s.placesWith id⟩ : IndexedGraph))) = .ok (id, s')) :
    s.addNode kind signature.inputSockets signature.outputSockets parameters = (id, s') := by
  obtain ⟨⟨newId, graph⟩, hsignature, hpair⟩ := map_eq_ok_iff.mp h
  unfold Graph.addSignature at hsignature
  split at hsignature
  next => cases hsignature
  next => rw [← hpair, addNode, Except.ok.inj hsignature]

theorem addFunction_eq_ok {cache : SignatureCache} {extract : Extractor Id} {kind : NodeKind}
    {parameters : Values} {id : NodeId}
    (h : (s.addFunction cache extract kind parameters).1 = .ok (id, s')) :
    ∃ signature : Signature,
      s.addNode kind signature.inputSockets signature.outputSockets parameters = (id, s') := by
  change ((cache.signature extract kind.functionRef).1.bind fun signature =>
    s.graph.addSignature signature kind parameters).map _ = _ at h
  cases hsignature : (cache.signature extract kind.functionRef).1 with
  | error e =>
      rw [hsignature] at h
      cases h
  | ok signature =>
      rw [hsignature] at h
      exact ⟨signature, addNode_of_addSignature h⟩

theorem rebindFunction_eq_ok {cache : SignatureCache} {extract : Extractor Id} {id : NodeId}
    {ref : FunctionRef} (h : (s.rebindFunction cache extract id ref).1 = .ok s') :
    ∃ signature : Signature,
      s.rebind id ref signature.inputSockets signature.outputSockets = .ok s' := by
  unfold rebindFunction at h
  split at h
  next =>
    obtain ⟨signature, -, hrebound⟩ := bind_eq_ok_iff.mp h
    exact ⟨signature, mapError_eq_ok_iff.mp hrebound⟩
  next => cases h

/-- What setting a status keeps is kept by the statuses of a run. -/
theorem applyStatuses_preserves {motive : IndexedGraph → Prop}
    (hset : ∀ s s' id status, s.setStatus id status = .ok s' → motive s → motive s')
    (hs : motive s) (r : Report) : motive (s.applyStatuses r) := by
  refine List.foldlRecOn r.records _ hs fun s hs entry _ => ?_
  split
  next next hnext => exact hset s next _ _ hnext hs
  next => exact hs

/-- Statuses are all that a run leaves behind. -/
theorem Sound.marks_applyStatuses (hs : s.Sound) (r : Report) :
    Relation.ReflTransGen Graph.Marks s.graph (s.applyStatuses r).graph := by
  -- Statuses are set by ids, so the index has to be right at every one of them.
  let motive (t : IndexedGraph) : Prop :=
    t.Sound ∧ Relation.ReflTransGen Graph.Marks s.graph t.graph
  refine (applyStatuses_preserves (motive := motive) (fun t t' id status h ht => ?_)
    ⟨hs, .refl⟩ r).2
  have hset := ht.1.updateNode_graph h
  exact ⟨ht.1.setStatus h, ht.2.tail ⟨.setStatus hset, Graph.resetStatuses_of_setStatus hset⟩⟩

theorem Step.sound (hs : s.Sound) (h : Step s s') : s'.Sound := by
  cases h with
  | addNode kind inputs outputs parameters hroom => exact hs.addNode kind _ _ _ hroom
  | insertNode h => exact hs.insertNode h
  | removeNode id => exact hs.removeNode id
  | detachNode id => exact hs.of_nodeIds (hs.wellKept.edit (.detachNode _ id)) rfl rfl
  | connect source output target input hroom =>
      refine hs.of_nodeIds ?_ rfl rfl
      exact hs.graph_connect .. ▸ hs.wellKept.edit (.connect _ source output target input hroom)
  | insertLink h => exact hs.insertLink h
  | disconnect id => exact hs.of_nodeIds (hs.wellKept.edit (.disconnect _ id)) rfl rfl
  | setParameter h => exact hs.updateNode (by simp) h
  | rebind h => exact hs.updateNode (by simp) h
  | setStatus h => exact hs.setStatus h
  | resetStatuses => exact hs.resetStatuses
  | applyStatuses r => exact applyStatuses_preserves (fun _ _ _ _ h hs => hs.setStatus h) hs r
  | @addFunction _ _ _ kind parameters id h hroom =>
      obtain ⟨signature, hadd⟩ := addFunction_eq_ok h
      have hadded := hs.addNode kind signature.inputSockets signature.outputSockets parameters hroom
      rwa [hadd] at hadded
  | rebindFunction h =>
      obtain ⟨signature, hrebind⟩ := rebindFunction_eq_ok h
      exact hs.updateNode (by simp) hrebind
  | reload h => exact .ofDocument h

/-- A step is an operation of the graph without its index, or several that change nothing but
statuses. -/
theorem Step.graph (hs : s.Sound) (h : Step s s') :
    Graph.Edit s.graph s'.graph ∨ Relation.ReflTransGen Graph.Marks s.graph s'.graph := by
  cases h with
  | addNode kind inputs outputs parameters hroom => exact .inl (.addNode _ _ _ _ _ hroom)
  | insertNode h => exact .inl (.insertNode (hs.insertNode_graph h))
  | removeNode id => exact .inl (hs.graph_removeNode id ▸ .removeNode _ id)
  | detachNode id => exact .inl (.detachNode _ id)
  | connect source output target input hroom =>
      exact .inl (hs.graph_connect .. ▸ .connect _ _ _ _ _ hroom)
  | insertLink h =>
      obtain ⟨g, hgraph, rfl⟩ := map_eq_ok_iff.mp h
      exact .inl (.insertLink hgraph)
  | disconnect id => exact .inl (.disconnect _ id)
  | setParameter h => exact .inl (.setParameter (hs.updateNode_graph h))
  | rebind h => exact .inl (.rebind (hs.updateNode_graph h))
  | setStatus h => exact .inl (.setStatus (hs.updateNode_graph h))
  | resetStatuses => exact .inl (.resetStatuses _)
  | applyStatuses r => exact .inr (hs.marks_applyStatuses r)
  | addFunction h hroom =>
      obtain ⟨signature, hadd⟩ := addFunction_eq_ok h
      obtain rfl := congrArg Prod.snd hadd
      exact .inl (.addNode _ _ _ _ _ hroom)
  | rebindFunction h =>
      obtain ⟨signature, hrebind⟩ := rebindFunction_eq_ok h
      exact .inl (.rebind (hs.updateNode_graph hrebind))
  | reload h =>
      -- What is loaded is what was saved, with every node pending.
      have hreset := Except.ok.inj
        ((Graph.ofDocument_toDocument hs.wellKept).symm.trans (Sound.ofDocument_graph h))
      exact .inr (.single (hreset ▸ ⟨.resetStatuses _, Graph.resetStatuses_resetStatuses _⟩))

/-! ### Whole histories -/

theorem Reachable.sound (hs : s.Reachable) : s.Sound := by
  induction hs with
  | empty => exact .empty
  | loaded h => exact .ofDocument h
  | step _ h ih => exact h.sound ih

/-- What holds of graphs that can come about without an index holds of those with one. -/
theorem Reachable.graph (hs : s.Reachable) : s.graph.Reachable := by
  induction hs with
  | empty => exact .empty
  | loaded h => exact .loaded (Sound.ofDocument_graph h)
  | step hs h ih =>
      rcases h.graph hs.sound with hedit | hmarks
      · exact ih.edited hedit
      · exact ih.marks hmarks

theorem Reachable.history (hs : s.Reachable) (h : Relation.ReflTransGen Step s s') :
    s'.Reachable := by
  induction h with
  | refl => exact hs
  | tail _ h ih => exact ih.step h

theorem Step.keepsOrder (hs : s.Sound) (h : Step s s') :
    KeepsOrder s.graph.nodeIds s'.graph.nodeIds := by
  rcases h.graph hs with hedit | hmarks
  · exact hedit.keepsOrder hs.wellKept
  · have hids := congrArg Graph.nodeIds (Graph.resetStatuses_of_marks hmarks)
    rw [Graph.nodeIds_resetStatuses, Graph.nodeIds_resetStatuses] at hids
    exact .of_sublist hs.wellKept.nodup_nodeIds (hids ▸ .refl _)

/-- Whatever has happened to a graph, ids are distinct and not above the counters, what is looked up
by an id is what is there, and the next step leaves the nodes in their order. -/
theorem lookups_exact (hs : s.Reachable) :
    s.graph.nodeIds.Nodup ∧ s.graph.linkIds.Nodup ∧
      (∀ id ∈ s.graph.nodeIds, id.value ≤ s.graph.lastNodeId) ∧
      (∀ id ∈ s.graph.linkIds, id.value ≤ s.graph.lastLinkId) ∧
      (∀ id : NodeId,
        (∀ node, s.node? id = some node ↔ node ∈ s.graph.nodes ∧ node.id = id) ∧
        (∀ place, s.position? id = some place ↔ s.graph.nodeIds[place]? = some id) ∧
        (s.hasNode id = true ↔ id ∈ s.graph.nodeIds)) ∧
      ∀ s', Step s s' → KeepsOrder s.graph.nodeIds s'.graph.nodeIds :=
  have hsound := hs.sound
  ⟨hsound.wellKept.nodup_nodeIds, hsound.wellKept.nodup_linkIds, hsound.wellKept.nodeId_le,
    hsound.wellKept.linkId_le,
    fun id => ⟨fun _ => hsound.node?_eq_some_iff, hsound.indexes id, hsound.indexes.contains_iff⟩,
    fun _ h => h.keepsOrder hsound⟩

/-- A node and another one that it feeds. -/
def pair : IndexedGraph :=
  let first := (empty.addNode (.load ⟨⟨"a.py"⟩, "f"⟩) [] [⟨"out", none⟩] .empty).2
  let second := (first.addNode (.function ⟨⟨"a.py"⟩, "g"⟩) [⟨"x", none⟩] [] .empty).2
  (second.connect ⟨1⟩ 0 ⟨2⟩ 0).2

theorem pair_reachable : pair.Reachable :=
  .step (.step (.step .empty (.addNode _ _ _ _ _ (by decide))) (.addNode _ _ _ _ _ (by decide)))
    (.connect _ _ _ _ _ (by decide))

/-- The second node moves up when the first one is removed. -/
theorem lookups_exact_pair_without_first :
    let s := (pair.removeNode ⟨1⟩).2
    s.Reachable ∧ s.graph.nodeIds = [⟨2⟩] ∧ s.graph.nodeIds.Nodup ∧
      s.position? ⟨1⟩ = none ∧ s.position? ⟨2⟩ = some 0 ∧
      s.hasNode ⟨1⟩ = false ∧ s.hasNode ⟨2⟩ = true ∧
      KeepsOrder s.graph.nodeIds s.resetStatuses.graph.nodeIds := by
  intro s
  have hs : s.Reachable := .step pair_reachable (.removeNode _ _)
  have hids : s.graph.nodeIds = [⟨2⟩] := by
    rw [pair_reachable.sound.graph_removeNode]
    rfl
  obtain ⟨hnodup, -, -, -, hlook, horder⟩ := lookups_exact hs
  obtain ⟨-, hfirst, hhasFirst⟩ := hlook ⟨1⟩
  obtain ⟨-, hsecond, hhasSecond⟩ := hlook ⟨2⟩
  rw [hids] at hhasFirst hhasSecond
  refine ⟨hs, hids, hnodup, ?_, (hsecond 0).mpr (by rw [hids]; rfl), ?_, ?_,
    horder _ (.resetStatuses s)⟩
  · refine Option.eq_none_iff_forall_ne_some.mpr fun place hplace => ?_
    have hmem := List.mem_of_getElem? ((hfirst place).mp hplace)
    rw [hids] at hmem
    exact absurd hmem (by decide)
  · exact Bool.eq_false_iff.mpr fun h => absurd (hhasFirst.mp h) (by decide)
  · exact hhasSecond.mpr (by decide)

theorem Step.counters_le (hs : s.Sound) (h : Step s s') :
    s.graph.lastNodeId ≤ s'.graph.lastNodeId ∧ s.graph.lastLinkId ≤ s'.graph.lastLinkId := by
  rcases h.graph hs with hedit | hmarks
  · exact hedit.counters_le
  · have hnodes := congrArg Graph.lastNodeId (Graph.resetStatuses_of_marks hmarks)
    have hlinks := congrArg Graph.lastLinkId (Graph.resetStatuses_of_marks hmarks)
    exact ⟨UInt64.le_of_eq hnodes.symm, UInt64.le_of_eq hlinks.symm⟩

/-- Counters never go down, whatever is removed, saved and loaded in between. -/
theorem counters_le_of_history (hs : s.Reachable) (h : Relation.ReflTransGen Step s s') :
    s.graph.lastNodeId ≤ s'.graph.lastNodeId ∧ s.graph.lastLinkId ≤ s'.graph.lastLinkId := by
  induction h with
  | refl => exact ⟨UInt64.le_refl _, UInt64.le_refl _⟩
  | tail hbefore h ih =>
      obtain ⟨hnode, hlink⟩ := h.counters_le (hs.history hbefore).sound
      exact ⟨UInt64.le_trans ih.1 hnode, UInt64.le_trans ih.2 hlink⟩

/-- A new node has a higher id than every node that the graph has held at any time before, and so
has a new link. -/
theorem new_ids_above_history (hs : s.Reachable) (h : Relation.ReflTransGen Step s s') :
    (s'.graph.lastNodeId.toNat + 1 < UInt64.size →
      ∀ kind inputs outputs parameters, ∀ id ∈ s.graph.nodeIds,
        id.value < (s'.addNode kind inputs outputs parameters).1.value) ∧
    (s'.graph.lastLinkId.toNat + 1 < UInt64.size →
      ∀ source output target input, ∀ id ∈ s.graph.linkIds,
        id.value < (s'.connect source output target input).1.value) := by
  obtain ⟨hnode, hlink⟩ := counters_le_of_history hs h
  have hkept := hs.sound.wellKept
  constructor
  · intro hroom _ _ _ _ id hid
    have hle := UInt64.le_trans (hkept.nodeId_le id hid) hnode
    exact Graph.WellKept.lt_succ_counter hle hroom
  · intro hroom _ _ _ _ id hid
    have hle := UInt64.le_trans (hkept.linkId_le id hid) hlink
    exact Graph.WellKept.lt_succ_counter hle hroom

/-- The second node and the link to it are removed, and the graph is saved and loaded. Their ids are
not given out again. -/
theorem new_ids_above_history_pair :
    let removed := ((pair.removeNode ⟨2⟩).2.disconnect ⟨1⟩).2
    ∃ s, ofDocument removed.graph.toDocument = .ok s ∧
      s.graph.nodeIds = [⟨1⟩] ∧ s.graph.linkIds = [] ∧
      (s.addNode (.load ⟨⟨"b.py"⟩, "h"⟩) [] [] .empty).1 = ⟨3⟩ ∧
      (s.connect ⟨1⟩ 0 ⟨1⟩ 0).1 = ⟨2⟩ ∧
      (∀ id ∈ pair.graph.nodeIds,
        id.value < (s.addNode (.load ⟨⟨"b.py"⟩, "h"⟩) [] [] .empty).1.value) ∧
      ∀ id ∈ pair.graph.linkIds, id.value < (s.connect ⟨1⟩ 0 ⟨1⟩ 0).1.value := by
  intro removed
  have hsteps : Relation.ReflTransGen Step pair removed :=
    .tail (.single (.removeNode _ _)) (.disconnect _ _)
  have hkept := (pair_reachable.history hsteps).sound.wellKept
  obtain ⟨s, hload, hgraph⟩ := map_eq_ok_iff.mp
    ((Sound.map_ofDocument _).trans (Graph.ofDocument_toDocument hkept))
  have hgraph : s.graph = ((pair.graph.removeNode ⟨2⟩).2.disconnect ⟨1⟩).2.resetStatuses := by
    rw [hgraph, ← pair_reachable.sound.graph_removeNode]
    rfl
  obtain ⟨hnode, hlink⟩ := new_ids_above_history pair_reachable (hsteps.tail (.reload hload))
  refine ⟨s, hload, by rw [hgraph]; rfl, by rw [hgraph]; rfl, ?_, ?_,
    hnode (by rw [hgraph]; decide) _ _ _ _, hlink (by rw [hgraph]; decide) _ _ _ _⟩
  · change (⟨s.graph.lastNodeId + 1⟩ : NodeId) = ⟨3⟩
    rw [hgraph]
    rfl
  · change (⟨s.graph.lastLinkId + 1⟩ : LinkId) = ⟨2⟩
    rw [hgraph]
    rfl

end IndexedGraph

end Dataflow
