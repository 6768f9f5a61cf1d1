import Dataflow.IndexedGraph
import Dataflow.Proofs.Graph.Lookup

/-! # The index of a graph

An index is right when the place that it gives for an id is where the id stands. That stays so when
an id is put behind the others and when one is taken out, after which the ids behind it stand one
place further up. A graph with a right index is changed by its operations in the same way as a graph
in which nodes are looked for one by one.
-/

namespace Dataflow

/-- An index gives the place of every id of a list, and of no other. -/
def Indexes (places : Std.HashMap NodeId Nat) (ids : List NodeId) : Prop :=
  ∀ (id : NodeId) (place : Nat), places[id]? = some place ↔ ids[place]? = some id

namespace Indexes

variable {places : Std.HashMap NodeId Nat} {ids : List NodeId} {id : NodeId}

theorem empty : Indexes ∅ [] := by
  simp [Indexes]

/-- An id has one place only. -/
theorem nodup (h : Indexes places ids) : ids.Nodup := by
  rw [List.nodup_iff_getElem?_ne_getElem?]
  intro i j hij hj heq
  have hlast := (h ids[j] j).mpr (List.getElem?_eq_getElem hj)
  have hfirst := (h ids[j] i).mpr (heq.trans (List.getElem?_eq_getElem hj))
  rw [hlast, Option.some.injEq] at hfirst
  omega

theorem contains_iff (h : Indexes places ids) : places.contains id = true ↔ id ∈ ids := by
  rw [Std.HashMap.contains_eq_isSome_getElem?, Option.isSome_iff_exists, List.mem_iff_getElem?]
  exact exists_congr (h id)

/-- A new id may be put behind all others. -/
theorem push (h : Indexes places ids) (hnew : id ∉ ids) :
    Indexes (places.insert id ids.length) (ids ++ [id]) := by
  intro other place
  rw [Std.HashMap.getElem?_insert, List.getElem?_append]
  by_cases hother : id = other
  · subst hother
    rw [if_pos (beq_self_eq_true id), Option.some.injEq]
    constructor
    · rintro rfl
      simp
    · split
      next => exact fun hplace => absurd (List.mem_of_getElem? hplace) hnew
      next hlt =>
        intro hplace
        have := (List.getElem?_eq_some_iff.mp hplace).1
        rw [List.length_singleton] at this
        omega
  · rw [if_neg (by simpa using hother), h other place]
    split
    next => exact Iff.rfl
    next hlt =>
      rw [List.getElem?_eq_none (Nat.le_of_not_lt hlt)]
      simp [List.getElem?_singleton, hother]

/-! ### Taking an id out -/

theorem map_fst_drop_zipIdx (ids : List NodeId) (place : Nat) :
    (ids.zipIdx.drop place).map Prod.fst = ids.drop place := by
  rw [List.map_drop, List.zipIdx_map_fst]

/-- The places from one place on are noted anew. -/
theorem getElem?_renumber (hnodup : ids.Nodup) {place k : Nat} (hid : ids[place + k]? = some id) :
    (places.insertMany (ids.zipIdx.drop place))[id]? = some (place + k) := by
  have hdistinct : (ids.zipIdx.drop place).Pairwise fun a b => (a.1 == b.1) = false := by
    have hfst : ((ids.zipIdx.drop place).map Prod.fst).Nodup := by
      rw [map_fst_drop_zipIdx]
      exact hnodup.sublist (List.drop_sublist _ _)
    exact (List.pairwise_map.mp hfst).imp fun hne => beq_eq_false_iff_ne.mpr hne
  have hmem : (id, place + k) ∈ ids.zipIdx.drop place := by
    refine List.mem_of_getElem? (i := k) ?_
    rw [List.getElem?_drop, List.getElem?_zipIdx, hid]
    simp
  exact Std.HashMap.getElem?_insertMany_list_of_mem (beq_self_eq_true id) hdistinct hmem

theorem getElem?_renumber_of_not_mem {place : Nat} (hid : id ∉ ids.drop place) :
    (places.insertMany (ids.zipIdx.drop place))[id]? = places[id]? := by
  refine Std.HashMap.getElem?_insertMany_list_of_contains_eq_false ?_
  rw [map_fst_drop_zipIdx]
  simpa using hid

/-- An id that is not behind a gap stands before it, where it stood before the gap was made. -/
theorem getElem?_eraseIdx_of_not_mem {place : Nat} {other : NodeId} (hid : ids[place]? = some id)
    (hother : other ≠ id) (hbehind : other ∉ (ids.eraseIdx place).drop place) (j : Nat) :
    (ids.eraseIdx place)[j]? = some other ↔ ids[j]? = some other := by
  rcases Nat.lt_trichotomy j place with hlt | rfl | hgt
  · rw [List.getElem?_eraseIdx_of_lt hlt]
  · refine iff_of_false (fun hj => hbehind (List.mem_of_getElem? (i := 0) ?_)) ?_
    · rwa [List.getElem?_drop]
    · rw [hid, Option.some.injEq]
      exact hother.symm
  · obtain ⟨k, rfl⟩ := Nat.exists_eq_add_of_lt hgt
    refine iff_of_false (fun hj => hbehind (List.mem_of_getElem? (i := k + 1) ?_))
      fun hj => hbehind (List.mem_of_getElem? (i := k) ?_)
    · rwa [List.getElem?_drop]
    · rwa [List.getElem?_drop, List.getElem?_eraseIdx_of_ge (Nat.le_add_right _ _)]

/-- An id may be taken out when the places of all ids behind it are noted anew. -/
theorem erase (h : Indexes places ids) {place : Nat} (hid : ids[place]? = some id) :
    Indexes ((places.erase id).insertMany ((ids.eraseIdx place).zipIdx.drop place))
      (ids.eraseIdx place) := by
  intro other j
  have hrest : (ids.eraseIdx place).Nodup := h.nodup.sublist (List.eraseIdx_sublist _ _)
  -- The places behind the gap come from the new notes, those before it from the old index.
  by_cases hbehind : other ∈ (ids.eraseIdx place).drop place
  · obtain ⟨k, hk⟩ := List.mem_iff_getElem?.mp hbehind
    rw [List.getElem?_drop] at hk
    have hlt := (List.getElem?_eq_some_iff.mp hk).1
    rw [getElem?_renumber hrest hk, Option.some.injEq, ← hk]
    exact (List.getElem?_inj hlt hrest).symm.trans eq_comm
  · rw [getElem?_renumber_of_not_mem hbehind, Std.HashMap.getElem?_erase]
    by_cases hother : id = other
    · subst hother
      rw [if_pos (beq_self_eq_true id)]
      refine iff_of_false (by simp) fun hj => ?_
      obtain ⟨i, hne, hi⟩ := List.mem_eraseIdx_iff_getElem?.mp (List.mem_of_getElem? hj)
      exact hne (Option.some.inj (((h id i).mpr hi).symm.trans ((h id place).mpr hid)))
    · rw [if_neg (by simpa using hother), h other j,
        getElem?_eraseIdx_of_not_mem hid (Ne.symm hother) hbehind]

end Indexes

namespace IndexedGraph

/-- The index is right, and the ids of nodes and links are distinct and not above the counters. -/
structure Sound (s : IndexedGraph) : Prop where
  wellKept : s.graph.WellKept
  indexes : Indexes s.places s.graph.nodeIds

variable {s s' : IndexedGraph}

theorem places_of_updateNode {id : NodeId} {change : Node → Node}
    (h : s.updateNode id change = .ok s') : s'.places = s.places := by
  unfold updateNode at h
  split at h
  next => cases h
  next => cases h; rfl

namespace Sound

theorem empty : Sound .empty :=
  ⟨.empty, .empty⟩

/-! ### Looking up -/

theorem position?_eq (hs : s.Sound) (id : NodeId) : s.position? id = s.graph.position? id := by
  refine Option.ext fun place => ?_
  rw [Graph.position?_eq_some_iff hs.indexes.nodup]
  exact hs.indexes id place

theorem hasNode_eq (hs : s.Sound) (id : NodeId) : s.hasNode id = s.graph.hasNode id := by
  rw [Bool.eq_iff_iff, Graph.hasNode_eq_true]
  exact hs.indexes.contains_iff

theorem node?_eq_some_iff (hs : s.Sound) {id : NodeId} {node : Node} :
    s.node? id = some node ↔ node ∈ s.graph.nodes ∧ node.id = id := by
  simp only [node?, position?, Option.bind_eq_some_iff, hs.indexes id _, Graph.nodeIds,
    List.getElem?_map, Option.map_eq_some_iff]
  constructor
  · rintro ⟨place, ⟨found, hfound, hid⟩, hnode⟩
    obtain rfl := Option.some.inj (hfound.symm.trans hnode)
    exact ⟨List.mem_of_getElem? hnode, hid⟩
  · rintro ⟨hnode, hid⟩
    obtain ⟨place, hplace⟩ := List.mem_iff_getElem?.mp hnode
    exact ⟨place, ⟨node, hplace, hid⟩, hplace⟩

theorem node?_eq (hs : s.Sound) (id : NodeId) : s.node? id = s.graph.node? id := by
  refine Option.ext fun node => ?_
  rw [hs.node?_eq_some_iff, Graph.node?_eq_some_iff hs.indexes.nodup]

/-! ### Operations -/

theorem map_insertNode (hs : s.Sound) (node : Node) :
    (s.insertNode node).map IndexedGraph.graph = s.graph.insertNode node := by
  unfold IndexedGraph.insertNode Graph.insertNode
  rw [hs.hasNode_eq]
  split <;> rfl

theorem insertNode_graph (hs : s.Sound) {node : Node} (h : s.insertNode node = .ok s') :
    s.graph.insertNode node = .ok s'.graph := by
  rw [← hs.map_insertNode, h]
  rfl

theorem removeNode_eq (hs : s.Sound) (id : NodeId) :
    ((s.removeNode id).1, (s.removeNode id).2.graph) = s.graph.removeNode id := by
  have hplace := hs.position?_eq id
  have hnode := hs.node?_eq id
  unfold IndexedGraph.removeNode Graph.removeNode
  rw [← hnode, node?, List.eraseP_eq_eraseIdx]
  rw [Graph.position?] at hplace
  rw [← hplace]
  cases s.position? id <;> rfl

theorem graph_removeNode (hs : s.Sound) (id : NodeId) :
    (s.removeNode id).2.graph = (s.graph.removeNode id).2 :=
  congrArg Prod.snd (hs.removeNode_eq id)

/-- The node at the place of an id is the only one with that id. -/
theorem modify_eq_map (hs : s.Sound) {id : NodeId} {place : Nat}
    (hplace : s.position? id = some place) (change : Node → Node) :
    s.graph.nodes.modify place change =
      s.graph.nodes.map fun node => if node.id = id then change node else node := by
  apply List.ext_getElem?
  intro j
  rw [List.getElem?_modify, List.getElem?_map]
  cases hnode : s.graph.nodes[j]? with
  | none => rfl
  | some node =>
      have hj : s.position? node.id = some j := by
        rw [position?, hs.indexes, Graph.nodeIds, List.getElem?_map, hnode]
        rfl
      have hsame : place = j ↔ node.id = id := by
        constructor
        · rintro rfl
          rw [position?, hs.indexes] at hplace hj
          exact Option.some.inj (hj.symm.trans hplace)
        · rintro rfl
          exact Option.some.inj (hplace.symm.trans hj)
      simp only [Option.map_eq_map, Option.map_some, hsame]

theorem map_updateNode (hs : s.Sound) (id : NodeId) (change : Node → Node) :
    (s.updateNode id change).map IndexedGraph.graph = s.graph.updateNode id change := by
  unfold IndexedGraph.updateNode Graph.updateNode
  have hnode : s.graph.hasNode id = (s.position? id).isSome := by
    rw [← hs.hasNode_eq, hasNode, Std.HashMap.contains_eq_isSome_getElem?, position?]
  rw [hnode]
  cases hplace : s.position? id with
  | none => rfl
  | some place =>
      rw [← hs.modify_eq_map hplace]
      rfl

theorem updateNode_graph (hs : s.Sound) {id : NodeId} {change : Node → Node}
    (h : s.updateNode id change = .ok s') : s.graph.updateNode id change = .ok s'.graph := by
  rw [← hs.map_updateNode, h]
  rfl

theorem connect_eq (hs : s.Sound) (source : NodeId) (output : UInt64) (target : NodeId)
    (input : UInt64) :
    ((s.connect source output target input).1, (s.connect source output target input).2.graph) =
      s.graph.connect source output target input := by
  simp only [connect, Graph.connect, Graph.outputSocket?, hs.node?_eq]

theorem graph_connect (hs : s.Sound) (source : NodeId) (output : UInt64) (target : NodeId)
    (input : UInt64) :
    (s.connect source output target input).2.graph =
      (s.graph.connect source output target input).2 :=
  congrArg Prod.snd (hs.connect_eq source output target input)

theorem map_insertLink (s : IndexedGraph) (link : Link) :
    (s.insertLink link).map IndexedGraph.graph = s.graph.insertLink link := by
  unfold IndexedGraph.insertLink
  cases s.graph.insertLink link <;> rfl

/-! ### What the operations keep -/

/-- Where no node comes, goes or moves, the index may stay as it is. -/
theorem of_nodeIds (hs : s.Sound) (hgraph : s'.graph.WellKept) (hplaces : s'.places = s.places)
    (hids : s'.graph.nodeIds = s.graph.nodeIds) : s'.Sound :=
  ⟨hgraph, by rw [hplaces, hids]; exact hs.indexes⟩

theorem addNode (hs : s.Sound) (kind : NodeKind) (inputs outputs : List Socket)
    (parameters : Values) (hroom : s.graph.lastNodeId.toNat + 1 < UInt64.size) :
    (s.addNode kind inputs outputs parameters).2.Sound := by
  refine ⟨hs.wellKept.edit (.addNode _ kind inputs outputs parameters hroom), ?_⟩
  have hpush := hs.indexes.push (hs.wellKept.newNodeId_not_mem hroom)
  simpa [IndexedGraph.addNode, Graph.addNode, placesWith, Graph.nodeIds] using hpush

theorem insertNode (hs : s.Sound) {node : Node} (h : s.insertNode node = .ok s') : s'.Sound := by
  have hgraph := hs.insertNode_graph h
  refine ⟨hs.wellKept.insertNode hgraph, ?_⟩
  have hpush := hs.indexes.push (Graph.insertNode_eq_ok hgraph).1
  unfold IndexedGraph.insertNode at h
  split at h
  next => cases h
  next =>
    cases h
    simpa [placesWith, Graph.nodeIds] using hpush

theorem removeNode (hs : s.Sound) (id : NodeId) : (s.removeNode id).2.Sound := by
  refine ⟨hs.graph_removeNode id ▸ hs.wellKept.edit (.removeNode _ id), ?_⟩
  unfold IndexedGraph.removeNode
  cases hplace : s.position? id with
  | none => exact hs.indexes
  | some place =>
      have herase := hs.indexes.erase ((hs.indexes id place).mp hplace)
      simpa [placesWithout, Graph.nodeIds, List.eraseIdx_map] using herase

theorem updateNode (hs : s.Sound) {id : NodeId} {change : Node → Node}
    (hchange : ∀ node, (change node).id = node.id) (h : s.updateNode id change = .ok s') :
    s'.Sound := by
  have hgraph := hs.updateNode_graph h
  exact hs.of_nodeIds (hs.wellKept.updateNode hchange hgraph) (places_of_updateNode h)
    (Graph.nodeIds_of_updateNode hchange hgraph)

theorem insertLink (hs : s.Sound) {link : Link} (h : s.insertLink link = .ok s') : s'.Sound := by
  obtain ⟨g, hgraph, rfl⟩ := map_eq_ok_iff.mp h
  obtain ⟨-, hlinks⟩ := Graph.insertLink_eq_ok hgraph
  exact hs.of_nodeIds (hs.wellKept.insertLink hgraph) rfl (by rw [hlinks]; rfl)

theorem setStatus (hs : s.Sound) {id : NodeId} {status : NodeStatus}
    (h : s.setStatus id status = .ok s') : s'.Sound :=
  hs.updateNode (by simp) h

theorem resetStatuses (hs : s.Sound) : s.resetStatuses.Sound :=
  hs.of_nodeIds (hs.wellKept.edit (.resetStatuses _)) rfl (Graph.nodeIds_map fun _ => rfl)

/-! ### Documents -/

/-- A document is loaded with an index as it is without one. -/
theorem map_ofDocument (document : Document) :
    (IndexedGraph.ofDocument document).map IndexedGraph.graph = Graph.ofDocument document := by
  have hnodes := map_foldlM IndexedGraph.graph Sound (l := document.nodes)
    (f := fun s entry => s.insertNode entry.node) (g := fun g entry => g.insertNode entry.node)
    (fun _ entry hs => hs.map_insertNode entry.node) (fun _ _ _ h hs => hs.insertNode h) .empty
  -- Links are inserted without the index, so it does not have to be right for them.
  have hlinks := fun s => map_foldlM IndexedGraph.graph (fun _ => True) (l := document.links)
    (f := fun s entry => s.insertLink entry.link) (g := fun g entry => g.insertLink entry.link)
    (fun s entry _ => map_insertLink s entry.link) (fun _ _ _ _ _ => trivial) (b := s) trivial
  simp only [IndexedGraph.ofDocument, Graph.ofDocument]
  change _ = (document.nodes.foldlM _ IndexedGraph.empty.graph >>= _)
  rw [← hnodes]
  cases document.nodes.foldlM (fun s entry => s.insertNode entry.node) IndexedGraph.empty with
  | error e => rfl
  | ok withNodes =>
      change Except.map _ (document.links.foldlM _ withNodes >>= _) =
        (document.links.foldlM _ withNodes.graph >>= _)
      rw [← hlinks]
      cases document.links.foldlM (fun s entry => s.insertLink entry.link) withNodes <;> rfl

theorem ofDocument_graph {document : Document} (h : IndexedGraph.ofDocument document = .ok s) :
    Graph.ofDocument document = .ok s.graph := by
  rw [← map_ofDocument, h]
  rfl

theorem ofDocument {document : Document} (h : IndexedGraph.ofDocument document = .ok s) :
    s.Sound := by
  have hgraph := ofDocument_graph h
  simp only [IndexedGraph.ofDocument, bind_eq_ok_iff, pure_eq_ok_iff] at h
  obtain ⟨withNodes, hnodes, withLinks, hlinks, rfl⟩ := h
  have hnodes := foldlM_preserves (motive := Sound) (fun _ _ _ _ h hs => hs.insertNode h) hnodes
    .empty
  have hlinks := foldlM_preserves (motive := Sound) (fun _ _ _ _ h hs => hs.insertLink h) hlinks
    hnodes
  exact hlinks.of_nodeIds (.ofDocument hgraph) rfl rfl

end Sound

/-! ### Looking up after a change -/

/-- The node that was added is found by its id. -/
theorem node?_addNode {kind : NodeKind} {inputs outputs : List Socket} {parameters : Values}
    {id : NodeId} (h : s.addNode kind inputs outputs parameters = (id, s')) :
    s'.node? id = some ⟨id, kind, inputs, outputs, parameters, .pending⟩ := by
  obtain ⟨rfl, rfl⟩ := Prod.mk.inj h
  simp [node?, position?, placesWith]

theorem node?_updateNode {id : NodeId} {change : Node → Node}
    (h : s.updateNode id change = .ok s') : s'.node? id = (s.node? id).map change := by
  unfold updateNode at h
  split at h
  next => cases h
  next place hplace =>
    cases h
    rw [node?, node?, hplace]
    change (s.position? id).bind _ = _
    rw [hplace]
    simp [List.getElem?_modify]

end IndexedGraph

end Dataflow
