import Dataflow.Proofs.IndexedGraph.Failures
import Dataflow.Proofs.IndexedGraph.Removals

/-! # Giving a node another function

A node that is rebound has new sockets, and its links stay where they are. Which inputs are written
and which nodes feed each other does not depend on sockets. So in a graph without defects the links
at the node that lead to a socket it has no longer are all that is wrong afterwards, and nothing but
the node has changed.
-/

namespace Dataflow

/-- What is wrong with a link when a node has some sockets: it leaves the node by an output that is
not there, or comes to an input that is not there. -/
def Link.misfits (link : Link) (id : NodeId) (inputs outputs : List Socket) : List Defect :=
  (if link.source = id ∧ outputs.length ≤ link.output.toNat then
    [.danglingLink link.id .source (.socketOutOfRange id link.output outputs.length)] else []) ++
  if link.target = id ∧ inputs.length ≤ link.input.toNat then
    [.danglingLink link.id .target (.socketOutOfRange id link.input inputs.length)] else []

namespace Graph

variable {g g' : Graph} {id : NodeId} {change : Node → Node}

/-! ### Changing a node of a graph without defects -/

theorem node?_map {f : Node → Node} (hf : ∀ node, (f node).id = node.id) (id : NodeId) :
    ({ g with nodes := g.nodes.map f } : Graph).node? id = (g.node? id).map f := by
  have hkeys : (fun node : Node => decide (node.id = id)) ∘ f = fun node => decide (node.id = id) :=
    funext fun node => by rw [Function.comp_apply, hf]
  rw [node?, List.find?_map, hkeys, node?]

/-- The node at an end of a link has a socket there. -/
theorem Valid.exists_socketAt (hg : g.nodeIds.Nodup) (hvalid : g.Valid) {link : Link}
    (hlink : link ∈ g.links) (linkEnd : LinkEnd) :
    ∃ node, g.node? (linkEnd.node link) = some node ∧
      (linkEnd.index link).toNat < (linkEnd.sockets node).length := by
  obtain ⟨⟨source, hsource, hsourceId, houtput⟩, ⟨target, htarget, htargetId, hinput⟩⟩ :=
    hvalid.ends link hlink
  cases linkEnd with
  | source => exact ⟨source, (node?_eq_some_iff hg).mpr ⟨hsource, hsourceId⟩, houtput⟩
  | target => exact ⟨target, (node?_eq_some_iff hg).mpr ⟨htarget, htargetId⟩, hinput⟩

/-- Whatever a node is changed to, an end of a link dangles just when it is at this node and out of
the range of its new sockets. -/
theorem danglingEnd?_updateNode (hg : g.nodeIds.Nodup) (hvalid : g.Valid)
    (hchange : ∀ node, (change node).id = node.id) (h : g.updateNode id change = .ok g')
    {node : Node} (hnode : g.node? id = some node) {link : Link} (hlink : link ∈ g.links)
    (linkEnd : LinkEnd) :
    g'.danglingEnd? link linkEnd =
      if linkEnd.node link = id ∧
          (linkEnd.sockets (change node)).length ≤ (linkEnd.index link).toNat then
        some (.socketOutOfRange id (linkEnd.index link) (linkEnd.sockets (change node)).length)
      else none := by
  obtain ⟨-, rfl⟩ := updateNode_eq_ok h
  obtain ⟨found, hfound, hrange⟩ := hvalid.exists_socketAt hg hlink linkEnd
  obtain ⟨-, hid⟩ := (node?_eq_some_iff hg).mp hfound
  have hkeeps : ∀ node : Node, (if node.id = id then change node else node).id = node.id := by
    intro node
    split
    next => exact hchange node
    next => rfl
  rw [danglingEnd?, dangling?, node?_map hkeeps, hfound, Option.map_some]
  -- An end at another node has the socket it had; here only their number counts.
  by_cases hend : linkEnd.node link = id
  · obtain rfl : found = node := Option.some.inj (hfound.symm.trans (hend ▸ hnode))
    rw [if_pos (hid.trans hend)]
    by_cases hfits : (linkEnd.index link).toNat < (linkEnd.sockets (change found)).length
    · simp [hend, hfits]
    · simp [hend, hfits, Nat.le_of_not_lt hfits]
  · have hother : found.id ≠ id := hid ▸ hend
    simp [hend, hother, hrange]

/-- Sockets do not tell who writes to an input and who feeds whom. -/
theorem validate_updateNode (hg : g.nodeIds.Nodup) (hvalid : g.Valid)
    (hchange : ∀ node, (change node).id = node.id) (h : g.updateNode id change = .ok g')
    {node : Node} (hnode : g.node? id = some node) :
    g'.validate =
      g.links.flatMap (·.misfits id (change node).inputs (change node).outputs) := by
  have hids := nodeIds_of_updateNode hchange h
  have hlinks : g'.links = g.links := by
    obtain ⟨-, rfl⟩ := updateNode_eq_ok h
    rfl
  have hfeeds : g'.Feeds = g.Feeds := by
    unfold Feeds
    rw [hids, hlinks]
  rw [validate_eq_flatMap_danglingEnds (hids ▸ hg) (hlinks ▸ hvalid.writers)
    (hfeeds ▸ hvalid.acyclic), hlinks]
  refine List.flatMap_congr fun link hlink => ?_
  simp only [danglingEnds_eq, danglingEnd?_updateNode hg hvalid hchange h hnode hlink,
    Link.misfits, LinkEnd.node, LinkEnd.index, LinkEnd.sockets]
  split <;> split <;> simp [*]

/-- The node of an id is the only one that is changed. -/
theorem exists_split_of_updateNode (hg : g.nodeIds.Nodup) (h : g.updateNode id change = .ok g') :
    ∃ before node after, node.id = id ∧ g.nodes = before ++ node :: after ∧
      g'.nodes = before ++ change node :: after := by
  obtain ⟨hid, rfl⟩ := updateNode_eq_ok h
  obtain ⟨node, hmem, rfl⟩ := List.mem_map.mp hid
  obtain ⟨before, after, hsplit⟩ := List.append_of_mem hmem
  rw [nodeIds, hsplit, List.map_append, List.map_cons, List.nodup_append, List.nodup_cons] at hg
  obtain ⟨-, ⟨hafter, -⟩, hbefore⟩ := hg
  -- No other node has the id, so the others are mapped to themselves.
  have hkept : ∀ others : List Node, (∀ other ∈ others, other.id ≠ node.id) →
      others.map (fun other => if other.id = node.id then change other else other) = others :=
    fun others hne => (List.map_congr_left fun other hother => if_neg (hne other hother)).trans
      others.map_id
  refine ⟨before, node, after, rfl, hsplit, ?_⟩
  rw [hsplit, List.map_append, List.map_cons, if_pos rfl, hkept before fun other hother => ?_,
    hkept after fun other hother heq => hafter (heq ▸ List.mem_map_of_mem hother)]
  exact hbefore _ (List.mem_map_of_mem hother) _ List.mem_cons_self

end Graph

/-! ### Rebinding -/

/-- A node after it was given another function and other sockets. -/
structure Node.ReboundTo (node : Node) (ref : FunctionRef) (inputs outputs : List Socket)
    (rebound : Node) : Prop where
  id_eq : rebound.id = node.id
  /-- A node that loads data goes on doing so. -/
  tag_eq : rebound.kind.tag = node.kind.tag
  functionRef_eq : rebound.kind.functionRef = ref
  inputs_eq : rebound.inputs = inputs
  outputs_eq : rebound.outputs = outputs
  parameters_eq : rebound.parameters = node.parameters
  status_eq : rebound.status = node.status

theorem Node.reboundTo_withFunction (node : Node) (ref : FunctionRef)
    (inputs outputs : List Socket) : node.ReboundTo ref inputs outputs
      { node with kind := node.kind.withFunction ref, inputs := inputs, outputs := outputs } where
  id_eq := rfl
  tag_eq := by cases node.kind <;> rfl
  functionRef_eq := by cases node.kind <;> rfl
  inputs_eq := rfl
  outputs_eq := rfl
  parameters_eq := rfl
  status_eq := rfl

namespace IndexedGraph

/-- A graph without defects after one of its nodes was given another function. -/
structure Rebound (s : IndexedGraph) (id : NodeId) (ref : FunctionRef)
    (inputs outputs : List Socket) (s' : IndexedGraph) : Prop where
  validate_eq : s'.graph.validate = s.graph.links.flatMap (·.misfits id inputs outputs)
  nodes_eq : ∃ before node rebound after, node.id = id ∧
    node.ReboundTo ref inputs outputs rebound ∧
    s.graph.nodes = before ++ node :: after ∧ s'.graph.nodes = before ++ rebound :: after
  links_eq : s'.graph.links = s.graph.links
  lastNodeId_eq : s'.graph.lastNodeId = s.graph.lastNodeId
  lastLinkId_eq : s'.graph.lastLinkId = s.graph.lastLinkId
  places_eq : s'.places = s.places

variable {s s' : IndexedGraph} {id : NodeId} {ref : FunctionRef}

theorem Sound.exists_rebind (hs : s.Sound) (hid : id ∈ s.graph.nodeIds) (ref : FunctionRef)
    (inputs outputs : List Socket) : ∃ s', s.rebind id ref inputs outputs = .ok s' := by
  cases h : s.rebind id ref inputs outputs with
  | ok s' => exact ⟨s', rfl⟩
  | error e => exact absurd hid ((updateNode_eq_error_iff hs).mp h).2

theorem Sound.rebound (hs : s.Sound) (hvalid : s.graph.Valid) {inputs outputs : List Socket}
    (h : s.rebind id ref inputs outputs = .ok s') : s.Rebound id ref inputs outputs s' := by
  have hnodup := hs.wellKept.nodup_nodeIds
  have hgraph := hs.updateNode_graph h
  obtain ⟨before, node, after, hid, hnodes, hnodes'⟩ :=
    Graph.exists_split_of_updateNode hnodup hgraph
  have hnode : s.graph.node? id = some node :=
    (Graph.node?_eq_some_iff hnodup).mpr ⟨by simp [hnodes], hid⟩
  have hvalidate := Graph.validate_updateNode hnodup hvalid (by simp) hgraph hnode
  obtain ⟨-, hframe⟩ := Graph.updateNode_eq_ok hgraph
  exact
    { validate_eq := hvalidate
      nodes_eq := ⟨before, node, _, after, hid, node.reboundTo_withFunction ref inputs outputs,
        hnodes, hnodes'⟩
      links_eq := by rw [hframe]
      lastNodeId_eq := by rw [hframe]
      lastLinkId_eq := by rw [hframe]
      places_eq := places_of_updateNode h }

/-- A signature that is extracted is what the node is rebound to, whatever was known before. -/
theorem rebindFunction_of_extract (hnode : s.hasNode id = true) (cache : SignatureCache)
    {extract : Extractor Id} {signature : Signature} (hextract : extract ref = .ok signature)
    (h : s.rebind id ref signature.inputSockets signature.outputSockets = .ok s') :
    s.rebindFunction cache extract id ref = (.ok s', cache.insert ref signature) := by
  have hrefresh : cache.refresh extract ref = (.ok signature, cache.insert ref signature) := by
    unfold SignatureCache.refresh
    change (match extract ref with | .ok signature => _ | .error e => _) = _
    rw [hextract]
    rfl
  rw [rebindFunction, if_pos hnode, hrefresh]
  change ((s.rebind id ref _ _).mapError CatalogError.graph, _) = _
  rw [h]
  rfl

/-- A node of a graph without defects can be given any function. Afterwards exactly the links at the
node that lead beyond its new sockets are reported, each once and in the order of the links. The
node keeps what is its own, and nothing else has changed. -/
theorem rebind_exact (hs : s.Reachable) (hvalid : s.graph.validate = [])
    (hid : id ∈ s.graph.nodeIds) (ref : FunctionRef) :
    (∀ inputs outputs, ∃ s', s.rebind id ref inputs outputs = .ok s' ∧
      s.Rebound id ref inputs outputs s') ∧
    ∀ (cache : SignatureCache) (extract : Extractor Id) (signature : Signature),
      extract ref = .ok signature →
      ∃ s', s.rebindFunction cache extract id ref = (.ok s', cache.insert ref signature) ∧
        s.Rebound id ref signature.inputSockets signature.outputSockets s' := by
  have hnodup := hs.sound.wellKept.nodup_nodeIds
  have hvalid := (Graph.validate_eq_nil_iff hnodup).mp hvalid
  have hnode : s.hasNode id = true := by rwa [hs.sound.hasNode_eq, Graph.hasNode_eq_true]
  constructor
  · intro inputs outputs
    obtain ⟨s', h⟩ := hs.sound.exists_rebind hid ref inputs outputs
    exact ⟨s', h, hs.sound.rebound hvalid h⟩
  · intro cache extract signature hextract
    obtain ⟨s', h⟩ :=
      hs.sound.exists_rebind hid ref signature.inputSockets signature.outputSockets
    exact ⟨s', rebindFunction_of_extract hnode cache hextract h, hs.sound.rebound hvalid h⟩

/-- Without sockets the node in the middle is missed by both its links. With one input more than it
had and no output, only the link that leaves it does not fit. -/
theorem rebind_exact_chain :
    (∃ s', chain.rebind ⟨2⟩ ⟨⟨"b.py"⟩, "g"⟩ [] [] = .ok s' ∧ s'.graph.validate =
      [.danglingLink ⟨1⟩ .target (.socketOutOfRange ⟨2⟩ 0 0),
        .danglingLink ⟨2⟩ .source (.socketOutOfRange ⟨2⟩ 0 0)]) ∧
    ∃ s', (chain.rebindFunction (m := Id) .empty
        (fun _ => .ok ⟨"g", [⟨"x", none⟩, ⟨"y", none⟩], [], none⟩) ⟨2⟩ ⟨⟨"b.py"⟩, "g"⟩).1 = .ok s' ∧
      s'.graph.validate = [.danglingLink ⟨2⟩ .source (.socketOutOfRange ⟨2⟩ 0 0)] := by
  have hids : chain.graph.nodeIds = [⟨1⟩, ⟨2⟩, ⟨3⟩] := by cbv
  have hlinks : chain.graph.links =
      [⟨⟨1⟩, ⟨1⟩, 0, ⟨2⟩, 0, none⟩, ⟨⟨2⟩, ⟨2⟩, 0, ⟨3⟩, 0, none⟩] := by
    cbv
  have hid : ⟨2⟩ ∈ chain.graph.nodeIds := by simp [hids]
  obtain ⟨hrebind, hrebindFunction⟩ :=
    rebind_exact chain_reachable validate_chain hid ⟨⟨"b.py"⟩, "g"⟩
  obtain ⟨bare, hbare, hmissed⟩ := hrebind [] []
  obtain ⟨wide, hwide, hmisfit⟩ := hrebindFunction .empty
    (fun _ => .ok ⟨"g", [⟨"x", none⟩, ⟨"y", none⟩], [], none⟩) _ rfl
  refine ⟨⟨bare, hbare, ?_⟩, wide, congrArg Prod.fst hwide, ?_⟩
  · rw [hmissed.validate_eq, hlinks]
    rfl
  · rw [hmisfit.validate_eq, hlinks]
    rfl

end IndexedGraph

end Dataflow
