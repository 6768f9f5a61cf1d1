import Dataflow.Plan
import Dataflow.Proofs.Graph.Stages

/-! # Plans follow their graphs

A plan has the nodes of the stages, and every node reads from the nodes that feed it in the graph
and from no others. So what a node reads from is in an earlier stage.
-/

namespace Dataflow

open Relation

/-! ### Plans in themselves -/

/-- What a run relies on: nodes are planned once, read from earlier stages only, and read outputs
that are declared. -/
structure Plan.Ordered (p : Plan) : Prop where
  nodup : p.nodeIds.Nodup
  earlier : ∀ before stage after, p.stages = before ++ stage :: after → ∀ node ∈ stage.nodes,
    ∀ id ∈ node.feeders, id ∈ (before.flatMap Stage.nodes).map PlannedNode.id
  declared : ∀ node ∈ p.nodes, ∀ input ∈ node.inputs, ∀ id output name,
    input.source = .fromLink id output name → ∀ feeder ∈ p.nodes, feeder.id = id →
      name ∈ feeder.outputNames

/-- The ids of the nodes of a stage. -/
def Stage.nodeIds (stage : Stage) : List NodeId :=
  stage.nodes.map PlannedNode.id

section

variable {p : Plan} {before after : List Stage} {stage : Stage}

theorem Plan.Ordered.feeder_mem_before (hp : p.Ordered)
    (hsplit : p.stages = before ++ stage :: after) {node : PlannedNode}
    (hnode : node ∈ before.flatMap Stage.nodes ++ stage.nodes) {id : NodeId}
    (hid : id ∈ node.feeders) : id ∈ (before.flatMap Stage.nodes).map PlannedNode.id := by
  rcases List.mem_append.mp hnode with hnode | hnode
  · obtain ⟨earlier, hearlier, hmem⟩ := List.mem_flatMap.mp hnode
    obtain ⟨first, last, rfl⟩ := List.append_of_mem hearlier
    rw [List.append_assoc, List.cons_append] at hsplit
    have hbefore := hp.earlier first earlier _ hsplit node hmem id hid
    rw [List.flatMap_append, List.map_append]
    exact List.mem_append_left _ hbefore
  · exact hp.earlier before stage after hsplit node hnode id hid

theorem Plan.nodeIds_eq_append (hsplit : p.stages = before ++ stage :: after) :
    p.nodeIds = (before.flatMap Stage.nodes).map PlannedNode.id ++
      (stage.nodes.map PlannedNode.id ++ (after.flatMap Stage.nodes).map PlannedNode.id) := by
  simp [Plan.nodeIds, Plan.nodes, hsplit]

end

theorem PlannedNode.mem_feeders_iff {node : PlannedNode} {id : NodeId} :
    id ∈ node.feeders ↔
      ∃ input ∈ node.inputs, ∃ output name, input.source = .fromLink id output name := by
  simp only [feeders, List.mem_filterMap]
  refine exists_congr fun input => and_congr_right fun _ => ?_
  cases input.source <;> simp

namespace Graph

variable {g : Graph}

/-! ### One node -/

/-- A planned node is a node of the graph with a source for every input, in the order of the
inputs. -/
structure Resolves (g : Graph) (node : Node) (planned : PlannedNode) : Prop where
  id_eq : planned.id = node.id
  functionRef_eq : planned.functionRef = node.functionRef
  outputNames_eq : planned.outputNames = node.outputs.map Socket.name
  length_inputs : planned.inputs.length = node.inputs.length
  input : ∀ i socket, node.inputs[i]? = some socket → ∃ source,
    planned.inputs[i]? = some ⟨socket.name, source⟩ ∧
      g.inputSource? node socket i = .ok (some source)

theorem inputSources_eq_ok {node : Node} {sockets : List Socket} {input : Nat}
    {sources : List (String × Option InputSource)}
    (h : g.inputSources node input sockets = .ok sources) :
    sources.length = sockets.length ∧ ∀ i socket, sockets[i]? = some socket → ∃ source,
      sources[i]? = some (socket.name, source) ∧
        g.inputSource? node socket (input + i) = .ok source := by
  induction sockets generalizing input sources with
  | nil =>
      cases h
      simp
  | cons head tail ih =>
      simp only [inputSources, bind_eq_ok_iff, pure_eq_ok_iff] at h
      obtain ⟨source, hsource, rest, hrest, rfl⟩ := h
      obtain ⟨hlength, htail⟩ := ih hrest
      refine ⟨by simp [hlength], fun i socket hsocket => ?_⟩
      cases i with
      | zero =>
          rw [List.getElem?_cons_zero, Option.some.injEq] at hsocket
          subst hsocket
          exact ⟨source, rfl, hsource⟩
      | succ i =>
          -- The tail counts its inputs from the next one on.
          obtain ⟨found, hfound, hsource⟩ := htail i socket (by simpa using hsocket)
          refine ⟨found, by simpa using hfound, ?_⟩
          rwa [Nat.add_assoc, Nat.add_comm 1] at hsource

/-- Where no source is missing, planned inputs are all there is. -/
theorem sources_eq_map {sources : List (String × Option InputSource)}
    (h : ∀ source ∈ sources, source.2.isSome) :
    sources = (sources.filterMap fun (name, source) => source.map fun s =>
      (⟨name, s⟩ : PlannedInput)).map fun input => (input.name, some input.source) := by
  induction sources with
  | nil => rfl
  | cons head tail ih =>
      obtain ⟨name, source⟩ := head
      obtain ⟨s, rfl⟩ := Option.isSome_iff_exists.mp (h _ List.mem_cons_self)
      simpa using ih fun source hsource => h source (List.mem_cons_of_mem _ hsource)

theorem planNode_eq_ok {node : Node} {planned : PlannedNode}
    (h : g.planNode node = .ok (.ok planned)) : g.Resolves node planned := by
  simp only [planNode, bind_eq_ok_iff] at h
  obtain ⟨sources, hsources, h⟩ := h
  obtain ⟨hlength, hsource⟩ := inputSources_eq_ok hsources
  split at h
  next hnone =>
    have hsome : ∀ source ∈ sources, source.2.isSome := by
      intro source hmem
      rw [List.isEmpty_iff, List.filterMap_eq_nil_iff] at hnone
      simpa [Option.isSome_iff_ne_none] using hnone source hmem
    have hmap := sources_eq_map hsome
    cases h
    refine ⟨rfl, rfl, rfl, ?_, fun i socket hsocket => ?_⟩
    · rw [← hlength, hmap, List.length_map, ← hmap]
    · obtain ⟨source, hget, hsource⟩ := hsource i socket hsocket
      rw [hmap, List.getElem?_map, Option.map_eq_some_iff] at hget
      obtain ⟨input, hinput, heq⟩ := hget
      obtain ⟨hname, rfl⟩ := Prod.mk.inj heq
      exact ⟨input.source, by rw [hinput, ← hname], by simpa using hsource⟩
  next => simp [pure, Except.pure] at h

/-! ### Links and sources -/

/-- An output that is read belongs to a link to the input. -/
theorem inputSource?_eq_fromLink {node : Node} {socket : Socket} {input : Nat} {id : NodeId}
    {output : UInt64} {name : String}
    (h : g.inputSource? node socket input = .ok (some (.fromLink id output name))) :
    (∃ link ∈ g.links, link.slot = (node.id, UInt64.ofNat input) ∧ link.source = id) ∧
      ∃ socket, g.outputSocket? id output = some socket ∧ socket.name = name := by
  unfold inputSource? at h
  split at h
  next link hlink =>
    split at h
    next socket hsocket =>
      cases h
      exact ⟨⟨link, List.mem_of_find?_eq_some hlink, by simpa using List.find?_some hlink, rfl⟩,
        socket, hsocket, rfl⟩
    next => cases h
  next =>
    cases hparameter : node.parameters.get? socket.name <;> simp [hparameter] at h

/-- The only link to an input is the one that it reads from. -/
theorem inputSource?_of_link (hwriters : (g.links.map Link.slot).Nodup) {link : Link}
    (hlink : link ∈ g.links) {node : Node} {input : Nat}
    (hslot : link.slot = (node.id, UInt64.ofNat input)) {socket : Socket} {source : InputSource}
    (h : g.inputSource? node socket input = .ok (some source)) :
    ∃ name, source = .fromLink link.source link.output name := by
  have hincoming : g.incomingLink? node.id (UInt64.ofNat input) = some link :=
    (incomingLink?_eq_some_iff hwriters).mpr ⟨hlink, hslot⟩
  unfold inputSource? at h
  rw [hincoming] at h
  simp only at h
  split at h
  next output _ =>
    cases h
    exact ⟨output.name, rfl⟩
  next => cases h

/-- Every planned input is the resolution of the input at its place. -/
theorem Resolves.inputSource?_of_getElem? {node : Node} {planned : PlannedNode}
    (h : g.Resolves node planned) {i : Nat} {input : PlannedInput}
    (hinput : planned.inputs[i]? = some input) :
    ∃ socket, g.inputSource? node socket i = .ok (some input.source) := by
  obtain ⟨hlt, -⟩ := List.getElem?_eq_some_iff.mp hinput
  rw [h.length_inputs] at hlt
  obtain ⟨source, hget, hresolved⟩ := h.input i _ (List.getElem?_eq_getElem hlt)
  obtain rfl := Option.some.inj (hinput.symm.trans hget)
  exact ⟨_, hresolved⟩

theorem Resolves.exists_socket {node : Node} {planned : PlannedNode} (h : g.Resolves node planned)
    {input : PlannedInput} (hinput : input ∈ planned.inputs) :
    ∃ i socket, g.inputSource? node socket i = .ok (some input.source) := by
  obtain ⟨i, hi⟩ := List.mem_iff_getElem?.mp hinput
  exact ⟨i, h.inputSource?_of_getElem? hi⟩

/-- An input that reads an output has a link from there. -/
theorem Resolves.exists_link {node : Node} {planned : PlannedNode} (h : g.Resolves node planned)
    {i : Nat} {input : PlannedInput} (hinput : planned.inputs[i]? = some input) {id : NodeId}
    {output : UInt64} {name : String} (hsource : input.source = .fromLink id output name) :
    ∃ link ∈ g.links, link.slot = (node.id, UInt64.ofNat i) ∧ link.source = id := by
  obtain ⟨socket, hresolved⟩ := h.inputSource?_of_getElem? hinput
  rw [hsource] at hresolved
  exact (inputSource?_eq_fromLink hresolved).1

/-- The names of the inputs are those of the sockets, in their order. -/
theorem Resolves.map_name {node : Node} {planned : PlannedNode} (h : g.Resolves node planned) :
    planned.inputs.map PlannedInput.name = node.inputs.map Socket.name := by
  apply List.ext_getElem?
  intro i
  rw [List.getElem?_map, List.getElem?_map]
  cases hsocket : node.inputs[i]? with
  | none =>
      have hnone : planned.inputs[i]? = none := by
        rw [List.getElem?_eq_none_iff, h.length_inputs]
        exact List.getElem?_eq_none_iff.mp hsocket
      rw [hnone]
      rfl
  | some socket =>
      obtain ⟨source, hget, -⟩ := h.input i socket hsocket
      rw [hget]
      rfl

/-- In a graph that can be run, a planned node reads from the nodes that feed it. -/
theorem Resolves.mem_feeders_iff {node : Node} {planned : PlannedNode}
    (h : g.Resolves node planned) (hg : g.nodeIds.Nodup) (hvalid : g.Valid) (hnode : node ∈ g.nodes)
    {id : NodeId} : id ∈ planned.feeders ↔ g.Feeds id node.id := by
  rw [PlannedNode.mem_feeders_iff]
  constructor
  · rintro ⟨input, hinput, output, name, hsource⟩
    obtain ⟨i, socket, hresolved⟩ := h.exists_socket hinput
    rw [hsource] at hresolved
    obtain ⟨⟨link, hlink, hslot, rfl⟩, -⟩ := inputSource?_eq_fromLink hresolved
    have htarget : link.target = node.id := congrArg Prod.fst hslot
    exact htarget ▸ hvalid.feeds hlink
  · rintro ⟨-, -, link, hlink, rfl, htarget⟩
    -- The link ends at an input that is there, and no other link does.
    obtain ⟨-, target, hmem, hid, hlt⟩ := hvalid.ends link hlink
    obtain rfl := List.inj_on_of_nodup_map hg hmem hnode (hid.trans htarget)
    obtain ⟨source, hget, hresolved⟩ :=
      h.input link.input.toNat _ (List.getElem?_eq_getElem hlt)
    have hslot : link.slot = (target.id, UInt64.ofNat link.input.toNat) := by
      rw [UInt64.ofNat_toNat, ← htarget]
      rfl
    obtain ⟨name, rfl⟩ := inputSource?_of_link hvalid.writers hlink hslot hresolved
    exact ⟨_, List.mem_of_getElem? hget, link.output, name, rfl⟩

/-! ### Whole plans -/

theorem planStage_eq_ok (hg : g.nodeIds.Nodup) {ids : List NodeId} {nodes : List PlannedNode}
    (h : g.planStage ids = .ok (nodes, [])) : nodes.map PlannedNode.id = ids ∧
      ∀ planned ∈ nodes, ∃ node ∈ g.nodes, g.Resolves node planned := by
  induction ids generalizing nodes with
  | nil =>
      cases h
      simp
  | cons id ids ih =>
      unfold planStage at h
      split at h
      next => cases h
      next node hnode =>
        simp only [bind_eq_ok_iff] at h
        obtain ⟨planned, hplanned, ⟨rest, missing⟩, hrest, h⟩ := h
        split at h
        next planned =>
          cases h
          obtain ⟨hids, hnodes⟩ := ih hrest
          obtain ⟨hmem, rfl⟩ := (node?_eq_some_iff hg).mp hnode
          have hresolves := planNode_eq_ok hplanned
          refine ⟨by simp [hids, hresolves.id_eq], ?_⟩
          rintro other (_ | ⟨_, hother⟩)
          · exact ⟨node, hmem, hresolves⟩
          · exact hnodes other hother
        next => cases h

theorem planStages_eq_ok (hg : g.nodeIds.Nodup) {index : Nat} {ids : List (List NodeId)}
    {stages : List Stage} (h : g.planStages index ids = .ok (stages, [])) :
    stages.map Stage.nodeIds = ids ∧
      ∀ stage ∈ stages, ∀ planned ∈ stage.nodes, ∃ node ∈ g.nodes, g.Resolves node planned := by
  induction ids generalizing index stages with
  | nil =>
      cases h
      simp
  | cons head tail ih =>
      simp only [planStages, bind_eq_ok_iff, pure_eq_ok_iff] at h
      obtain ⟨⟨nodes, missing⟩, hstage, ⟨rest, more⟩, hrest, h⟩ := h
      obtain ⟨rfl, hmissing⟩ := Prod.mk.inj h
      obtain ⟨rfl, rfl⟩ := List.append_eq_nil_iff.mp hmissing
      obtain ⟨hids, hnodes⟩ := planStage_eq_ok hg hstage
      obtain ⟨htail, hall⟩ := ih hrest
      refine ⟨by simp [Stage.nodeIds, hids, htail], ?_⟩
      rintro stage (_ | ⟨_, hmem⟩)
      · exact hnodes
      · exact hall stage hmem

/-- A plan has the stages of the graph and a resolved node for every id in them. -/
theorem plan_eq_ok (hg : g.nodeIds.Nodup) {plan : Plan} (h : g.plan = .ok plan) :
    g.staging = .ok ⟨plan.stages.map Stage.nodeIds⟩ ∧
      ∀ planned ∈ plan.nodes, ∃ node ∈ g.nodes, g.Resolves node planned := by
  simp only [Graph.plan, bind_eq_ok_iff] at h
  obtain ⟨⟨ids⟩, hstaging, ⟨stages, missing⟩, hstages, h⟩ := h
  split at h
  next hmissing =>
    cases h
    obtain rfl := List.isEmpty_iff.mp hmissing
    obtain ⟨rfl, hnodes⟩ := planStages_eq_ok hg hstages
    constructor
    · cases hs : g.staging with
      | error defects => simp [hs, Except.mapError] at hstaging
      | ok s => simpa [hs, Except.mapError] using hstaging
    · intro planned hplanned
      obtain ⟨stage, hstage, hplanned⟩ := List.mem_flatMap.mp hplanned
      exact hnodes stage hstage planned hplanned
  next => cases h

/-- A plan of a graph that can be run: its nodes are the nodes of the graph, and they read from the
nodes that feed them. -/
structure PlannedAs (g : Graph) (plan : Plan) : Prop where
  acyclic : ∀ id, ¬ TransGen g.Feeds id id
  perm : plan.nodeIds.Perm g.nodeIds
  resolved : ∀ planned ∈ plan.nodes, ∃ node ∈ g.nodes, g.Resolves node planned
  feeders : ∀ planned ∈ plan.nodes, ∀ id, id ∈ planned.feeders ↔ g.Feeds id planned.id
  ordered : plan.Ordered

theorem PlannedAs.nodup_nodeIds {plan : Plan} (h : g.PlannedAs plan) : g.nodeIds.Nodup :=
  h.perm.nodup_iff.mp h.ordered.nodup

theorem PlannedAs.exists_planned {plan : Plan} (h : g.PlannedAs plan) {id : NodeId}
    (hid : id ∈ g.nodeIds) : ∃ planned ∈ plan.nodes, planned.id = id :=
  List.mem_map.mp (h.perm.mem_iff.mpr hid)

theorem PlannedAs.exists_resolves {plan : Plan} (h : g.PlannedAs plan) {node : Node}
    (hnode : node ∈ g.nodes) : ∃ planned ∈ plan.nodes, g.Resolves node planned := by
  obtain ⟨planned, hplanned, hid⟩ := h.exists_planned (List.mem_map_of_mem hnode)
  obtain ⟨other, hother, hresolves⟩ := h.resolved planned hplanned
  obtain rfl := List.inj_on_of_nodup_map h.nodup_nodeIds hother hnode
    (hresolves.id_eq.symm.trans hid)
  exact ⟨planned, hplanned, hresolves⟩

theorem flatten_map_nodeIds (plan : Plan) :
    (plan.stages.map Stage.nodeIds).flatten = plan.nodeIds := by
  simp [Plan.nodeIds, Plan.nodes, List.flatMap_def, Function.comp_def]
  rfl

/-- A planned node reads declared outputs only. -/
theorem Resolves.name_mem_outputNames {node feeder : Node} {planned source : PlannedNode}
    (h : g.Resolves node planned) (hsource : g.Resolves feeder source) (hg : g.nodeIds.Nodup)
    (hfeeder : feeder ∈ g.nodes) {input : PlannedInput} (hinput : input ∈ planned.inputs)
    {output : UInt64} {name : String} (hread : input.source = .fromLink source.id output name) :
    name ∈ source.outputNames := by
  obtain ⟨i, _, hresolved⟩ := h.exists_socket hinput
  rw [hread] at hresolved
  obtain ⟨-, socket, hsocket, rfl⟩ := inputSource?_eq_fromLink hresolved
  have hnode := (node?_eq_some_iff hg).mpr ⟨hfeeder, hsource.id_eq.symm⟩
  rw [outputSocket?, hnode, Option.bind_some] at hsocket
  rw [hsource.outputNames_eq]
  exact List.mem_map_of_mem (List.mem_of_getElem? hsocket)

theorem plannedAs_of_plan {g : Graph} (hg : g.Reachable) {plan : Plan} (h : g.plan = .ok plan) :
    g.PlannedAs plan := by
  have hnodup := hg.wellKept.nodup_nodeIds
  obtain ⟨hstaging, hresolved⟩ := plan_eq_ok hnodup h
  obtain ⟨hvalid, hstages⟩ := (staging_eq_ok_iff hnodup).mp hstaging
  have hstaged := hstages ▸ stagedBy_layering hnodup hvalid.acyclic
  have hfeeders : ∀ planned ∈ plan.nodes, ∀ id, id ∈ planned.feeders ↔ g.Feeds id planned.id := by
    intro planned hplanned id
    obtain ⟨node, hnode, hresolves⟩ := hresolved planned hplanned
    rw [hresolves.mem_feeders_iff hnodup hvalid hnode, hresolves.id_eq]
  refine ⟨hvalid.acyclic, ?_, hresolved, hfeeders, ?_, ?_, ?_⟩
  · rw [← flatten_map_nodeIds]
    exact hstaged.perm
  · rw [← flatten_map_nodeIds]
    exact hstaged.nodup
  · intro before stage after hsplit planned hplanned id hid
    have hmem : planned ∈ plan.nodes :=
      List.mem_flatMap.mpr ⟨stage, by simp [hsplit], hplanned⟩
    have hfeeds := (hfeeders planned hmem id).mp hid
    have hstage : (plan.stages.map Stage.nodeIds)[before.length]? = some stage.nodeIds := by
      simp [hsplit]
    obtain ⟨j, ids, hids, hid⟩ := hstaged.exists_stage hfeeds.1
    have hlt := hstaged.lt_of_feeds hfeeds hids hid hstage (List.mem_map_of_mem hplanned)
    rw [List.getElem?_map, hsplit, List.getElem?_append_left hlt] at hids
    obtain ⟨earlier, hearlier, rfl⟩ := Option.map_eq_some_iff.mp hids
    obtain ⟨feeder, hfeeder, rfl⟩ := List.mem_map.mp hid
    exact List.mem_map_of_mem
      (List.mem_flatMap.mpr ⟨earlier, List.mem_of_getElem? hearlier, hfeeder⟩)
  · intro planned hplanned input hinput id output name hsource feeder hfeeder hid
    obtain ⟨node, -, hresolves⟩ := hresolved planned hplanned
    obtain ⟨other, hother, hresolves'⟩ := hresolved feeder hfeeder
    subst hid
    exact hresolves.name_mem_outputNames hresolves' hnodup hother hinput hsource

/-- The plan of the diamond. -/
def diamondPlan : Plan :=
  let node (id : UInt64) (inputs : List (String × NodeId)) : PlannedNode :=
    { id := ⟨id⟩
      functionRef := ⟨⟨"f.py"⟩, "f"⟩
      inputs := inputs.map fun (name, feeder) => ⟨name, .fromLink feeder 0 "out"⟩
      outputNames := ["out"] }
  ⟨[⟨0, [node 1 []]⟩, ⟨1, [node 2 [("a", ⟨1⟩)], node 3 [("a", ⟨1⟩)]]⟩,
    ⟨2, [node 4 [("a", ⟨2⟩), ("b", ⟨3⟩)]]⟩]⟩

theorem plan_diamond : diamond.plan = .ok diamondPlan := by
  rw [Graph.plan, staging_diamond]
  rfl

end Graph

end Dataflow
