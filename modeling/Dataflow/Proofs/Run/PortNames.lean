import Dataflow.Proofs.Json.Order
import Dataflow.Proofs.Run.Delivery

/-! # Names keep the sockets of a node apart

Links address sockets by their places, requests and outputs by their names, and nothing asks that
the names of a node's sockets differ. So inputs of one name share one value, that of the last of
them, and outputs of one name are one output.
-/

namespace Dataflow

/-- The distinct elements are as many as all elements just when nothing is there twice. -/
theorem length_dedup_eq_iff {α : Type} [DecidableEq α] {as : List α} :
    as.dedup.length = as.length ↔ as.Nodup := by
  rw [← List.dedup_eq_self]
  exact ⟨(List.dedup_sublist as).eq_of_length, congrArg List.length⟩

/-- What becomes of the sockets of a node in a request for it, as far as a report tells. -/
structure NamesApart (g : Graph) (report : Report) (node : Node) (r : Request) : Prop where
  nodeId_eq : r.nodeId = node.id
  /-- There is one entry for every name. -/
  keys : r.inputs.keys.Perm (node.inputs.map Socket.name).dedup
  length_eq_iff : r.inputs.keys.length = node.inputs.length ↔ (node.inputs.map Socket.name).Nodup
  /-- The value of a link gives way only to that of a later input of the same name. -/
  linked : ∀ i socket, node.inputs[i]? = some socket →
    ∀ link ∈ g.links, link.slot = (node.id, UInt64.ofNat i) →
      (∃ j other, i < j ∧ node.inputs[j]? = some other ∧ other.name = socket.name) ∨
        ∃ output value, g.outputSocket? link.source link.output = some output ∧
          (report.outputs? link.source).bind (·.get? output.name) = some value ∧
            r.inputs.get? socket.name = some value

theorem Delivers.namesApart {g : Graph} (hg : g.nodeIds.Nodup) {report : Report} {node : Node}
    {r : Request} (h : Delivers g report node r) : NamesApart g report node r := by
  have hkeys : r.inputs.keys.Perm (node.inputs.map Socket.name).dedup := by
    refine (List.perm_ext_iff_of_nodup r.inputs.nodup_keys (List.nodup_dedup _)).mpr fun name => ?_
    rw [List.mem_dedup]
    exact h.keys name
  refine ⟨h.nodeId_eq, hkeys, ?_, ?_⟩
  · rw [hkeys.length_eq, ← length_dedup_eq_iff, List.length_map]
  · intro i socket hsocket link hlink hslot
    by_cases hlater : ∃ j other, i < j ∧ node.inputs[j]? = some other ∧ other.name = socket.name
    · exact .inl hlater
    · right
      have hlast : LastOfName node.inputs i socket :=
        ⟨hsocket, fun j other hij hother hname => hlater ⟨j, other, hij, hother, hname⟩⟩
      obtain ⟨feeder, hfeeder, hid, output, houtput, values, value, hvalues, hvalue, hget⟩ :=
        h.linked i socket hlast link hlink hslot
      refine ⟨output, value, ?_, ?_, hget⟩
      · exact (Graph.outputSocket?_eq_some_iff hg).mpr ⟨feeder, hfeeder, hid, houtput⟩
      · rw [hvalues, Option.bind_some, hvalue]

namespace Graph

/-- A planned node has the names of the sockets of its node, and an output is read under the name of
its socket. -/
structure NamedAfter (g : Graph) (planned : PlannedNode) : Prop where
  names : ∃ node ∈ g.nodes, planned.id = node.id ∧
    planned.inputs.map PlannedInput.name = node.inputs.map Socket.name ∧
      planned.outputNames = node.outputs.map Socket.name
  reads : ∀ input ∈ planned.inputs, ∀ source output name,
    input.source = .fromLink source output name →
      (g.outputSocket? source output).map Socket.name = some name

theorem Resolves.namedAfter {g : Graph} {node : Node} {planned : PlannedNode}
    (h : g.Resolves node planned) (hnode : node ∈ g.nodes) : g.NamedAfter planned where
  names := ⟨node, hnode, h.id_eq, h.map_name, h.outputNames_eq⟩
  reads input hinput source output name hsource := by
    obtain ⟨i, socket, hresolved⟩ := h.exists_socket hinput
    rw [hsource] at hresolved
    obtain ⟨-, found, hfound, rfl⟩ := inputSource?_eq_fromLink hresolved
    rw [hfound, Option.map_some]

/-- Two outputs of one node are read under one name just when their sockets have one. -/
theorem NamedAfter.name_eq_iff {g : Graph} {planned planned' : PlannedNode}
    (h : g.NamedAfter planned) (h' : g.NamedAfter planned') {input input' : PlannedInput}
    (hinput : input ∈ planned.inputs) (hinput' : input' ∈ planned'.inputs) {source : NodeId}
    {output output' : UInt64} {name name' : String}
    (hread : input.source = .fromLink source output name)
    (hread' : input'.source = .fromLink source output' name') :
    ∃ socket socket', g.outputSocket? source output = some socket ∧
      g.outputSocket? source output' = some socket' ∧
        (name = name' ↔ socket.name = socket'.name) := by
  obtain ⟨socket, hsocket, rfl⟩ := Option.map_eq_some_iff.mp (h.reads _ hinput _ _ _ hread)
  obtain ⟨socket', hsocket', rfl⟩ := Option.map_eq_some_iff.mp (h'.reads _ hinput' _ _ _ hread')
  exact ⟨socket, socket', hsocket, hsocket', .rfl⟩

end Graph

namespace RunState

/-- In a run the sockets of a node are kept apart by their names and by nothing else. A request has
an entry for every name of an input, so as many as inputs just when their names differ, and the
value of a link is lost only to a later input of the same name. A plan has the names of the sockets
as they are, and what links read from two outputs of a node has two names just when the outputs
have. -/
theorem sockets_apart_by_name {g : Graph} (hg : g.Reachable) {plan : Plan}
    (hplan : g.plan = .ok plan) {env : RunSetting} {limit : Option Nat} {cancelled : Bool}
    {moves : List Move} {s : RunState}
    (hrun : (RunState.initial env.runId plan limit cancelled).after? env moves = some s) :
    (∀ r ∈ s.calls, ∃ node ∈ g.nodes, NamesApart g s.report node r) ∧
      (∀ planned ∈ plan.nodes, g.NamedAfter planned) ∧
      ∀ planned ∈ plan.nodes, ∀ planned' ∈ plan.nodes,
        ∀ input ∈ planned.inputs, ∀ input' ∈ planned'.inputs, ∀ source output output' name name',
          input.source = .fromLink source output name →
            input'.source = .fromLink source output' name' →
              ∃ socket socket', g.outputSocket? source output = some socket ∧
                g.outputSocket? source output' = some socket' ∧
                  (name = name' ↔ socket.name = socket'.name) := by
  have hnamed : ∀ planned ∈ plan.nodes, g.NamedAfter planned := by
    intro planned hplanned
    obtain ⟨node, hnode, hresolves⟩ := (Graph.plannedAs_of_plan hg hplan).resolved planned hplanned
    exact hresolves.namedAfter hnode
  have hordered := (Graph.plannedAs_of_plan hg hplan).ordered
  have hsound := (Sound.start hordered limit cancelled).after hrun
  refine ⟨fun r hr => ?_, hnamed, ?_⟩
  · obtain ⟨node, hnode, hdelivers⟩ := hsound.exists_delivers hg hplan hr
    exact ⟨node, hnode, hdelivers.namesApart hg.wellKept.nodup_nodeIds⟩
  · intro planned hplanned planned' hplanned' input hinput input' hinput' _ _ _ _ _ hread hread'
    exact (hnamed planned hplanned).name_eq_iff (hnamed planned' hplanned') hinput hinput' hread
      hread'

end RunState

/-! ### Sockets of one name -/

namespace Graph

/-- A node has two outputs of one name, and another one has two inputs of one name with links from
different nodes. -/
def namesakes : Graph :=
  let twins : Graph :=
    (empty.addNode (.function ⟨⟨"f.py"⟩, "f"⟩) [] [⟨"out", none⟩, ⟨"out", none⟩] .empty).2
  let nodes := (twins.withNode []).withNode ["x", "x"]
  ((nodes.connect ⟨1⟩ 1 ⟨3⟩ 0).2).withLink ⟨2⟩ ⟨3⟩ 1

theorem namesakes_reachable : namesakes.Reachable := by
  refine Reachable.withLink (.edited ?_ (.connect _ _ _ _ _ (by decide))) (by decide)
  iterate 2 refine Reachable.withNode ?_ (by decide)
  exact .edited .empty (.addNode _ _ _ _ _ (by decide))

/-- The plan of the graph with sockets of one name. -/
def namesakesPlan : Plan :=
  let node (id : UInt64) (inputs : List PlannedInput) (outputNames : List String) : PlannedNode :=
    ⟨⟨id⟩, ⟨⟨"f.py"⟩, "f"⟩, inputs, outputNames⟩
  ⟨[⟨0, [node 1 [] ["out", "out"], node 2 [] ["out"]]⟩,
    ⟨1, [node 3 [⟨"x", .fromLink ⟨1⟩ 1 "out"⟩, ⟨"x", .fromLink ⟨2⟩ 0 "out"⟩] ["out"]]⟩]⟩

theorem plan_namesakes : namesakes.plan = .ok namesakesPlan := by
  have hstaging : namesakes.staging = .ok ⟨[[⟨1⟩, ⟨2⟩], [⟨3⟩]]⟩ := by cbv
  rw [Graph.plan, hstaging]
  rfl

end Graph

namespace RunState

/-- The output of the first node is told from that of all others. -/
def firstMarked : RunSetting where
  runId := "a"
  taskName := "1"
  respond r := .outputs (KeyMap.empty.insert "out" (.bool (r.nodeId = ⟨1⟩)))
  refusal? _ := none

theorem initial_namesakesPlan : RunState.initial "a" Graph.namesakesPlan none false =
    { report := ⟨"a", [⟨1⟩, ⟨2⟩, ⟨3⟩].map fun id => (id, .initial), none⟩
      events := []
      calls := []
      cancelled := false
      permits := none
      phase := .created
      upcoming := Graph.namesakesPlan.stages
      undispatched := []
      waiting := []
      inFlight := [] } := by
  have hsorted : Graph.namesakesPlan.nodeIds.mergeSort (fun a b => decide (a.value ≤ b.value)) =
      [⟨1⟩, ⟨2⟩, ⟨3⟩] := by cbv
  rw [RunState.initial, Report.initial, hsorted]

/-- The calls of all nodes of the graph with sockets of one name. -/
def namesakesMoves : List Move :=
  [.announce, .openStage, .dispatch, .dispatch, .launch ⟨1⟩, .launch ⟨2⟩, .settle ⟨1⟩, .settle ⟨2⟩,
    .closeStage, .openStage, .dispatch, .launch ⟨3⟩]

theorem namesakes_run : ∃ s,
    (RunState.initial firstMarked.runId Graph.namesakesPlan none false).after? firstMarked
        namesakesMoves = some s ∧
      s.calls.map (fun r => (r.nodeId, r.inputs.entries)) =
        [(⟨1⟩, []), (⟨2⟩, []), (⟨3⟩, [("x", .bool false)])] ∧
      (s.report.outputs? ⟨1⟩).map KeyMap.entries = some [("out", .bool true)] := by
  have hend : ((RunState.initial firstMarked.runId Graph.namesakesPlan none false).after?
      firstMarked namesakesMoves).map (fun s =>
        (s.calls.map (fun r => (r.nodeId, r.inputs.entries)),
          (s.report.outputs? ⟨1⟩).map KeyMap.entries)) =
      some ([(⟨1⟩, []), (⟨2⟩, []), (⟨3⟩, [("x", .bool false)])],
        some [("out", .bool true)]) := by
    rw [show firstMarked.runId = "a" from rfl, initial_namesakesPlan]
    rfl
  obtain ⟨s, hrun, hend⟩ := Option.map_eq_some_iff.mp hend
  obtain ⟨hcalls, houtputs⟩ := Prod.mk.inj hend
  exact ⟨s, hrun, hcalls, houtputs⟩

theorem mem_calls_namesakes {calls : List Request}
    (hcalls : calls.map (fun r => (r.nodeId, r.inputs.entries)) =
      [(⟨1⟩, []), (⟨2⟩, []), (⟨3⟩, [("x", .bool false)])]) :
    ∃ r ∈ calls, r.nodeId = ⟨3⟩ ∧ r.inputs.entries = [("x", .bool false)] := by
  have hmem : ((⟨3⟩, [("x", .bool false)]) : NodeId × List (String × Datum)) ∈
      calls.map fun r => (r.nodeId, r.inputs.entries) := by
    rw [hcalls]
    simp
  obtain ⟨r, hr, heq⟩ := List.mem_map.mp hmem
  obtain ⟨hid, hentries⟩ := Prod.mk.inj heq
  exact ⟨r, hr, hid, hentries⟩

/-- Nothing rules out sockets of one name: the graph has a plan, a node with two inputs is called
with one entry, and the output that the link to its first input carries is lost. -/
theorem sockets_conflated_namesakes : Graph.namesakes.Reachable ∧
    Graph.namesakes.plan = .ok Graph.namesakesPlan ∧
    (∃ planned ∈ Graph.namesakesPlan.nodes, ¬ (planned.inputs.map PlannedInput.name).Nodup) ∧
    (∃ planned ∈ Graph.namesakesPlan.nodes, ¬ planned.outputNames.Nodup) ∧
    ∃ s, (RunState.initial firstMarked.runId Graph.namesakesPlan none false).after? firstMarked
        namesakesMoves = some s ∧
      (s.report.outputs? ⟨1⟩).map KeyMap.entries = some [("out", .bool true)] ∧
      ∃ r ∈ s.calls, r.inputs.entries = [("x", .bool false)] ∧
        ∃ node ∈ Graph.namesakes.nodes, node.id = r.nodeId ∧ node.inputs.length = 2 := by
  obtain ⟨s, hrun, hcalls, houtputs⟩ := namesakes_run
  obtain ⟨r, hr, hid, hentries⟩ := mem_calls_namesakes hcalls
  refine ⟨Graph.namesakes_reachable, Graph.plan_namesakes, ?_, ?_, s, hrun, houtputs, r, hr,
    hentries, ?_⟩
  · decide
  · decide
  · rw [hid]
    decide

/-- The call of the node with two inputs of one name has the one entry that there is for them. -/
theorem sockets_apart_namesakes : ∃ s,
    (RunState.initial firstMarked.runId Graph.namesakesPlan none false).after? firstMarked
        namesakesMoves = some s ∧
      ∃ r ∈ s.calls, r.nodeId = ⟨3⟩ ∧ r.inputs.keys.Perm ["x"] := by
  obtain ⟨s, hrun, hcalls, -⟩ := namesakes_run
  obtain ⟨r, hr, hid, -⟩ := mem_calls_namesakes hcalls
  obtain ⟨hrequests, -, -⟩ :=
    sockets_apart_by_name Graph.namesakes_reachable Graph.plan_namesakes hrun
  obtain ⟨node, hnode, hapart⟩ := hrequests r hr
  have hnames : ∀ node ∈ Graph.namesakes.nodes, node.id = ⟨3⟩ →
      (node.inputs.map Socket.name).dedup = ["x"] := by decide
  refine ⟨s, hrun, r, hr, hid, ?_⟩
  rw [← hnames node hnode (hapart.nodeId_eq.symm.trans hid)]
  exact hapart.keys

end RunState

end Dataflow
