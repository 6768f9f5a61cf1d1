import Dataflow.Proofs.Planning
import Dataflow.Proofs.Run.Progress
import Dataflow.Proofs.Run.Requests

/-! # Where the inputs of a call come from

Planning turns the link to an input into the name of an output, and the run looks that name up among
the outputs that have been recorded. A request therefore has the values that the links and
parameters of the graph stand for, and its record keeps them.
-/

namespace Dataflow

/-- A socket with no socket of its name after it. -/
structure LastOfName (sockets : List Socket) (i : Nat) (socket : Socket) : Prop where
  get : sockets[i]? = some socket
  last : ∀ j other, i < j → sockets[j]? = some other → other.name ≠ socket.name

/-- A request for a node with what the graph provides its inputs with, as far as a report tells. -/
structure Delivers (g : Graph) (report : Report) (node : Node) (r : Request) : Prop where
  nodeId_eq : r.nodeId = node.id
  functionRef_eq : r.functionRef = node.functionRef
  outputNames_eq : r.outputNames = node.outputs.map Socket.name
  keys : ∀ name, name ∈ r.inputs.keys ↔ name ∈ node.inputs.map Socket.name
  linked : ∀ i socket, LastOfName node.inputs i socket →
    ∀ link ∈ g.links, link.slot = (node.id, UInt64.ofNat i) →
      ∃ feeder ∈ g.nodes, feeder.id = link.source ∧ ∃ output,
        feeder.outputs[link.output.toNat]? = some output ∧ ∃ values value,
          report.outputs? link.source = some values ∧ values.get? output.name = some value ∧
            r.inputs.get? socket.name = some value
  unlinked : ∀ i socket, LastOfName node.inputs i socket →
    (∀ link ∈ g.links, link.slot ≠ (node.id, UInt64.ofNat i)) →
      ∃ value, node.parameters.get? socket.name = some value ∧
        r.inputs.get? socket.name = some value
  recorded : ∃ record, report.record? node.id = some record ∧ record.inputs = r.inputs

namespace Graph.Resolves

variable {g : Graph} {node : Node} {report : Report}

/-- The value under a name is that of the last input of the name. -/
theorem exists_value {planned : PlannedNode} (h : g.Resolves node planned) {values : Values}
    (hgather : report.gather planned.inputs = .ok values) {i : Nat} {socket : Socket}
    (hlast : LastOfName node.inputs i socket) {source : InputSource}
    (hinput : planned.inputs[i]? = some ⟨socket.name, source⟩) :
    ∃ value, report.inputValue source = .ok value ∧ values.get? socket.name = some value := by
  refine Report.get?_of_gather hgather hinput fun j other hij hother => ?_
  have hname : (node.inputs.map Socket.name)[j]? = some other.name := by
    rw [← h.map_name, List.getElem?_map, hother, Option.map_some]
  rw [List.getElem?_map, Option.map_eq_some_iff] at hname
  obtain ⟨found, hfound, heq⟩ := hname
  exact heq ▸ hlast.last j found hij hfound

theorem delivers {t : Task} (h : g.Resolves node t.node) (hg : g.nodeIds.Nodup)
    (hvalid : g.Valid) (hgather : report.gather t.node.inputs = .ok t.inputs)
    (hinputs : report.inputs? t.node.id = some t.inputs) (runId : String) :
    Delivers g report node (t.request runId) where
  nodeId_eq := h.id_eq
  functionRef_eq := h.functionRef_eq
  outputNames_eq := h.outputNames_eq
  keys name := by
    rw [← h.map_name]
    exact Report.mem_keys_of_gather hgather
  linked i socket hlast link hlink hslot := by
    obtain ⟨feeder, hfeeder, hid, output, houtput, hinput⟩ :=
      (h.supplied hg hvalid).linked i socket hlast.get link hlink hslot
    obtain ⟨value, hvalue, hget⟩ := h.exists_value hgather hlast hinput
    obtain ⟨values, hvalues, hname⟩ := Report.inputValue_fromLink_eq_ok_iff.mp hvalue
    exact ⟨feeder, hfeeder, hid, output, houtput, values, value, hvalues, hname, hget⟩
  unlinked i socket hlast hnone := by
    obtain ⟨value, hparameter, hinput⟩ :=
      (h.supplied hg hvalid).unlinked i socket hlast.get hnone
    obtain ⟨found, hfound, hget⟩ := h.exists_value hgather hlast hinput
    cases hfound
    exact ⟨value, hparameter, hget⟩
  recorded := Option.map_eq_some_iff.mp (h.id_eq ▸ hinputs)

end Graph.Resolves

namespace RunState

/-- Every request of a sound state is for a node of the graph and delivers what the graph
provides. -/
theorem Sound.exists_delivers {g : Graph} (hg : g.Reachable) {plan : Plan}
    (hplan : g.plan = .ok plan) {env : RunSetting} {s : RunState} (hs : Sound env plan s)
    {r : Request} (hr : r ∈ s.calls) : ∃ node ∈ g.nodes, Delivers g s.report node r := by
  have hnodup := hg.wellKept.nodup_nodeIds
  obtain ⟨hstaging, hresolved⟩ := Graph.plan_eq_ok hnodup hplan
  have hvalid := ((Graph.staging_eq_ok_iff hnodup).mp hstaging).1
  obtain ⟨t, rfl, hplanned, hgather, hinputs⟩ := hs.calls r hr
  obtain ⟨node, hnode, hresolves⟩ := hresolved t.node hplanned
  exact ⟨node, hnode, hresolves.delivers hnodup hvalid hgather hinputs env.runId⟩

/-- Whatever an observer does and whenever a run is cancelled, each of its requests is for a node of
the graph and has what the links and the parameters provide, and neither the outputs that it has
been given nor the inputs in the record of its node change later on. -/
theorem request_delivers {g : Graph} (hg : g.Reachable) {plan : Plan} (hplan : g.plan = .ok plan)
    {env : RunSetting} {limit : Option Nat} {cancelled : Bool} {moves later : List Move}
    {s s' : RunState}
    (hrun : (RunState.initial env.runId plan limit cancelled).after? env moves = some s)
    (hlater : s.after? env later = some s') :
    ∀ r ∈ s.calls, r ∈ s'.calls ∧ ∃ node ∈ g.nodes, Delivers g s'.report node r := by
  have hordered := (Graph.plannedAs_of_plan hg hplan).ordered
  have hsound := ((Sound.start hordered limit cancelled).after hrun).after hlater
  intro r hr
  have hr' := mem_calls_of_after? hlater hr
  exact ⟨hr', hsound.exists_delivers hg hplan hr'⟩

/-- The first call of the diamond has ended when the second one is made, and both of the requests
agree with the report of the end. -/
theorem request_delivers_diamond : ∃ s s',
    (RunState.initial "a" Graph.diamondPlan none false).after? (oneFails "a")
        [.announce, .openStage, .dispatch, .launch ⟨1⟩, .settle ⟨1⟩, .closeStage, .openStage,
          .dispatch, .dispatch, .launch ⟨3⟩] = some s ∧
      s.after? (oneFails "a") [.launch ⟨2⟩, .settle ⟨3⟩, .settle ⟨2⟩] = some s' ∧
      ∃ r ∈ s'.calls, r.nodeId = ⟨3⟩ ∧
        ∃ node ∈ Graph.diamond.nodes, Delivers Graph.diamond s'.report node r := by
  have hstart : ((RunState.initial "a" Graph.diamondPlan none false).after? (oneFails "a")
      [.announce, .openStage, .dispatch, .launch ⟨1⟩, .settle ⟨1⟩, .closeStage, .openStage,
        .dispatch, .dispatch, .launch ⟨3⟩]).map
      (fun s => (s.calls.map Request.nodeId,
        (s.after? (oneFails "a") [.launch ⟨2⟩, .settle ⟨3⟩, .settle ⟨2⟩]).isSome)) =
          some ([⟨1⟩, ⟨3⟩], true) := by
    rw [initial_diamondPlan]
    rfl
  obtain ⟨s, hrun, hstart⟩ := Option.map_eq_some_iff.mp hstart
  obtain ⟨hcalled, hgoes⟩ := Prod.mk.inj hstart
  obtain ⟨s', hlater⟩ := Option.isSome_iff_exists.mp hgoes
  have hmem : (⟨3⟩ : NodeId) ∈ s.calls.map Request.nodeId := by simp [hcalled]
  obtain ⟨r, hr, hid⟩ := List.mem_map.mp hmem
  obtain ⟨hr', hdelivers⟩ := request_delivers Graph.diamond_reachable Graph.plan_diamond hrun
    hlater r hr
  exact ⟨s, s', hrun, hlater, r, hr', hid, hdelivers⟩

end RunState

end Dataflow
