import Dataflow.Proofs.IndexedGraph.Failures
import Dataflow.Proofs.Run.Accounts

/-! # What a run leaves behind in its graph

A run works on a plan, so its graph can be edited meanwhile. When the run is over, the statuses in
its report are set at the nodes that are still there, and nothing else is touched. The report has
one record for every node that was planned, so it does not matter in which order that is done.
-/

namespace Dataflow

open Relation

/-! ### Setting statuses -/

namespace IndexedGraph

/-- The graph with other statuses of its nodes. -/
def withStatuses (s : IndexedGraph) (status : Node → NodeStatus) : IndexedGraph :=
  { s with
    graph := { s.graph with
      nodes := s.graph.nodes.map fun node => { node with status := status node } } }

variable {s : IndexedGraph}

theorem withStatuses_congr {status status' : Node → NodeStatus}
    (h : ∀ node ∈ s.graph.nodes, status node = status' node) :
    s.withStatuses status = s.withStatuses status' := by
  have hnodes : (s.graph.nodes.map fun node => { node with status := status node }) =
      s.graph.nodes.map fun node => { node with status := status' node } :=
    List.map_congr_left fun node hnode => by rw [h node hnode]
  rw [withStatuses, withStatuses, hnodes]

@[simp] theorem withStatuses_self (s : IndexedGraph) : s.withStatuses Node.status = s := by
  have hnodes : (s.graph.nodes.map fun node => { node with status := node.status }) =
      s.graph.nodes := List.map_id _
  rw [withStatuses, hnodes]

@[simp] theorem withStatuses_withStatuses (s : IndexedGraph) (status status' : Node → NodeStatus) :
    (s.withStatuses status).withStatuses status' =
      s.withStatuses fun node => status' { node with status := status node } := by
  simp [withStatuses, Function.comp_def]

/-- The node of an id is the only one that gets the status. -/
theorem Sound.setStatus_eq_ok (hs : s.Sound) {id : NodeId} {status : NodeStatus}
    {next : IndexedGraph} (h : s.setStatus id status = .ok next) :
    next = s.withStatuses fun node => if node.id = id then status else node.status := by
  have hnodes : ∀ node : Node, (if node.id = id then { node with status := status } else node) =
      { node with status := if node.id = id then status else node.status } := by
    intro node
    split <;> rfl
  unfold IndexedGraph.setStatus IndexedGraph.updateNode at h
  split at h
  next => cases h
  next place hplace =>
    rw [hs.modify_eq_map hplace] at h
    rw [← Except.ok.inj h, withStatuses, List.map_congr_left fun node _ => hnodes node]

theorem Sound.setStatus_eq_error (hs : s.Sound) {id : NodeId} {status : NodeStatus}
    {e : GraphError} (h : s.setStatus id status = .error e) :
    s = s.withStatuses fun node => if node.id = id then status else node.status := by
  have hmissing := ((updateNode_eq_error_iff hs).mp h).2
  refine s.withStatuses_self.symm.trans (withStatuses_congr fun node hnode => (if_neg ?_).symm)
  rintro rfl
  exact hmissing (List.mem_map_of_mem hnode)

/-- Whether the node of the first record is there or not, the record is for its id alone. -/
theorem Sound.applyStatuses_singleton (hs : s.Sound) (runId : String)
    (entry : NodeId × NodeRecord) (overall : Option OverallStatus) :
    (s.applyStatuses ⟨runId, [entry], overall⟩).Sound ∧
      s.applyStatuses ⟨runId, [entry], overall⟩ = s.withStatuses fun node =>
        if node.id = entry.1 then entry.2.status else node.status := by
  rw [applyStatuses, List.foldl_cons, List.foldl_nil]
  split
  next next hset => exact ⟨hs.setStatus hset, hs.setStatus_eq_ok hset⟩
  next e hset => exact ⟨hs, hs.setStatus_eq_error hset⟩

/-- The statuses of a report, which has one record for every node, are set all at once. -/
theorem Sound.applyStatuses_eq (hs : s.Sound) {r : Report} (hr : r.ids.Nodup) :
    s.applyStatuses r = s.withStatuses fun node => (r.status? node.id).getD node.status := by
  obtain ⟨runId, records, overall⟩ := r
  induction records generalizing s with
  | nil => exact s.withStatuses_self.symm
  | cons entry records ih =>
      obtain ⟨hnew, hrest⟩ := List.nodup_cons.mp hr
      obtain ⟨hfirst, hstep⟩ := hs.applyStatuses_singleton runId entry overall
      refine (ih hfirst hrest).trans ?_
      rw [hstep, withStatuses_withStatuses]
      refine withStatuses_congr fun node _ => ?_
      by_cases hid : node.id = entry.1
      · have hnone : records.find? (·.1 = entry.1) = none :=
          List.find?_eq_none.mpr fun other hother heq =>
            hnew (of_decide_eq_true heq ▸ List.mem_map_of_mem hother)
        simp [Report.status?, Report.record?, hid, hnone]
      · simp [Report.status?, Report.record?, hid, Ne.symm hid]

end IndexedGraph

/-! ### Reports of runs -/

namespace RunState

variable {plan : Plan} {s : RunState}

namespace Covers

theorem exists_status_iff (h : Covers plan s) {id : NodeId} :
    (∃ status, s.report.status? id = some status) ↔ id ∈ plan.nodeIds := by
  rw [← h.ids.mem_iff]
  constructor
  · rintro ⟨status, hstatus⟩
    obtain ⟨record, hrecord, -⟩ := Option.map_eq_some_iff.mp hstatus
    exact Report.mem_ids_of_record? hrecord
  · intro hid
    obtain ⟨record, hrecord⟩ := Report.exists_record?_of_mem hid
    exact ⟨record.status, Report.status?_of_record? hrecord⟩

/-- When a run is over no stage is open and none is left, so all nodes have been dealt with. -/
theorem isSettled_of_finished (h : Covers plan s) (haccounted : Accounted plan s)
    (hphase : s.phase = .finished) {id : NodeId} (hid : id ∈ plan.nodeIds) :
    s.report.isSettled id = true := by
  obtain ⟨past, hstages, hpast⟩ := haccounted.stages
  rw [openStages, hphase, h.finished hphase, List.append_nil, List.append_nil] at hstages
  obtain ⟨node, hnode, rfl⟩ := List.mem_map.mp hid
  exact hpast node (hstages ▸ hnode)

end Covers

end RunState

/-! ### Runs and edits -/

namespace IndexedGraph

open RunState Editing

variable {s : IndexedGraph}

/-- A run changes nothing but statuses. When it is started, all nodes become pending. When it is
waited for, every node has its terminal status in the report afterwards. When the graph is edited
meanwhile, in whatever way, the nodes that are in the report and in the graph then get the status in
the report, and all else is as the edits have left it. -/
theorem runs_change_statuses (hs : s.Reachable) {plan : Plan} (hplan : s.graph.plan = .ok plan)
    {env : RunSetting} {limit : Option Nat} {cancelled : Bool} {moves : List Move}
    {last : RunState}
    (hrun : (RunState.initial env.runId plan limit cancelled).after? env moves = some last) :
    (execute (m := Id)).runFrom s = (.ok plan, s.withStatuses fun _ => .pending) ∧
    (∀ id, (∃ status, last.report.status? id = some status) ↔ id ∈ s.graph.nodeIds) ∧
    (last.phase = .finished →
      (∀ id ∈ s.graph.nodeIds, ∃ status, last.report.status? id = some status ∧
        status.isTerminal = true) ∧
      ∀ drive : Plan → Id Report, drive plan = last.report →
        (runToEnd drive).runFrom s = (.ok last.report,
          s.withStatuses fun node => (last.report.status? node.id).getD node.status)) ∧
    ∀ t, ReflTransGen Step (s.withStatuses fun _ => .pending) t →
      t.applyStatuses last.report =
        t.withStatuses fun node => (last.report.status? node.id).getD node.status := by
  have hcovers := Covers.run hrun
  have hplanned := Graph.plannedAs_of_plan hs.graph hplan
  have hnodup : last.report.ids.Nodup := hcovers.ids.nodup_iff.mpr hplanned.ordered.nodup
  have hids : ∀ id, (∃ status, last.report.status? id = some status) ↔ id ∈ s.graph.nodeIds :=
    fun id => hcovers.exists_status_iff.trans hplanned.perm.mem_iff
  have hreset : s.resetStatuses.Reachable := hs.step (.resetStatuses s)
  refine ⟨?_, hids, fun hphase => ⟨fun id hid => ?_, fun drive hdrive => ?_⟩, fun t ht => ?_⟩
  · rw [runFrom_execute, hplan]
    rfl
  · obtain ⟨status, hstatus⟩ := (hids id).mpr hid
    have hsettled := hcovers.isSettled_of_finished (Accounted.run hplanned.ordered hrun) hphase
      (hplanned.perm.mem_iff.mpr hid)
    rw [Report.isSettled, hstatus] at hsettled
    exact ⟨status, hstatus, hsettled⟩
  · rw [runFrom_runToEnd, hplan]
    change settled s (.ok (drive plan, s.resetStatuses.applyStatuses (drive plan))) = _
    have hpending : s.resetStatuses = s.withStatuses fun _ => .pending := rfl
    rw [hdrive, hreset.sound.applyStatuses_eq hnodup, hpending, withStatuses_withStatuses]
    refine congrArg (Prod.mk _) (withStatuses_congr fun node hnode => ?_)
    obtain ⟨status, hstatus⟩ := (hids node.id).mpr (List.mem_map_of_mem hnode)
    simp [hstatus]
  · exact (hreset.history ht).sound.applyStatuses_eq hnodup

/-- A node that nothing feeds. -/
def latecomer : Node := ⟨⟨9⟩, .function ⟨⟨"f.py"⟩, "f"⟩, [], [], .empty, .pending⟩

/-- While the diamond is run its last node is removed and another node is inserted. The statuses of
the first three nodes are set, with or without these edits. -/
theorem runs_change_statuses_diamond :
    ∃ (s t : IndexedGraph) (last : RunState), s.graph = Graph.diamond ∧
      (RunState.initial "a" Graph.diamondPlan (some 1) false).after? (oneFails "a")
        (diamondMoves [.launch ⟨3⟩, .settle ⟨3⟩, .launch ⟨2⟩, .settle ⟨2⟩]) = some last ∧
      ReflTransGen Step (s.withStatuses fun _ => .pending) t ∧
      (∃ ended, (runToEnd (m := Id) fun _ => last.report).runFrom s = (.ok last.report, ended) ∧
        ended.graph.nodes.map (fun node => (node.id, node.status)) =
          [(⟨1⟩, .succeeded), (⟨2⟩, .failed), (⟨3⟩, .succeeded), (⟨4⟩, .skipped)]) ∧
      (t.applyStatuses last.report).graph.nodes.map (fun node => (node.id, node.status)) =
        [(⟨1⟩, .succeeded), (⟨2⟩, .failed), (⟨3⟩, .succeeded), (⟨9⟩, .pending)] := by
  have hdocument : Graph.ofDocument Graph.diamond.toDocument = .ok Graph.diamond := by cbv
  rw [← Sound.map_ofDocument] at hdocument
  obtain ⟨s, hloaded, hgraph⟩ := map_eq_ok_iff.mp hdocument
  have hs : s.Reachable := .loaded hloaded
  have hend : ((RunState.initial "a" Graph.diamondPlan (some 1) false).after? (oneFails "a")
      (diamondMoves [.launch ⟨3⟩, .settle ⟨3⟩, .launch ⟨2⟩, .settle ⟨2⟩])).map
        (fun last => (last.phase, [1, 2, 3, 4, 9].map fun id => last.report.status? ⟨id⟩)) =
      some (.finished,
        [some .succeeded, some .failed, some .succeeded, some .skipped, none]) := by
    rw [initial_diamondPlan]
    rfl
  obtain ⟨last, hrun, hend⟩ := Option.map_eq_some_iff.mp hend
  obtain ⟨hphase, hstatuses⟩ := Prod.mk.inj hend
  simp only [List.map_cons, List.map_nil, List.cons.injEq, and_true] at hstatuses
  obtain ⟨hfirst, hsecond, hthird, hfourth, hnew⟩ := hstatuses
  obtain ⟨-, -, hfinished, hedited⟩ :=
    runs_change_statuses hs (hgraph ▸ Graph.plan_diamond) hrun
  have hpending : (s.withStatuses fun _ => .pending).Reachable := hs.step (.resetStatuses s)
  have hremoved := hpending.step (.removeNode _ ⟨4⟩)
  have hnodes : (((s.withStatuses fun _ => .pending).removeNode ⟨4⟩).2.graph.insertNode
      latecomer).map (fun g => g.nodes.map fun node => (node.id, node.status)) =
        .ok [(⟨1⟩, .pending), (⟨2⟩, .pending), (⟨3⟩, .pending), (⟨9⟩, .pending)] := by
    rw [hpending.sound.graph_removeNode, withStatuses, hgraph]
    rfl
  obtain ⟨g, hg, hnodes⟩ := map_eq_ok_iff.mp hnodes
  rw [← hremoved.sound.map_insertNode] at hg
  obtain ⟨t, hinsert, rfl⟩ := map_eq_ok_iff.mp hg
  have ht : ReflTransGen Step (s.withStatuses fun _ => .pending) t :=
    .tail (.single (.removeNode _ ⟨4⟩)) (.insertNode hinsert)
  have hmarks : ∀ u : IndexedGraph,
      (u.withStatuses fun node =>
          (last.report.status? node.id).getD node.status).graph.nodes.map
            (fun node => (node.id, node.status)) =
        (u.graph.nodes.map fun node => (node.id, node.status)).map
          fun mark => (mark.1, (last.report.status? mark.1).getD mark.2) := by
    intro u
    simp [withStatuses, Function.comp_def]
  refine ⟨s, t, last, hgraph, hrun, ht,
    ⟨_, (hfinished hphase).2 (fun _ => last.report) rfl, ?_⟩, ?_⟩
  · rw [hmarks, hgraph]
    simp [Graph.diamond, Graph.withLink, Graph.withNode, Graph.connect, Graph.addNode, Graph.empty,
      hfirst, hsecond, hthird, hfourth]
  · rw [hedited t ht, hmarks, hnodes]
    simp [hfirst, hsecond, hthird, hnew]

end IndexedGraph

end Dataflow
