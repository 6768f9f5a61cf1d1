import Dataflow.Proofs.Run.Moves

/-! # Where the nodes of a run are

A node is fresh, then in the hands of a task, and then it has been dealt with. Each of these says
what its record is and which requests have been made for it, and each lasts as long as nothing
happens to the node and to the nodes that it reads from.
-/

namespace Dataflow

namespace RunState

/-- The requests that have been made for a node. -/
def callsOf (s : RunState) (id : NodeId) : List Request :=
  s.calls.filter (·.nodeId = id)

/-- The open stage, if there is one. -/
def openStages (s : RunState) : List Stage :=
  match s.phase with
  | .inStage stage => [stage]
  | _ => []

/-- The ids of some nodes, tasks and requests. -/
def heldIds (nodes : List PlannedNode) (tasks : List Task) (requests : List Request) :
    List NodeId :=
  nodes.map PlannedNode.id ++ (tasks.map (·.node.id) ++ requests.map Request.nodeId)

/-- The nodes of the open stage that have not been dealt with. -/
def activeIds (s : RunState) : List NodeId :=
  heldIds s.undispatched s.waiting s.inFlight

/-- Nothing has happened to a node. -/
def Fresh (s : RunState) (id : NodeId) : Prop :=
  s.report.record? id = some .initial ∧ s.callsOf id = []

/-- A task has what its node is to be called with. -/
def Ready (s : RunState) (t : Task) : Prop :=
  s.Fresh t.node.id ∧ s.report.gather t.node.inputs = .ok t.inputs

/-- The call of a task goes on. -/
def Calling (env : RunSetting) (s : RunState) (t : Task) : Prop :=
  s.report.record? t.node.id = some (NodeRecord.initial.start t.inputs) ∧
    s.callsOf t.node.id = [t.request env.runId] ∧ s.report.gather t.node.inputs = .ok t.inputs

/-- A node has been dealt with: the run was cancelled first, or a feeder has not provided an input,
or its only call has ended. -/
inductive Settled (env : RunSetting) (s : RunState) (node : PlannedNode) : Prop
  | cancelled (hcancelled : s.cancelled = true)
      (hrecord : s.report.record? node.id =
        some (NodeRecord.initial.skip .cancelledBeforeStart))
      (hcalls : s.callsOf node.id = [])
  | blocked {feeder : NodeId} (hgather : s.report.gather node.inputs = .error feeder)
      (hrecord : s.report.record? node.id =
        some (NodeRecord.initial.skip (.feederFailed feeder)))
      (hcalls : s.callsOf node.id = [])
  | answered {t : Task} (hnode : t.node = node)
      (hgather : s.report.gather node.inputs = .ok t.inputs)
      (hrecord : s.report.record? node.id = some ((NodeRecord.initial.start t.inputs).answer
        ((env.respond (t.request env.runId)).outcome node.outputNames)))
      (hcalls : s.callsOf node.id = [t.request env.runId])

/-- Nothing happens to a node between two states. -/
structure SameAt (s s' : RunState) (id : NodeId) : Prop where
  record? : s'.report.record? id = s.report.record? id
  callsOf : s'.callsOf id = s.callsOf id

/-! ### Lists of ids -/

theorem sublist_middle {α : Type} (before after : List α) (a : α) :
    (before ++ after).Sublist (before ++ a :: after) :=
  (List.sublist_cons_self a after).append_left before

section

variable {nodes : List PlannedNode} {tasks : List Task} {requests : List Request}

theorem id_mem_heldIds {node : PlannedNode} (h : node ∈ nodes) :
    node.id ∈ heldIds nodes tasks requests :=
  List.mem_append_left _ (List.mem_map_of_mem h)

theorem task_mem_heldIds {t : Task} (h : t ∈ tasks) : t.node.id ∈ heldIds nodes tasks requests :=
  List.mem_append_right _
    (List.mem_append_left _ (List.mem_map_of_mem (f := fun t : Task => t.node.id) h))

theorem request_mem_heldIds {r : Request} (h : r ∈ requests) :
    r.nodeId ∈ heldIds nodes tasks requests :=
  List.mem_append_right _ (List.mem_append_right _ (List.mem_map_of_mem h))

theorem heldIds_middle_task (before after : List Task) (t : Task) :
    (heldIds nodes (before ++ t :: after) requests).Perm
      (t.node.id :: heldIds nodes (before ++ after) requests) := by
  apply List.perm_iff_count.mpr
  intro id
  simp only [heldIds, List.map_append, List.map_cons, List.count_append, List.count_cons]
  omega

theorem heldIds_middle_request (before after : List Request) (r : Request) :
    (heldIds nodes tasks (before ++ r :: after)).Perm
      (r.nodeId :: heldIds nodes tasks (before ++ after)) := by
  apply List.perm_iff_count.mpr
  intro id
  simp only [heldIds, List.map_append, List.map_cons, List.count_append, List.count_cons]
  omega

theorem heldIds_concat_task (t : Task) :
    (heldIds nodes (tasks ++ [t]) requests).Perm (t.node.id :: heldIds nodes tasks requests) :=
  (heldIds_middle_task tasks [] t).trans (.of_eq (by rw [List.append_nil]))

theorem heldIds_concat_request (r : Request) :
    (heldIds nodes tasks (requests ++ [r])).Perm (r.nodeId :: heldIds nodes tasks requests) :=
  (heldIds_middle_request requests [] r).trans (.of_eq (by rw [List.append_nil]))

end

/-! ### What nothing happens to -/

section

variable {env : RunSetting} {s s' : RunState}

theorem SameAt.gather {node : PlannedNode} (h : ∀ id ∈ node.feeders, s.SameAt s' id) :
    s'.report.gather node.inputs = s.report.gather node.inputs :=
  Report.gather_congr fun id hid => (h id hid).record?

theorem Fresh.of_sameAt {id : NodeId} (h : s.Fresh id) (hsame : s.SameAt s' id) : s'.Fresh id :=
  ⟨hsame.record?.trans h.1, hsame.callsOf.trans h.2⟩

theorem Ready.of_sameAt {t : Task} (h : s.Ready t) (hsame : s.SameAt s' t.node.id)
    (hfeeders : ∀ id ∈ t.node.feeders, s.SameAt s' id) : s'.Ready t :=
  ⟨h.1.of_sameAt hsame, (SameAt.gather hfeeders).trans h.2⟩

theorem Calling.of_sameAt {t : Task} (h : s.Calling env t) (hsame : s.SameAt s' t.node.id)
    (hfeeders : ∀ id ∈ t.node.feeders, s.SameAt s' id) : s'.Calling env t :=
  ⟨hsame.record?.trans h.1, hsame.callsOf.trans h.2.1, (SameAt.gather hfeeders).trans h.2.2⟩

theorem Settled.of_sameAt {node : PlannedNode} (h : s.Settled env node)
    (hcancelled : s.cancelled = true → s'.cancelled = true) (hsame : s.SameAt s' node.id)
    (hfeeders : ∀ id ∈ node.feeders, s.SameAt s' id) : s'.Settled env node := by
  cases h with
  | cancelled hc hrecord hcalls =>
      exact .cancelled (hcancelled hc) (hsame.record?.trans hrecord) (hsame.callsOf.trans hcalls)
  | blocked hgather hrecord hcalls =>
      exact .blocked ((SameAt.gather hfeeders).trans hgather) (hsame.record?.trans hrecord)
        (hsame.callsOf.trans hcalls)
  | answered hnode hgather hrecord hcalls =>
      exact .answered hnode ((SameAt.gather hfeeders).trans hgather)
        (hsame.record?.trans hrecord) (hsame.callsOf.trans hcalls)

theorem Settled.isSettled {node : PlannedNode} (h : s.Settled env node) :
    s.report.isSettled node.id = true := by
  cases h with
  | cancelled _ hrecord _ | blocked _ hrecord _ => exact Report.isSettled_of_record? hrecord
  | answered _ _ hrecord _ =>
      simp only [Report.isSettled, Report.status?, hrecord, NodeRecord.answer]
      split <;> rfl

theorem Settled.failed_or_skipped {node : PlannedNode} (h : s.Settled env node)
    (hnot : s.report.status? node.id ≠ some .succeeded) :
    s.report.status? node.id = some .failed ∨ s.report.status? node.id = some .skipped := by
  cases h with
  | cancelled _ hrecord _ => exact .inr (Report.status?_of_record? hrecord)
  | blocked _ hrecord _ => exact .inr (Report.status?_of_record? hrecord)
  | answered _ _ hrecord _ =>
      have hstatus := Report.status?_of_record? hrecord
      rw [NodeRecord.status_answer] at hstatus
      split at hstatus
      · exact absurd hstatus hnot
      · exact .inl hstatus

@[simp] theorem mem_callsOf_iff {id : NodeId} {r : Request} :
    r ∈ s.callsOf id ↔ r ∈ s.calls ∧ r.nodeId = id := by
  simp [callsOf]

/-- What the record of a called node says once the node has been dealt with. -/
theorem Settled.record?_of_mem_calls {node : PlannedNode} (h : s.Settled env node) {r : Request}
    (hr : r ∈ s.calls) (hid : r.nodeId = node.id) :
    s.report.record? node.id = some ((NodeRecord.initial.start r.inputs).answer
      ((env.respond r).outcome node.outputNames)) := by
  have hmem : r ∈ s.callsOf node.id := mem_callsOf_iff.mpr ⟨hr, hid⟩
  cases h with
  | cancelled _ _ hcalls => simp [hcalls] at hmem
  | blocked _ _ hcalls => simp [hcalls] at hmem
  | answered _ _ hrecord hcalls =>
      rw [hcalls, List.mem_singleton] at hmem
      rw [hmem]
      exact hrecord

/-- A node that has succeeded has provided all outputs that it declares. -/
theorem Settled.contains_of_outputs? {node : PlannedNode} (h : s.Settled env node) {values : Values}
    (houtputs : s.report.outputs? node.id = some values) {name : String}
    (hname : name ∈ node.outputNames) : values.contains name = true := by
  cases h with
  | cancelled _ hrecord _ => simp [Report.outputs?, hrecord, NodeRecord.skip] at houtputs
  | blocked _ hrecord _ => simp [Report.outputs?, hrecord, NodeRecord.skip] at houtputs
  | @answered t _ _ hrecord _ =>
      rw [Report.outputs?, hrecord, Option.bind_some] at houtputs
      cases houtcome : (env.respond (t.request env.runId)).outcome node.outputNames with
      | error failure => simp [houtcome, NodeRecord.answer, NodeRecord.fail] at houtputs
      | ok found =>
          rw [houtcome] at houtputs
          obtain rfl : found = values := by
            simpa [NodeRecord.answer, NodeRecord.succeed] using houtputs
          exact (Response.outcome_eq_ok_iff.mp houtcome).2 name hname

end

end RunState

end Dataflow
