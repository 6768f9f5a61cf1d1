import Dataflow.Proofs.Run.Progress
import Mathlib.Logic.Relation

/-! # How records change

A move changes the record of one node at most: a record nothing has happened to is skipped or
started, and a started one gets its answer. So a status moves on along two paths, and a record with
a terminal status stays as it is.
-/

namespace Dataflow

open Relation

/-- A pending node is started or skipped, and a running one succeeds or fails. -/
inductive NodeStatus.Next : NodeStatus → NodeStatus → Prop
  | start : Next .pending .running
  | skip : Next .pending .skipped
  | succeed : Next .running .succeeded
  | fail : Next .running .failed

namespace RunState

/-- What can happen to the record of a node in a state. -/
inductive Change (env : RunSetting) (s : RunState) : NodeId → NodeRecord → NodeRecord → Prop
  | skip {node : PlannedNode} {reason : NodeFailure} (hreason : s.Unrunnable node reason) :
      Change env s node.id .initial (NodeRecord.initial.skip reason)
  | start (t : Task) (hcancelled : s.cancelled = false) :
      Change env s t.node.id .initial (NodeRecord.initial.start t.inputs)
  | answer (t : Task) :
      Change env s t.node.id (NodeRecord.initial.start t.inputs)
        ((NodeRecord.initial.start t.inputs).answer
          ((env.respond (t.request env.runId)).outcome t.node.outputNames))

/-- The record of a node is the same in two states, or it has changed in the first of them. -/
def ChangesTo (env : RunSetting) (s s' : RunState) (id : NodeId) : Prop :=
  s'.report.record? id = s.report.record? id ∨ ∃ before after,
    s.report.record? id = some before ∧ s'.report.record? id = some after ∧
      s.Change env id before after

/-- Where a planned node is in a run. -/
inductive Standing (env : RunSetting) (s : RunState) (node : PlannedNode) : Prop
  | fresh (h : s.Fresh node.id)
  | calling {t : Task} (hnode : t.node = node) (h : s.Calling env t)
  | settled (h : s.Settled env node)

variable {env : RunSetting} {plan : Plan} {limit : Option Nat} {past : List Stage}
variable {s s' : RunState}

/-! ### One move -/

theorem Change.next {id : NodeId} {before after : NodeRecord} (h : s.Change env id before after) :
    before.status.Next after.status := by
  cases h with
  | skip => exact .skip
  | start => exact .start
  | answer t =>
      rw [NodeRecord.status_answer]
      cases (env.respond (t.request env.runId)).outcome t.node.outputNames with
      | ok values => exact .succeed
      | error failure => exact .fail

theorem not_isTerminal_of_next {status status' : NodeStatus} (h : status.Next status') :
    status.isTerminal = false := by
  cases h <;> rfl

theorem changesTo_of_update {id : NodeId} {change : NodeRecord → NodeRecord} {before : NodeRecord}
    (hreport : s'.report = s.report.update id change)
    (hrecord : s.report.record? id = some before)
    (hchange : s.Change env id before (change before)) (other : NodeId) :
    s.ChangesTo env s' other := by
  unfold ChangesTo
  rw [hreport]
  by_cases hid : other = id
  · subst hid
    exact .inr ⟨before, _, hrecord, Report.record?_update_of_record? hrecord change, hchange⟩
  · exact .inl (Report.record?_update_of_ne _ hid _)

theorem ChangesTo.status? {id : NodeId} (h : s.ChangesTo env s' id) :
    s'.report.status? id = s.report.status? id ∨ ∃ status status',
      s.report.status? id = some status ∧ s'.report.status? id = some status' ∧
        status.Next status' := by
  rcases h with hsame | ⟨before, after, hbefore, hafter, hchange⟩
  · exact .inl (congrArg (Option.map NodeRecord.status) hsame)
  · exact .inr ⟨_, _, Report.status?_of_record? hbefore, Report.status?_of_record? hafter,
      hchange.next⟩

theorem ChangesTo.record?_of_isSettled {id : NodeId} (h : s.ChangesTo env s' id)
    (hsettled : s.report.isSettled id = true) : s'.report.record? id = s.report.record? id := by
  rcases h with hsame | ⟨before, after, hbefore, -, hchange⟩
  · exact hsame
  · rw [Report.isSettled_of_record? hbefore, not_isTerminal_of_next hchange.next] at hsettled
    cases hsettled

namespace Coherent

/-- A move changes the records of a run in these ways only. -/
theorem changesTo (henv : env.Quiet) (h : Coherent env plan limit past s) {m : Move}
    (hstep : s.step env m = some s') (id : NodeId) : s.ChangesTo env s' id := by
  cases moves_of_step henv hstep with
  | skip hundispatched hreason =>
      obtain ⟨-, hrecord, -⟩ := h.undispatched _ (hundispatched ▸ List.mem_cons_self)
      exact changesTo_of_update rfl hrecord (.skip hreason) id
  | @giveUp before after t hwaiting hpermits hcancelled =>
      obtain ⟨-, ⟨hrecord, -⟩, -⟩ := h.waiting t (by simp [hwaiting])
      exact changesTo_of_update rfl hrecord (.skip (.cancelled hcancelled)) id
  | @launch before after t hwaiting hpermits hcancelled =>
      obtain ⟨-, ⟨hrecord, -⟩, -⟩ := h.waiting t (by simp [hwaiting])
      exact changesTo_of_update rfl hrecord (.start t hcancelled) id
  | @settle before after r hinFlight =>
      obtain ⟨t, rfl, -, hrecord, -⟩ := h.inFlight r (by simp [hinFlight])
      exact changesTo_of_update rfl hrecord (.answer t) id
  | closeStage hphase hundispatched hwaiting hinFlight =>
      rw [h.closeStage_eq hphase hundispatched hwaiting hinFlight]
      exact .inl rfl
  | _ => exact .inl rfl

/-- A node is where its record and its requests say. -/
theorem standing (hp : plan.Ordered) (h : Coherent env plan limit past s) {node : PlannedNode}
    (hnode : node ∈ plan.nodes) : s.Standing env node := by
  have hmem := hnode
  rw [Plan.nodes, h.stages, List.flatMap_append, List.flatMap_append, List.mem_append,
    List.mem_append] at hmem
  rcases hmem with hpast | hopened | hahead
  · exact .settled (h.past node hpast)
  · rcases h.opened node hopened with hactive | hsettled
    -- A node in the hands of a task is still fresh, or its call goes on.
    · rw [activeIds, heldIds, List.mem_append, List.mem_append] at hactive
      rcases hactive with hheld | hheld | hheld
      · obtain ⟨other, hother, hid⟩ := List.mem_map.mp hheld
        exact .fresh (hid ▸ (h.undispatched other hother).2)
      · obtain ⟨t, ht, hid⟩ := List.mem_map.mp hheld
        exact .fresh (hid ▸ (h.waiting t ht).2.1)
      · obtain ⟨r, hr, hid⟩ := List.mem_map.mp hheld
        obtain ⟨t, rfl, hopened, hcalling⟩ := h.inFlight r hr
        exact .calling
          (List.inj_on_of_nodup_map hp.nodup (h.mem_nodes_of_opened hopened) hnode hid) hcalling
    · exact .settled hsettled
  · exact .fresh (h.ahead node hahead)

/-! ### Whole runs -/

theorem status?_run (hp : plan.Ordered) (henv : env.Quiet) (h : Coherent env plan limit past s)
    {moves : List Move} (hrun : s.after? env moves = some s') {id : NodeId} {status : NodeStatus}
    (hstatus : s.report.status? id = some status) :
    ∃ status', s'.report.status? id = some status' ∧
      ReflTransGen NodeStatus.Next status status' := by
  refine (h.preserves hp henv (motive := fun s => ∃ status', s.report.status? id = some status' ∧
    ReflTransGen NodeStatus.Next status status') ?_ hrun ⟨status, hstatus, .refl⟩).2
  rintro past s m next - hs hstep ⟨middle, hmiddle, hpath⟩
  rcases (hs.changesTo henv hstep id).status? with hsame | ⟨_, last, hfirst, hlast, hnext⟩
  · exact ⟨middle, hsame.trans hmiddle, hpath⟩
  · obtain rfl := Option.some.inj (hmiddle.symm.trans hfirst)
    exact ⟨last, hlast, hpath.tail hnext⟩

theorem record?_run (hp : plan.Ordered) (henv : env.Quiet) (h : Coherent env plan limit past s)
    {moves : List Move} (hrun : s.after? env moves = some s') {id : NodeId}
    (hsettled : s.report.isSettled id = true) :
    s'.report.record? id = s.report.record? id := by
  refine (h.preserves hp henv
    (motive := fun next => next.report.record? id = s.report.record? id) ?_ hrun rfl).2
  intro past next m last _ hnext hstep hsame
  have hkept : next.report.isSettled id = true := by
    rwa [Report.isSettled, Report.status?, hsame]
  exact ((hnext.changesTo henv hstep id).record?_of_isSettled hkept).trans hsame

end Coherent

end RunState

end Dataflow
