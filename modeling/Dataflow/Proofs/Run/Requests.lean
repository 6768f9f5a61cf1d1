import Dataflow.Proofs.Run.Standing

/-! # Requests under any observer

An observer that refuses events can end the task of a node or the whole run, so a node may be left
without an answer. Whatever it does, requests have the inputs that the report provides, outputs are
not overwritten, and what a node has been called with stays in its record.
-/

namespace Dataflow

namespace RunState

/-- The nodes that have not been handed out. -/
def pendingNodes (s : RunState) : List PlannedNode :=
  s.undispatched ++ s.upcoming.flatMap Stage.nodes

/-- The nodes without an answer that may still get one. -/
def openIds (s : RunState) : List NodeId :=
  heldIds s.pendingNodes s.waiting s.inFlight

/-- The requests of a state are those that its report asks for. A node that may still be called has
not been called, and one that may still get an answer has no outputs. -/
structure Sound (env : RunSetting) (plan : Plan) (s : RunState) : Prop where
  ids : ∀ node ∈ plan.nodes, node.id ∈ s.report.ids
  nodup : s.openIds.Nodup
  unanswered : ∀ id ∈ s.openIds, s.report.outputs? id = none
  uncalled : ∀ r ∈ s.calls, r.nodeId ∉ heldIds s.pendingNodes s.waiting []
  pending : ∀ node ∈ s.pendingNodes, node ∈ plan.nodes
  waiting : ∀ t ∈ s.waiting,
    t.node ∈ plan.nodes ∧ s.report.gather t.node.inputs = .ok t.inputs
  calls : ∀ r ∈ s.calls, ∃ t : Task, r = t.request env.runId ∧ t.node ∈ plan.nodes ∧
    s.report.gather t.node.inputs = .ok t.inputs ∧ s.report.inputs? t.node.id = some t.inputs

variable {env : RunSetting} {plan : Plan} {s s' : RunState}

theorem heldIds_sublist {nodes nodes' : List PlannedNode} {tasks tasks' : List Task}
    {requests requests' : List Request} (hnodes : nodes'.Sublist nodes)
    (htasks : tasks'.Sublist tasks) (hrequests : requests'.Sublist requests) :
    (heldIds nodes' tasks' requests').Sublist (heldIds nodes tasks requests) :=
  (hnodes.map _).append ((htasks.map _).append (hrequests.map _))

namespace Sound

theorem start (hp : plan.Ordered) (limit : Option Nat) (cancelled : Bool) :
    Sound env plan (.initial env.runId plan limit cancelled) := by
  have hopen : (RunState.initial env.runId plan limit cancelled).openIds = plan.nodeIds := by
    simp [openIds, pendingNodes, heldIds, RunState.initial, Plan.nodeIds, Plan.nodes]
  refine ⟨fun node hnode => ?_, hopen ▸ hp.nodup, fun id hid => ?_, fun r hr => absurd hr ?_,
    fun node hnode => hnode, fun t ht => absurd ht ?_, fun r hr => absurd hr ?_⟩
  · exact (Report.ids_initial_perm _ _).mem_iff.mpr (List.mem_map_of_mem hnode)
  · rw [hopen] at hid
    exact Report.outputs?_of_record? (Report.record?_initial _ hid)
      (by simp [NodeRecord.initial])
  all_goals simp [RunState.initial]

/-! ### What is handed on and dropped -/

/-- Nodes, tasks and calls can be dropped. -/
theorem of_sublists (h : Sound env plan s) (hreport : s'.report = s.report)
    (hcalls : s'.calls = s.calls) (hnodes : s'.pendingNodes.Sublist s.pendingNodes)
    (hwaiting : s'.waiting.Sublist s.waiting) (hinFlight : s'.inFlight.Sublist s.inFlight) :
    Sound env plan s' := by
  have hopen : s'.openIds.Sublist s.openIds := heldIds_sublist hnodes hwaiting hinFlight
  refine ⟨?_, h.nodup.sublist hopen, ?_, ?_, fun node hnode => h.pending node (hnodes.subset hnode),
    ?_, ?_⟩
  · rw [hreport]
    exact h.ids
  · rw [hreport]
    exact fun id hid => h.unanswered id (hopen.subset hid)
  · rw [hcalls]
    exact fun r hr hmem =>
      h.uncalled r hr ((heldIds_sublist hnodes hwaiting (.refl [])).subset hmem)
  · rw [hreport]
    exact fun t ht => h.waiting t (hwaiting.subset ht)
  · rw [hreport, hcalls]
    exact h.calls

/-- Reports can change as long as outputs and the inputs of calls stay. -/
theorem withReport (h : Sound env plan s) {r : Report} (hids : ∀ id ∈ s.report.ids, id ∈ r.ids)
    (houtputs : ∀ id values, s.report.outputs? id = some values → r.outputs? id = some values)
    (hopen : ∀ id ∈ s.openIds, r.outputs? id = none)
    (hinputs : ∀ c ∈ s.calls, r.inputs? c.nodeId = s.report.inputs? c.nodeId) :
    Sound env plan { s with report := r } where
  ids node hnode := hids _ (h.ids node hnode)
  nodup := h.nodup
  unanswered := hopen
  uncalled := h.uncalled
  pending := h.pending
  waiting t ht := ⟨(h.waiting t ht).1, Report.gather_mono houtputs (h.waiting t ht).2⟩
  calls c hc := by
    obtain ⟨t, rfl, hnode, hgather, hrecord⟩ := h.calls c hc
    exact ⟨t, rfl, hnode, Report.gather_mono houtputs hgather, (hinputs _ hc).trans hrecord⟩

/-- The record of a node that has no outputs can change. -/
theorem record (h : Sound env plan s) {id : NodeId} (change : NodeRecord → NodeRecord)
    (hnone : s.report.outputs? id = none)
    (hstatus : id ∈ s.openIds → ∀ record, (change record).status ≠ .succeeded)
    (hinputs : (∃ r ∈ s.calls, r.nodeId = id) →
      ∀ record, (change record).inputs = record.inputs) :
    Sound env plan (s.record id change) := by
  refine h.withReport (fun _ hother => Report.mem_ids_update hother _)
    (fun _ _ => Report.outputs?_update_eq_some hnone) (fun other hother => ?_) fun c hc => ?_
  · exact Report.outputs?_update_eq_none (h.unanswered other hother)
      fun heq => hstatus (heq ▸ hother)
  · obtain ⟨t, rfl, hnode, -⟩ := h.calls c hc
    exact Report.inputs?_update (h.ids _ hnode) fun heq => hinputs ⟨_, hc, heq⟩

theorem skipRecord (h : Sound env plan s) {id : NodeId} (hnone : s.report.outputs? id = none)
    (reason : NodeFailure) : Sound env plan (s.record id (.skip reason)) :=
  h.record _ hnone (fun _ _ => by simp [NodeRecord.skip]) fun _ _ => rfl

theorem failRecord (h : Sound env plan s) {id : NodeId} (hnone : s.report.outputs? id = none)
    (failure : NodeFailure) : Sound env plan (s.record id (.fail failure)) :=
  h.record _ hnone (fun _ _ => by simp [NodeRecord.fail]) fun _ _ => rfl

theorem log (h : Sound env plan s) (e : Event) : Sound env plan (s.log e) :=
  h.of_sublists rfl rfl (.refl _) (.refl _) (.refl _)

theorem release (h : Sound env plan s) : Sound env plan s.release :=
  h.of_sublists rfl rfl (.refl _) (.refl _) (.refl _)

theorem collapse (h : Sound env plan s) (message : String) :
    Sound env plan (s.collapse env message) := by
  refine Sound.of_sublists (s := { s with report := (s.collapse env message).report }) ?_ rfl rfl
    (List.nil_sublist _) (List.nil_sublist _) (List.nil_sublist _)
  refine h.withReport (fun _ hid => (Report.ids_failUnsettled _ _).symm ▸ hid)
    (fun id values hvalues => ?_)
    (fun id hid => ?_) fun c _ => Report.inputs?_failUnsettled _ _ _
  · exact (Report.outputs?_failUnsettled _ _ _).trans hvalues
  · exact (Report.outputs?_failUnsettled _ _ _).trans (h.unanswered id hid)

theorem tell (h : Sound env plan s) (e : Event) : Sound env plan (s.tell env e) := by
  unfold RunState.tell
  split
  next => exact h.log e
  next message _ => exact (h.log e).collapse message

/-! ### Single moves -/

theorem dispatch (h : Sound env plan s) {node : PlannedNode} {rest : List PlannedNode}
    (hundispatched : s.undispatched = node :: rest) :
    Sound env plan ({ s with undispatched := rest }.dispatchNode env node) := by
  have hpending : s.pendingNodes =
      node :: pendingNodes { s with undispatched := rest } := by
    rw [pendingNodes, hundispatched]
    rfl
  have hdropped : Sound env plan { s with undispatched := rest } := by
    refine h.of_sublists rfl rfl ?_ (.refl _) (.refl _)
    rw [hpending]
    exact List.sublist_cons_self _ _
  have hnone : s.report.outputs? node.id = none := by
    refine h.unanswered _ (id_mem_heldIds ?_)
    rw [hpending]
    exact List.mem_cons_self
  unfold dispatchNode
  split
  next => exact (hdropped.skipRecord hnone _).tell _
  next =>
    split
    next inputs hgather =>
      -- The node is held by its task from here on.
      have hperm : ∀ requests, (heldIds (pendingNodes { s with undispatched := rest })
          (s.waiting ++ [⟨node, inputs⟩]) requests).Perm
            (heldIds s.pendingNodes s.waiting requests) := by
        intro requests
        rw [hpending]
        exact heldIds_concat_task ⟨node, inputs⟩
      refine ⟨h.ids, (hperm _).nodup_iff.mpr h.nodup,
        fun id hid => h.unanswered id ((hperm _).mem_iff.mp hid),
        fun r hr hmem => h.uncalled r hr ((hperm _).mem_iff.mp hmem), hdropped.pending, ?_, h.calls⟩
      intro t ht
      rcases List.mem_append.mp ht with ht | ht
      · exact h.waiting t ht
      · obtain rfl := List.mem_singleton.mp ht
        refine ⟨h.pending node ?_, hgather⟩
        rw [hpending]
        exact List.mem_cons_self
    next feeder _ => exact (hdropped.skipRecord hnone _).tell _

/-- A task that has left the queue can make its call. -/
theorem call (h : Sound env plan s) {t : Task} (hnode : t.node ∈ plan.nodes)
    (hnone : s.report.outputs? t.node.id = none) (hfree : t.node.id ∉ s.openIds)
    (hgather : s.report.gather t.node.inputs = .ok t.inputs)
    (hinputs : s.report.inputs? t.node.id = some t.inputs) :
    Sound env plan { s with
      calls := s.calls ++ [t.request env.runId]
      inFlight := s.inFlight ++ [t.request env.runId] } := by
  have hperm : (heldIds s.pendingNodes s.waiting (s.inFlight ++ [t.request env.runId])).Perm
      (t.node.id :: s.openIds) :=
    heldIds_concat_request (t.request env.runId)
  refine ⟨h.ids, hperm.nodup_iff.mpr (List.nodup_cons.mpr ⟨hfree, h.nodup⟩), fun id hid => ?_,
    fun r hr hmem => ?_, h.pending, h.waiting, fun r hr => ?_⟩
  · rcases List.mem_cons.mp (hperm.mem_iff.mp hid) with rfl | hid
    · exact hnone
    · exact h.unanswered id hid
  · rcases List.mem_append.mp hr with hr | hr
    · exact h.uncalled r hr hmem
    · obtain rfl := List.mem_singleton.mp hr
      exact hfree ((heldIds_sublist (.refl _) (.refl _) (List.nil_sublist _)).subset hmem)
  · rcases List.mem_append.mp hr with hr | hr
    · exact h.calls r hr
    · exact ⟨t, List.mem_singleton.mp hr, hnode, hgather, hinputs⟩

theorem launch (h : Sound env plan s) {before after : List Task} {t : Task}
    (hwaiting : s.waiting = before ++ t :: after) (permits : Option Nat) :
    Sound env plan
      ({ s with permits := permits, waiting := before ++ after }.launchTask env t) := by
  obtain ⟨hnode, hgather⟩ := h.waiting t (by simp [hwaiting])
  have hperm : ∀ requests, (heldIds s.pendingNodes s.waiting requests).Perm
      (t.node.id :: heldIds s.pendingNodes (before ++ after) requests) := by
    intro requests
    rw [hwaiting]
    exact heldIds_middle_task before after t
  have hnone := h.unanswered t.node.id ((hperm _).mem_iff.mpr List.mem_cons_self)
  have hfree := (List.nodup_cons.mp ((hperm _).nodup_iff.mp h.nodup)).1
  have huncalled : ¬ ∃ r ∈ s.calls, r.nodeId = t.node.id := by
    rintro ⟨r, hr, hid⟩
    exact h.uncalled r hr ((hperm []).mem_iff.mpr (hid ▸ List.mem_cons_self))
  have hdropped : Sound env plan { s with permits := permits, waiting := before ++ after } := by
    refine h.of_sublists rfl rfl (.refl _) ?_ (.refl _)
    rw [hwaiting]
    exact sublist_middle before after t
  have hrunning : ∀ record, (NodeRecord.start t.inputs record).status ≠ .succeeded := by
    simp [NodeRecord.start]
  have hstarted := (hdropped.record (.start t.inputs) hnone (fun _ => hrunning)
    fun hcalled => absurd hcalled huncalled).log (.nodeStarted t.node.id)
  unfold launchTask
  split
  next => exact ((hdropped.skipRecord hnone _).log _).release
  next =>
    dsimp only
    split
    next => exact hstarted.release
    next =>
      obtain ⟨record, hrecord⟩ := Report.exists_record?_of_mem (h.ids _ hnode)
      refine hstarted.call hnode ?_ hfree ?_ ?_
      · exact Report.outputs?_update_eq_none hnone fun _ => hrunning
      · exact Report.gather_mono (fun _ _ => Report.outputs?_update_eq_some hnone) hgather
      · change (s.report.update t.node.id (.start t.inputs)).inputs? t.node.id = some t.inputs
        rw [Report.inputs?, Report.record?_update_of_record? hrecord]
        rfl

theorem settle (h : Sound env plan s) {before after : List Request} {r : Request}
    (hinFlight : s.inFlight = before ++ r :: after) :
    Sound env plan ({ s with inFlight := before ++ after }.settleCall env r) := by
  have hperm : s.openIds.Perm
      (r.nodeId :: heldIds s.pendingNodes s.waiting (before ++ after)) := by
    rw [openIds, hinFlight]
    exact heldIds_middle_request before after r
  have hnone := h.unanswered r.nodeId (hperm.mem_iff.mpr List.mem_cons_self)
  have hfree := (List.nodup_cons.mp (hperm.nodup_iff.mp h.nodup)).1
  have hdropped : Sound env plan { s with inFlight := before ++ after } := by
    refine h.of_sublists rfl rfl (.refl _) (.refl _) ?_
    rw [hinFlight]
    exact sublist_middle before after r
  unfold settleCall
  split
  next outputs _ =>
    exact ((hdropped.record (.succeed outputs) hnone (fun hopen => absurd hopen hfree)
      fun _ _ => rfl).log _).release
  next failure _ => exact ((hdropped.failRecord hnone failure).log _).release

theorem failLost (h : Sound env plan s) (node : PlannedNode) :
    Sound env plan (RunState.failLost env s node) := by
  unfold RunState.failLost
  split
  next =>
    split
    next => exact h
    next hsettled =>
      have hnone := Report.outputs?_of_not_isSettled (by simpa using hsettled)
      exact (h.failRecord hnone _).tell _
  next => exact h

theorem closeStage (h : Sound env plan s) (nodes : List PlannedNode) :
    Sound env plan (nodes.foldl (RunState.failLost env) s).leaveStage := by
  have hfailed : Sound env plan (nodes.foldl (RunState.failLost env) s) :=
    List.foldlRecOn nodes _ h fun _ hs node _ => hs.failLost node
  unfold leaveStage
  split
  next => exact hfailed.of_sublists rfl rfl (.refl _) (.refl _) (.refl _)
  next => exact hfailed

theorem step (h : Sound env plan s) {m : Move} (hstep : s.step env m = some s') :
    Sound env plan s' := by
  cases advance_of_step hstep with
  | cancel => exact h.of_sublists rfl rfl (.refl _) (.refl _) (.refl _)
  | announce =>
      refine Sound.tell ?_ _
      exact h.of_sublists rfl rfl (.refl _) (.refl _) (.refl _)
  | openStage _ hupcoming =>
      refine Sound.tell ?_ _
      refine h.of_sublists rfl rfl ?_ (.refl _) (.refl _)
      rw [pendingNodes, pendingNodes, hupcoming, List.flatMap_cons]
      exact List.sublist_append_right _ _
  | dispatch hundispatched => exact h.dispatch hundispatched
  | launch hwaiting => exact h.launch hwaiting _
  | settle hinFlight => exact h.settle hinFlight
  | closeStage => exact h.closeStage _
  | finish =>
      have hconcluded : Sound env plan { s with report := s.report.conclude } :=
        h.withReport (fun _ hid => hid) (fun _ _ hvalues => hvalues) h.unanswered fun _ _ => rfl
      refine Sound.tell ?_ _
      exact hconcluded.of_sublists rfl rfl (.refl _) (.refl _) (.refl _)

theorem after (h : Sound env plan s) {moves : List Move} (hrun : s.after? env moves = some s') :
    Sound env plan s' :=
  after?_preserves (motive := Sound env plan) (fun _ _ _ _ hstep hs => hs.step hstep) hrun h

end Sound

/-! ### Requests stay -/

theorem calls_tell (s : RunState) (env : RunSetting) (e : Event) :
    (s.tell env e).calls = s.calls := by
  unfold tell
  split <;> rfl

theorem calls_dispatchNode (s : RunState) (env : RunSetting) (node : PlannedNode) :
    (s.dispatchNode env node).calls = s.calls := by
  unfold dispatchNode
  split
  · exact calls_tell _ _ _
  · split
    · rfl
    · exact calls_tell _ _ _

theorem mem_calls_launchTask {s : RunState} {r : Request} (h : r ∈ s.calls) (env : RunSetting)
    (t : Task) : r ∈ (s.launchTask env t).calls := by
  unfold launchTask
  split
  · exact h
  · dsimp only
    split
    · exact h
    · exact List.mem_append_left _ h

theorem calls_failLost (env : RunSetting) (s : RunState) (node : PlannedNode) :
    (failLost env s node).calls = s.calls := by
  unfold failLost
  split
  · split
    · rfl
    · exact calls_tell _ _ _
  · rfl

theorem calls_settleCall (s : RunState) (env : RunSetting) (r : Request) :
    (s.settleCall env r).calls = s.calls := by
  unfold settleCall
  split <;> rfl

theorem calls_closeStage (s : RunState) (env : RunSetting) (nodes : List PlannedNode) :
    (nodes.foldl (failLost env) s).leaveStage.calls = s.calls := by
  have hfailed : (nodes.foldl (failLost env) s).calls = s.calls :=
    List.foldlRecOn (motive := fun next => next.calls = s.calls) nodes _ rfl
      fun next hnext node _ => (calls_failLost env next node).trans hnext
  unfold leaveStage
  split <;> exact hfailed

/-- A request that has been made stays. -/
theorem mem_calls_of_step {m : Move} (h : s.step env m = some s') {r : Request}
    (hr : r ∈ s.calls) : r ∈ s'.calls := by
  cases advance_of_step h with
  | launch =>
      apply mem_calls_launchTask
      exact hr
  | cancel => exact hr
  | dispatch => exact (calls_dispatchNode _ _ _).symm ▸ hr
  | settle => exact (calls_settleCall _ _ _).symm ▸ hr
  | closeStage => exact (calls_closeStage _ _ _).symm ▸ hr
  | _ => exact (calls_tell _ _ _).symm ▸ hr

theorem mem_calls_of_after? {moves : List Move} (h : s.after? env moves = some s') {r : Request}
    (hr : r ∈ s.calls) : r ∈ s'.calls :=
  after?_preserves (motive := fun next => r ∈ next.calls)
    (fun _ _ _ _ hstep hs => mem_calls_of_step hstep hs) h hr

end RunState

end Dataflow
