import Dataflow.Proofs.Run.Permits
import Dataflow.Proofs.Run.Requests

/-! # What records say, whatever the observer does

A record is written over only until it is terminal. Until then it says nothing of a failure, and
from then on it says how the call or the task of the node ended, that the run was cancelled first,
or which feeder is to blame. A node is handed out after its feeders have been dealt with and while
the run has not been cancelled, so none of them was skipped because of a cancellation.
-/

namespace Dataflow

/-- A failure of the call or the task of the node itself. -/
def NodeFailure.IsOwn : NodeFailure → Prop
  | .execution _ | .missingOutput _ | .panicked _ => True
  | .feederFailed _ | .cancelledBeforeStart => False

theorem Response.isOwn_of_outcome {names : List String} {response : Response}
    {failure : NodeFailure} (h : response.outcome names = .error failure) : failure.IsOwn := by
  cases response with
  | outputs values =>
      simp only [outcome] at h
      split at h
      · cases h
        trivial
      · cases h
  | error e =>
      cases h
      trivial
  | panic message =>
      cases h
      trivial

namespace Report

/-- The failure in the record of a node. -/
def failure? (r : Report) (id : NodeId) : Option NodeFailure :=
  (r.record? id).bind NodeRecord.failure

/-- Nothing happens to terminal records between two reports. -/
def Keeps (r r' : Report) : Prop :=
  ∀ id, r.isSettled id = true → r'.record? id = r.record? id

variable {r r' : Report} {id : NodeId}

theorem exists_of_isSettled (h : r.isSettled id = true) :
    ∃ record, r.record? id = some record ∧ record.status.isTerminal = true := by
  obtain ⟨status, hstatus, hterminal⟩ := (Option.any_eq_true _ _).mp h
  obtain ⟨record, hrecord, rfl⟩ := Option.map_eq_some_iff.mp hstatus
  exact ⟨record, hrecord, hterminal⟩

theorem failure?_of_record? {record : NodeRecord} (h : r.record? id = some record) :
    r.failure? id = record.failure := by
  rw [failure?, h, Option.bind_some]

theorem isSettled_congr (h : r'.record? id = r.record? id) : r'.isSettled id = r.isSettled id := by
  rw [isSettled, isSettled, status?, status?, h]

theorem failure?_congr (h : r'.record? id = r.record? id) : r'.failure? id = r.failure? id := by
  rw [failure?, failure?, h]

theorem Keeps.isSettled (h : r.Keeps r') (hid : r.isSettled id = true) :
    r'.isSettled id = true :=
  (isSettled_congr (h id hid)).trans hid

theorem keeps_update (hid : r.isSettled id = false) (change : NodeRecord → NodeRecord) :
    r.Keeps (r.update id change) := by
  intro other hother
  apply record?_update_of_ne
  intro heq
  rw [heq, hid] at hother
  cases hother

theorem keeps_failUnsettled (r : Report) (failure : NodeFailure) :
    r.Keeps (r.failUnsettled failure) := by
  intro id hid
  rw [record?_failUnsettled]
  cases hrecord : r.record? id with
  | none => rfl
  | some record =>
      rw [isSettled_of_record? hrecord] at hid
      rw [Option.map_some, if_pos hid]

end Report

namespace RunState

/-- What the record of a node says in a state of a run. -/
inductive Account (s : RunState) (node : PlannedNode) (record : NodeRecord) : Prop
  | unsettled (hstatus : record.status.isTerminal = false) (hfailure : record.failure = none)
  | succeeded (hstatus : record.status = .succeeded) (hfailure : record.failure = none)
      (houtputs : ∀ name ∈ node.outputNames, record.outputs.contains name = true)
  | failed {failure : NodeFailure} (hstatus : record.status = .failed)
      (hfailure : record.failure = some failure) (hown : failure.IsOwn)
  | cancelled (hstatus : record.status = .skipped)
      (hfailure : record.failure = some .cancelledBeforeStart) (hcancelled : s.cancelled = true)
  | blocked {feeder : NodeId} (hstatus : record.status = .skipped)
      (hfailure : record.failure = some (.feederFailed feeder))
      (hgather : s.report.gather node.inputs = .error feeder)
      (hfeeders : ∀ id ∈ node.feeders, s.report.isSettled id = true ∧
        s.report.failure? id ≠ some .cancelledBeforeStart)

/-- Behind the open stage all nodes have been dealt with, and a node that may still get an answer
has not been. The records say what has happened. -/
structure Accounted (plan : Plan) (s : RunState) : Prop where
  ids : s.report.ids ⊆ plan.nodeIds
  stages : ∃ past, plan.stages = past ++ (s.openStages ++ s.upcoming) ∧
    ∀ node ∈ past.flatMap Stage.nodes, s.report.isSettled node.id = true
  undispatched : ∀ node ∈ s.undispatched, node ∈ s.openStages.flatMap Stage.nodes
  inFlight : ∀ r ∈ s.inFlight, r ∈ s.calls
  unsettled : ∀ id ∈ s.openIds, s.report.isSettled id = false
  nodes : ∀ node ∈ plan.nodes, ∃ record, s.report.record? node.id = some record ∧
    s.Account node record

variable {env : RunSetting} {plan : Plan} {s s' : RunState}

namespace Account

variable {node : PlannedNode} {record : NodeRecord}

/-- What a record says stays true while the run goes on. -/
theorem mono (h : s.Account node record) (hkeeps : s.report.Keeps s'.report)
    (hcancelled : s.cancelled = true → s'.cancelled = true) : s'.Account node record := by
  cases h with
  | unsettled hstatus hfailure => exact .unsettled hstatus hfailure
  | succeeded hstatus hfailure houtputs => exact .succeeded hstatus hfailure houtputs
  | failed hstatus hfailure hown => exact .failed hstatus hfailure hown
  | cancelled hstatus hfailure hc => exact .cancelled hstatus hfailure (hcancelled hc)
  | blocked hstatus hfailure hgather hfeeders =>
      have hsame : ∀ id ∈ node.feeders, s'.report.record? id = s.report.record? id :=
        fun id hid => hkeeps id (hfeeders id hid).1
      refine .blocked hstatus hfailure ((Report.gather_congr hsame).trans hgather) fun id hid => ?_
      obtain ⟨hsettled, hfailure⟩ := hfeeders id hid
      refine ⟨hkeeps.isSettled hsettled, ?_⟩
      rwa [Report.failure?_congr (hsame id hid)]

theorem failure_of_unsettled (h : s.Account node record)
    (hstatus : record.status.isTerminal = false) : record.failure = none := by
  cases h with
  | unsettled _ hfailure => exact hfailure
  | succeeded hother | failed hother | cancelled hother | blocked hother =>
      rw [hother] at hstatus
      cases hstatus

end Account

namespace Accounted

theorem start (runId : String) (plan : Plan) (limit : Option Nat) (cancelled : Bool) :
    Accounted plan (.initial runId plan limit cancelled) where
  ids := (Report.ids_initial_perm runId plan.nodeIds).subset
  stages := ⟨[], rfl, fun node hnode => absurd hnode List.not_mem_nil⟩
  undispatched node hnode := absurd hnode List.not_mem_nil
  inFlight r hr := absurd hr List.not_mem_nil
  unsettled id hid := by
    have hplanned : id ∈ plan.nodeIds := by
      simpa [openIds, pendingNodes, heldIds, RunState.initial, Plan.nodeIds, Plan.nodes] using hid
    exact Report.isSettled_of_record? (Report.record?_initial runId hplanned)
  nodes node hnode :=
    ⟨.initial, Report.record?_initial runId (List.mem_map_of_mem hnode), .unsettled rfl rfl⟩

/-! ### What is handed on and dropped -/

/-- Tasks can be dropped, and a stage can be opened. -/
theorem of_subset (h : Accounted plan s)
    (hrecords : s'.report.records = s.report.records)
    (hcancelled : s.cancelled = true → s'.cancelled = true)
    (hstages : s'.openStages ++ s'.upcoming = s.openStages ++ s.upcoming)
    (hundispatched : ∀ node ∈ s'.undispatched, node ∈ s'.openStages.flatMap Stage.nodes)
    (hinFlight : ∀ r ∈ s'.inFlight, r ∈ s'.calls) (hopen : s'.openIds ⊆ s.openIds) :
    Accounted plan s' := by
  have hrecord : ∀ id, s'.report.record? id = s.report.record? id := by
    intro id
    rw [Report.record?, Report.record?, hrecords]
  obtain ⟨past, hsplit, hpast⟩ := h.stages
  refine ⟨?_, ⟨past, hstages ▸ hsplit, fun node hnode => ?_⟩, hundispatched, hinFlight,
    fun id hid => ?_, fun node hnode => ?_⟩
  · rw [Report.ids, hrecords]
    exact h.ids
  · exact (Report.isSettled_congr (hrecord _)).trans (hpast node hnode)
  · exact (Report.isSettled_congr (hrecord _)).trans (h.unsettled id (hopen hid))
  · obtain ⟨record, hfound, haccount⟩ := h.nodes node hnode
    exact ⟨record, (hrecord _).trans hfound, haccount.mono (fun id _ => hrecord id) hcancelled⟩

theorem log (h : Accounted plan s) (e : Event) : Accounted plan (s.log e) :=
  h.of_subset rfl id rfl h.undispatched h.inFlight (List.Subset.refl _)

theorem release (h : Accounted plan s) : Accounted plan s.release :=
  h.of_subset rfl id rfl h.undispatched h.inFlight (List.Subset.refl _)

/-- The record of a node without a terminal status can change. -/
theorem record (hp : plan.Ordered) (h : Accounted plan s) {node : PlannedNode}
    (hnode : node ∈ plan.nodes) {change : NodeRecord → NodeRecord}
    (hunsettled : s.report.isSettled node.id = false)
    (hopen : node.id ∈ s.openIds → ∀ record, (change record).status.isTerminal = false)
    (haccount : ∀ record : NodeRecord, record.failure = none → s.Account node (change record)) :
    Accounted plan (s.record node.id change) := by
  have hkeeps := Report.keeps_update hunsettled change
  obtain ⟨past, hsplit, hpast⟩ := h.stages
  have hmem : node.id ∈ s.report.ids := by
    obtain ⟨record, hrecord, -⟩ := h.nodes node hnode
    exact Report.mem_ids_of_record? hrecord
  refine ⟨(Report.ids_update hmem change).symm ▸ h.ids,
    ⟨past, hsplit, fun other hother => hkeeps.isSettled (hpast other hother)⟩, h.undispatched,
    h.inFlight, fun id hid => ?_, fun other hother => ?_⟩
  · change (s.report.update node.id change).isSettled id = false
    by_cases heq : id = node.id
    · subst heq
      exact (Report.isSettled_of_record? (Report.record?_update_self ..)).trans (hopen hid _)
    · rw [Report.isSettled_congr (Report.record?_update_of_ne _ heq _)]
      exact h.unsettled id hid
  · obtain ⟨record, hrecord, hnow⟩ := h.nodes other hother
    change ∃ record, (s.report.update node.id change).record? other.id = some record ∧ _
    by_cases heq : other.id = node.id
    · obtain rfl := List.inj_on_of_nodup_map hp.nodup hother hnode heq
      rw [Report.isSettled_of_record? hrecord] at hunsettled
      refine ⟨change record, Report.record?_update_of_record? hrecord change, ?_⟩
      exact (haccount record (hnow.failure_of_unsettled hunsettled)).mono hkeeps fun hc => hc
    · refine ⟨record, (Report.record?_update_of_ne _ heq _).trans hrecord, ?_⟩
      exact hnow.mono hkeeps fun hc => hc

/-- A run whose own task has panicked leaves no node without a terminal status. -/
theorem collapse (h : Accounted plan s) (env : RunSetting) (message : String) :
    Accounted plan (s.collapse env message) := by
  have hkeeps : s.report.Keeps (s.collapse env message).report :=
    Report.keeps_failUnsettled s.report _
  have hnodes : ∀ node ∈ plan.nodes, ∃ record,
      (s.collapse env message).report.record? node.id = some record ∧
        record.status.isTerminal = true ∧ (s.collapse env message).Account node record := by
    intro node hnode
    obtain ⟨record, hrecord, hnow⟩ := h.nodes node hnode
    have hfound : (s.collapse env message).report.record? node.id = _ :=
      (Report.record?_failUnsettled s.report _ _).trans (congrArg (Option.map _) hrecord)
    refine ⟨_, hfound, ?_⟩
    dsimp only
    split
    next hterminal => exact ⟨hterminal, hnow.mono hkeeps fun hc => hc⟩
    next => exact ⟨rfl, .failed rfl rfl trivial⟩
  refine ⟨(Report.ids_failUnsettled s.report _).symm ▸ h.ids,
    ⟨plan.stages, (List.append_nil _).symm, fun node hnode => ?_⟩,
    fun node hnode => absurd hnode List.not_mem_nil, fun r hr => absurd hr List.not_mem_nil,
    fun id hid => absurd hid List.not_mem_nil, fun node hnode => ?_⟩
  · obtain ⟨record, hrecord, hterminal, -⟩ := hnodes node hnode
    exact (Report.isSettled_of_record? hrecord).trans hterminal
  · obtain ⟨record, hrecord, -, hnow⟩ := hnodes node hnode
    exact ⟨record, hrecord, hnow⟩

theorem tell (h : Accounted plan s) (env : RunSetting) (e : Event) :
    Accounted plan (s.tell env e) := by
  unfold RunState.tell
  split
  · exact h.log e
  · exact (h.log e).collapse ..

/-! ### Feeders -/

/-- The feeders of a node of the open stage have been dealt with. -/
theorem feeder_of_open (hp : plan.Ordered) (h : Accounted plan s) {node : PlannedNode}
    (hnode : node ∈ s.openStages.flatMap Stage.nodes) {id : NodeId} (hid : id ∈ node.feeders) :
    id ∈ plan.nodeIds ∧ s.report.isSettled id = true := by
  obtain ⟨past, hsplit, hpast⟩ := h.stages
  obtain hnil | ⟨stage, -, hstage⟩ := openStages_eq_nil_or s
  · rw [hnil] at hnode
    cases hnode
  · rw [hstage, List.singleton_append] at hsplit
    rw [hstage, List.flatMap_singleton] at hnode
    have hbefore := hp.earlier past stage _ hsplit node hnode id hid
    obtain ⟨feeder, hfeeder, rfl⟩ := List.mem_map.mp hbefore
    refine ⟨?_, hpast feeder hfeeder⟩
    rw [Plan.nodeIds_eq_append hsplit]
    exact List.mem_append_left _ hbefore

/-- Before a run is cancelled no node is skipped for it. -/
theorem failure?_ne_cancelled (h : Accounted plan s) (hcancelled : s.cancelled = false)
    {id : NodeId} (hid : id ∈ plan.nodeIds) :
    s.report.failure? id ≠ some .cancelledBeforeStart := by
  obtain ⟨node, hnode, rfl⟩ := List.mem_map.mp hid
  obtain ⟨record, hrecord, hnow⟩ := h.nodes node hnode
  rw [Report.failure?_of_record? hrecord]
  cases hnow with
  | unsettled _ hfailure | succeeded _ hfailure | blocked _ hfailure => simp [hfailure]
  | failed _ hfailure hown =>
      rw [hfailure]
      rintro ⟨⟩
      exact hown
  | cancelled _ _ hc =>
      rw [hcancelled] at hc
      cases hc

/-! ### Single moves -/

theorem dispatch (hp : plan.Ordered) (hs : Sound env plan s) (h : Accounted plan s)
    {node : PlannedNode} {rest : List PlannedNode} (hundispatched : s.undispatched = node :: rest) :
    Accounted plan ({ s with undispatched := rest }.dispatchNode env node) := by
  have hopen : s.openIds = node.id :: openIds { s with undispatched := rest } := by
    rw [openIds, pendingNodes, hundispatched]
    rfl
  have hmem : node ∈ s.undispatched := hundispatched ▸ List.mem_cons_self
  have hnode := hs.pending node (List.mem_append_left _ hmem)
  have hunsettled := h.unsettled node.id (hopen ▸ List.mem_cons_self)
  have hfree := (List.nodup_cons.mp (hopen ▸ hs.nodup)).1
  have hdropped : Accounted plan { s with undispatched := rest } := by
    refine h.of_subset rfl (fun hc => hc) rfl (fun other hother => ?_) h.inFlight ?_
    · exact h.undispatched other (hundispatched ▸ List.mem_cons_of_mem _ hother)
    · exact hopen ▸ List.subset_cons_self ..
  have hskip (reason : NodeFailure) (haccount : ∀ record,
      Account { s with undispatched := rest } node (NodeRecord.skip reason record)) :
      Accounted plan ({ s with undispatched := rest }.skip env node.id reason) := by
    rw [RunState.skip]
    refine tell (hdropped.record hp hnode hunsettled ?_ fun record _ => haccount record) ..
    exact fun hheld => absurd hheld hfree
  unfold dispatchNode
  split
  next hcancelled => exact hskip _ fun _ => .cancelled rfl rfl hcancelled
  next huncancelled =>
    split
    next inputs _ =>
      refine h.of_subset rfl (fun hc => hc) rfl hdropped.undispatched h.inFlight ?_
      rw [hopen]
      exact (heldIds_concat_task ⟨node, inputs⟩).subset
    next feeder hgather =>
      refine hskip _ fun _ => .blocked rfl rfl hgather fun id hid => ?_
      obtain ⟨hplanned, hsettled⟩ := h.feeder_of_open hp (h.undispatched node hmem) hid
      exact ⟨hsettled, h.failure?_ne_cancelled (by simpa using huncancelled) hplanned⟩

theorem launch (hp : plan.Ordered) (hs : Sound env plan s) (h : Accounted plan s)
    {before after : List Task} {t : Task} (hwaiting : s.waiting = before ++ t :: after)
    {permits : Option Nat}
    (hlaunched : Launched env { s with permits := permits, waiting := before ++ after } t s') :
    Accounted plan s' := by
  have hopen : s.openIds.Perm
      (t.node.id :: openIds { s with permits := permits, waiting := before ++ after }) := by
    rw [openIds, hwaiting]
    exact heldIds_middle_task before after t
  have hnode := (hs.waiting t (by simp [hwaiting])).1
  have hunsettled := h.unsettled t.node.id (hopen.mem_iff.mpr List.mem_cons_self)
  have hfree := (List.nodup_cons.mp (hopen.nodup_iff.mp hs.nodup)).1
  have hdropped : Accounted plan { s with permits := permits, waiting := before ++ after } :=
    h.of_subset rfl (fun hc => hc) rfl h.undispatched h.inFlight fun id hid =>
      hopen.mem_iff.mpr (List.mem_cons_of_mem _ hid)
  cases hlaunched with
  | skipped hcancelled =>
      refine release (log (hdropped.record hp hnode hunsettled ?_ fun _ _ => ?_) _)
      · exact fun hheld => absurd hheld hfree
      · exact .cancelled rfl rfl hcancelled
  | stopped hrefusal =>
      refine release (log (hdropped.record hp hnode hunsettled ?_ fun _ hfailure => ?_) _)
      · exact fun _ _ => rfl
      · exact .unsettled rfl hfailure
  | called =>
      have hcalled : Accounted plan { s with
          permits := permits
          waiting := before ++ after
          calls := s.calls ++ [t.request env.runId]
          inFlight := s.inFlight ++ [t.request env.runId] } := by
        refine h.of_subset rfl (fun hc => hc) rfl h.undispatched (fun r hr => ?_) ?_
        · rcases List.mem_append.mp hr with hr | hr
          · exact List.mem_append_left _ (h.inFlight r hr)
          · exact List.mem_append_right _ hr
        · exact List.Subset.trans (heldIds_concat_request _).subset hopen.symm.subset
      refine log (hcalled.record hp hnode hunsettled (fun _ _ => rfl) fun _ hfailure => ?_) _
      exact .unsettled rfl hfailure

theorem settle (hp : plan.Ordered) (hs : Sound env plan s) (h : Accounted plan s)
    {before after : List Request} {r : Request} (hinFlight : s.inFlight = before ++ r :: after) :
    Accounted plan ({ s with inFlight := before ++ after }.settleCall env r) := by
  have hopen : s.openIds.Perm (r.nodeId :: openIds { s with inFlight := before ++ after }) := by
    rw [openIds, hinFlight]
    exact heldIds_middle_request before after r
  have hunsettled := h.unsettled r.nodeId (hopen.mem_iff.mpr List.mem_cons_self)
  have hfree := (List.nodup_cons.mp (hopen.nodup_iff.mp hs.nodup)).1
  obtain ⟨t, rfl, hnode, -⟩ := hs.calls r (h.inFlight r (by simp [hinFlight]))
  have hdropped : Accounted plan { s with inFlight := before ++ after } := by
    refine h.of_subset rfl (fun hc => hc) rfl h.undispatched (fun other hother => ?_)
      fun id hid => ?_
    · refine h.inFlight other ?_
      rw [hinFlight]
      exact (sublist_middle before after _).subset hother
    · exact hopen.mem_iff.mpr (List.mem_cons_of_mem _ hid)
  rw [settleCall_eq]
  refine release (log (hdropped.record hp hnode hunsettled ?_ fun record hfailure => ?_) _)
  · exact fun hheld => absurd hheld hfree
  · generalize houtcome :
      (env.respond (t.request env.runId)).outcome (t.request env.runId).outputNames = outcome
    cases outcome with
    | ok outputs => exact .succeeded rfl hfailure (Response.outcome_eq_ok_iff.mp houtcome).2
    | error failure => exact .failed rfl rfl (Response.isOwn_of_outcome houtcome)

theorem leaveStage (h : Accounted plan s) (hidle : s.Idle)
    (hsettled : ∀ stage, s.phase = .inStage stage → ∀ node ∈ stage.nodes,
      s.report.isSettled node.id = true) : Accounted plan s.leaveStage := by
  obtain ⟨past, hsplit, hpast⟩ := h.stages
  unfold RunState.leaveStage
  split
  next stage hphase =>
    rw [openStages, hphase] at hsplit
    have hstages := hsplit.trans (List.append_assoc past [stage] s.upcoming).symm
    refine ⟨h.ids, ⟨past ++ [stage], hstages, fun node hnode => ?_⟩, fun node hnode => ?_,
      h.inFlight, h.unsettled, fun node hnode => ?_⟩
    · rw [List.flatMap_append, List.flatMap_singleton] at hnode
      exact (List.mem_append.mp hnode).elim (hpast node) (hsettled stage hphase node)
    · rw [hidle.1] at hnode
      cases hnode
    · obtain ⟨record, hrecord, hnow⟩ := h.nodes node hnode
      exact ⟨record, hrecord, hnow.mono (fun _ _ => rfl) fun hc => hc⟩
  next => exact h

end Accounted

/-- A stage is about to be closed, and some of its nodes have not been looked at for it. -/
structure Closing (plan : Plan) (stage : Stage) (nodes : List PlannedNode) (s : RunState) :
    Prop where
  accounted : Accounted plan s
  idle : s.Idle
  left : ∀ other, s.phase = .inStage other → other = stage ∧ ∀ node ∈ stage.nodes,
    node ∈ nodes ∨ s.report.isSettled node.id = true

namespace Closing

variable {stage : Stage} {nodes : List PlannedNode}

theorem tell (h : Closing plan stage nodes s) (env : RunSetting) (e : Event) :
    Closing plan stage nodes (s.tell env e) := by
  refine ⟨h.accounted.tell env e, h.idle.tell e, ?_⟩
  unfold RunState.tell
  split
  · exact h.left
  · exact fun other hother => by cases hother

theorem mem_nodes (h : Closing plan stage nodes s) (hphase : s.phase = .inStage stage)
    {node : PlannedNode} (hnode : node ∈ stage.nodes) : node ∈ plan.nodes := by
  obtain ⟨past, hsplit, -⟩ := h.accounted.stages
  rw [openStages, hphase, List.singleton_append] at hsplit
  exact List.mem_flatMap.mpr ⟨stage, hsplit ▸ List.mem_append_right _ List.mem_cons_self, hnode⟩

/-- Only nodes of later stages are still to be handed out. -/
theorem not_mem_openIds (hp : plan.Ordered) (h : Closing plan stage nodes s)
    (hphase : s.phase = .inStage stage) {node : PlannedNode} (hnode : node ∈ stage.nodes) :
    node.id ∉ s.openIds := by
  obtain ⟨past, hsplit, -⟩ := h.accounted.stages
  rw [openStages, hphase, List.singleton_append] at hsplit
  obtain ⟨hundispatched, hwaiting, hinFlight⟩ := h.idle
  have hopen : s.openIds = (s.upcoming.flatMap Stage.nodes).map PlannedNode.id := by
    simp [openIds, pendingNodes, heldIds, hundispatched, hwaiting, hinFlight]
  have hnodup := hp.nodup
  rw [Plan.nodeIds_eq_append hsplit, List.nodup_append, List.nodup_append] at hnodup
  obtain ⟨-, ⟨-, -, hafter⟩, -⟩ := hnodup
  rw [hopen]
  exact fun hmem => hafter _ (List.mem_map_of_mem hnode) _ hmem rfl

/-- A node with a terminal status need not be looked at. -/
theorem left_of_isSettled {r : Report} {node : PlannedNode}
    (hleft : ∀ other ∈ stage.nodes, other ∈ node :: nodes ∨ r.isSettled other.id = true)
    (hsettled : r.isSettled node.id = true) :
    ∀ other ∈ stage.nodes, other ∈ nodes ∨ r.isSettled other.id = true := by
  intro other hother
  rcases hleft other hother with hmem | hdone
  · rcases List.mem_cons.mp hmem with rfl | hmem
    · exact .inr hsettled
    · exact .inl hmem
  · exact .inr hdone

/-- A node of the stage that has no terminal status is failed. -/
theorem fail (hp : plan.Ordered) {node : PlannedNode} (h : Closing plan stage (node :: nodes) s)
    (hphase : s.phase = .inStage stage) (hnode : node ∈ stage.nodes)
    (hunsettled : s.report.isSettled node.id = false) :
    Closing plan stage nodes (s.record node.id (.fail taskLost)) := by
  have hplanned := h.mem_nodes hphase hnode
  have hfree := h.not_mem_openIds hp hphase hnode
  obtain ⟨record, hrecord, -⟩ := h.accounted.nodes node hplanned
  have hfailed := Report.record?_update_of_record? hrecord (.fail taskLost)
  refine ⟨h.accounted.record hp hplanned hunsettled (fun hheld => absurd hheld hfree) fun _ _ => ?_,
    h.idle, fun other hother => ⟨(h.left other hother).1, ?_⟩⟩
  · exact .failed rfl rfl trivial
  · refine left_of_isSettled (fun next hnext => ?_) (Report.isSettled_of_record? hfailed)
    exact ((h.left other hother).2 next hnext).imp_right
      (Report.keeps_update hunsettled _).isSettled

theorem failLost (hp : plan.Ordered) {node : PlannedNode} (h : Closing plan stage (node :: nodes) s)
    (hnode : node ∈ stage.nodes) : Closing plan stage nodes (RunState.failLost env s node) := by
  unfold RunState.failLost
  split
  next hphase =>
    obtain ⟨rfl, hleft⟩ := h.left _ hphase
    split
    next hsettled =>
      refine ⟨h.accounted, h.idle, fun other hother => ⟨(h.left other hother).1, ?_⟩⟩
      exact left_of_isSettled hleft hsettled
    next hunsettled => exact (h.fail hp hphase hnode (by simpa using hunsettled)).tell ..
  next hnot => exact ⟨h.accounted, h.idle, fun other hother => absurd hother (hnot other)⟩

theorem foldl_failLost (hp : plan.Ordered) (h : Closing plan stage nodes s)
    (hnodes : nodes ⊆ stage.nodes) :
    Closing plan stage [] (nodes.foldl (RunState.failLost env) s) := by
  induction nodes generalizing s with
  | nil => exact h
  | cons node nodes ih =>
      obtain ⟨hnode, hnodes⟩ := List.cons_subset.mp hnodes
      exact ih (h.failLost hp hnode) hnodes

end Closing

namespace Accounted

theorem closeStage (hp : plan.Ordered) (h : Accounted plan s) {stage : Stage}
    (hphase : s.phase = .inStage stage) (hidle : s.Idle) :
    Accounted plan (stage.nodes.foldl (RunState.failLost env) s).leaveStage := by
  have hclosing : Closing plan stage stage.nodes s := by
    refine ⟨h, hidle, fun other hother => ?_⟩
    rw [hphase] at hother
    cases hother
    exact ⟨rfl, fun node hnode => .inl hnode⟩
  have hclosed : Closing plan stage [] (stage.nodes.foldl (RunState.failLost env) s) :=
    hclosing.foldl_failLost hp (List.Subset.refl _)
  refine hclosed.accounted.leaveStage hclosed.idle fun other hother node hnode => ?_
  obtain ⟨rfl, hleft⟩ := hclosed.left other hother
  exact (hleft node hnode).resolve_left List.not_mem_nil

theorem step (hp : plan.Ordered) (hs : Sound env plan s) (h : Accounted plan s) {m : Move}
    (hstep : s.step env m = some s') : Accounted plan s' := by
  cases advance_of_step hstep with
  | cancel =>
      exact h.of_subset rfl (fun _ => rfl) rfl h.undispatched h.inFlight (List.Subset.refl _)
  | announce hphase =>
      refine tell ?_ ..
      refine h.of_subset rfl (fun hc => hc) ?_ (fun node hnode => ?_) h.inFlight
        (List.Subset.refl _)
      · simp [openStages, hphase]
      · simpa [openStages, hphase] using h.undispatched node hnode
  | openStage hphase hupcoming =>
      refine tell ?_ ..
      refine h.of_subset rfl (fun hc => hc) ?_ (fun node hnode => ?_) h.inFlight ?_
      · simp [openStages, hphase, hupcoming]
      · simpa [openStages] using hnode
      · refine (heldIds_sublist ?_ (.refl _) (.refl _)).subset
        rw [pendingNodes, pendingNodes, hupcoming, List.flatMap_cons]
        exact List.sublist_append_right _ _
  | dispatch hundispatched => exact h.dispatch hp hs hundispatched
  | launch hwaiting => exact h.launch hp hs hwaiting (launched ..)
  | settle hinFlight => exact h.settle hp hs hinFlight
  | closeStage hphase hundispatched hwaiting hinFlight =>
      exact h.closeStage hp hphase ⟨hundispatched, hwaiting, hinFlight⟩
  | finish hphase =>
      refine tell ?_ ..
      refine h.of_subset rfl (fun hc => hc) ?_ (fun node hnode => ?_) h.inFlight
        (List.Subset.refl _)
      · simp [openStages, hphase]
      · simpa [openStages, hphase] using h.undispatched node hnode

/-- Wherever a run has come to, its records say what has happened. -/
theorem run (hp : plan.Ordered) {limit : Option Nat} {cancelled : Bool} {moves : List Move}
    (hrun : (RunState.initial env.runId plan limit cancelled).after? env moves = some s) :
    Accounted plan s := by
  refine (after?_preserves (motive := fun s => Sound env plan s ∧ Accounted plan s)
    (fun _ _ _ _ hstep h => ?_) hrun ?_).2
  · exact ⟨h.1.step hstep, h.2.step hp h.1 hstep⟩
  · exact ⟨Sound.start hp limit cancelled, start ..⟩

end Accounted

end RunState

end Dataflow
