import Dataflow.Proofs.Run.Progress

/-! # How failures spread

A node is called just when all its feeders have succeeded. Since a node that was not called has not
succeeded either, a failure spreads to everything that depends on it and to nothing else.
-/

namespace Dataflow

open Relation

namespace RunState

variable {g : Graph} {plan : Plan} {env : RunSetting} {s : RunState}

namespace Ended

/-- The inputs of a node are there once all its feeders have succeeded. -/
theorem gather_eq_ok_iff (hplan : g.PlannedAs plan) (h : Ended env plan s) {planned : PlannedNode}
    (hplanned : planned ∈ plan.nodes) : (∃ inputs, s.report.gather planned.inputs = .ok inputs) ↔
      ∀ id, g.Feeds id planned.id → s.report.status? id = some .succeeded := by
  -- Whoever has succeeded has provided every declared output, and only those are read.
  have hvalue : ∀ input ∈ planned.inputs, ∀ id output name,
      input.source = .fromLink id output name →
        ((∃ value, s.report.inputValue input.source = .ok value) ↔
          s.report.status? id = some .succeeded) := by
    intro input hinput id output name hsource
    have hfeeds : g.Feeds id planned.id := (hplan.feeders planned hplanned id).mp
      (PlannedNode.mem_feeders_iff.mpr ⟨input, hinput, output, name, hsource⟩)
    obtain ⟨feeder, hfeeder, rfl⟩ := hplan.exists_planned hfeeds.1
    exact Report.exists_inputValue_iff_of_ordered hplan.ordered hplanned hfeeder
      (fun _ hvalues _ => (h.settled _ hfeeder).contains_of_outputs? hvalues) hinput hsource
  rw [Report.exists_gather_eq_ok_iff]
  constructor
  · intro hall id hfeeds
    obtain ⟨input, hinput, output, name, hsource⟩ :=
      PlannedNode.mem_feeders_iff.mp ((hplan.feeders planned hplanned id).mpr hfeeds)
    exact (hvalue input hinput id output name hsource).mp (hall input hinput)
  · intro hall input hinput
    cases hsource : input.source with
    | fromParameter value => exact ⟨value, rfl⟩
    | fromLink id output name =>
        have hfeeder : id ∈ planned.feeders :=
          PlannedNode.mem_feeders_iff.mpr ⟨input, hinput, output, name, hsource⟩
        rw [← hsource]
        exact (hvalue input hinput id output name hsource).mpr
          (hall id ((hplan.feeders planned hplanned id).mp hfeeder))

/-- A node was skipped without a call, or it was called once and has the status of the answer. -/
theorem skipped_or_called (hplan : g.PlannedAs plan) (h : Ended env plan s) {planned : PlannedNode}
    (hplanned : planned ∈ plan.nodes) :
    (s.report.status? planned.id = some .skipped ∧ s.callsOf planned.id = [] ∧
        ¬ ∀ id, g.Feeds id planned.id → s.report.status? id = some .succeeded) ∨
      ((∃ r, s.callsOf planned.id = [r] ∧ s.report.record? planned.id =
          some ((NodeRecord.initial.start r.inputs).answer
            ((env.respond r).outcome planned.outputNames))) ∧
        ∀ id, g.Feeds id planned.id → s.report.status? id = some .succeeded) := by
  rw [← h.gather_eq_ok_iff hplan hplanned]
  rcases h.blocked_or_answered hplanned with
    ⟨feeder, hgather, hrecord, hcalls⟩ | ⟨t, -, hgather, hrecord, hcalls⟩
  · refine .inl ⟨Report.status?_of_record? hrecord, hcalls, ?_⟩
    rintro ⟨inputs, hinputs⟩
    rw [hgather] at hinputs
    cases hinputs
  · exact .inr ⟨⟨_, hcalls, hrecord⟩, t.inputs, hgather⟩

/-- A node is skipped just when not all its feeders have succeeded. -/
theorem skipped_iff (hplan : g.PlannedAs plan) (h : Ended env plan s) {id : NodeId}
    (hid : id ∈ g.nodeIds) : s.report.status? id = some .skipped ↔
      ¬ ∀ a, g.Feeds a id → s.report.status? a = some .succeeded := by
  obtain ⟨planned, hplanned, rfl⟩ := hplan.exists_planned hid
  rcases h.skipped_or_called hplan hplanned with ⟨hstatus, -, hnot⟩ | ⟨⟨r, -, hrecord⟩, hall⟩
  · exact iff_of_true hstatus hnot
  · refine iff_of_false ?_ (not_not_intro hall)
    rw [Report.status?_of_record? hrecord, Option.some.injEq]
    exact NodeRecord.status_answer_ne_skipped _ _

theorem status_cases (hplan : g.PlannedAs plan) (h : Ended env plan s) {id : NodeId}
    (hid : id ∈ g.nodeIds) : s.report.status? id = some .skipped ∨
      s.report.status? id = some .failed ∨ s.report.status? id = some .succeeded := by
  obtain ⟨planned, hplanned, rfl⟩ := hplan.exists_planned hid
  rcases h.skipped_or_called hplan hplanned with ⟨hstatus, -, -⟩ | ⟨⟨r, -, hrecord⟩, -⟩
  · exact .inl hstatus
  · rw [Report.status?_of_record? hrecord, NodeRecord.status_answer]
    cases (env.respond r).outcome planned.outputNames with
    | ok values => exact .inr (.inr rfl)
    | error failure => exact .inr (.inl rfl)

/-- Everything that a node depends on has succeeded unless the node is skipped. -/
theorem succeeded_of_transGen (hplan : g.PlannedAs plan) (h : Ended env plan s) {a b : NodeId}
    (hab : TransGen g.Feeds a b) (hb : s.report.status? b ≠ some .skipped) :
    s.report.status? a = some .succeeded := by
  have hfeeders : ∀ a b, g.Feeds a b → s.report.status? b ≠ some .skipped →
      s.report.status? a = some .succeeded := by
    intro a b hstep hb
    rw [Ne, h.skipped_iff hplan hstep.2.1, not_not] at hb
    exact hb a hstep
  induction hab with
  | single hstep => exact hfeeders a _ hstep hb
  | @tail b c _ hstep ih =>
      have hsucceeded := hfeeders b c hstep hb
      exact ih (by simp [hsucceeded])

/-- A failure is behind every node that was skipped, and only behind those. -/
theorem skipped_iff_exists_failed (hplan : g.PlannedAs plan) (h : Ended env plan s) {id : NodeId}
    (hid : id ∈ g.nodeIds) : s.report.status? id = some .skipped ↔
      ∃ a, TransGen g.Feeds a id ∧ s.report.status? a = some .failed := by
  constructor
  · intro hskipped
    by_contra hnone
    -- Skips without a failure behind them would have such skips behind them, without an end.
    let unblamed : Set NodeId := {b | b ∈ g.nodeIds ∧ s.report.status? b = some .skipped ∧
      ¬ ∃ a, TransGen g.Feeds a b ∧ s.report.status? a = some .failed}
    have hfinite : unblamed.Finite := (List.finite_toSet g.nodeIds).subset fun _ hb => hb.1
    have hfeeder : ∀ b ∈ unblamed, ∃ a ∈ unblamed, g.Feeds a b := by
      rintro b ⟨hb, hskipped, hnone⟩
      have hnot := (h.skipped_iff hplan hb).mp hskipped
      push Not at hnot
      obtain ⟨a, hfeeds, ha⟩ := hnot
      rcases h.status_cases hplan hfeeds.1 with hstatus | hstatus | hstatus
      · refine ⟨a, ⟨hfeeds.1, hstatus, ?_⟩, hfeeds⟩
        rintro ⟨c, hca, hc⟩
        exact hnone ⟨c, hca.tail hfeeds, hc⟩
      · exact absurd ⟨a, .single hfeeds, hstatus⟩ hnone
      · exact absurd hstatus ha
    obtain ⟨a, -, hcycle, -⟩ := exists_cycle_before hfinite hfeeder ⟨hid, hskipped, hnone⟩
    exact hplan.acyclic a hcycle
  · rintro ⟨a, hab, hfailed⟩
    by_contra hstatus
    rw [h.succeeded_of_transGen hplan hab hstatus] at hfailed
    cases hfailed

end Ended

/-! ### The cascade -/

/-- How a run of a graph has ended for its nodes. -/
structure Cascade (g : Graph) (env : RunSetting) (s : RunState) : Prop where
  /-- Every node has a terminal status. -/
  settled : ∀ id ∈ g.nodeIds, s.report.isSettled id = true
  /-- A node whose dependencies have all succeeded has been called once. -/
  called : ∀ id ∈ g.nodeIds,
    (∀ a, TransGen g.Feeds a id → s.report.status? a = some .succeeded) →
      ∃ r, s.calls.filter (·.nodeId = id) = [r]
  /-- No other node has been called. -/
  notCalled : ∀ r ∈ s.calls, r.nodeId ∈ g.nodeIds ∧
    ∀ a, TransGen g.Feeds a r.nodeId → s.report.status? a = some .succeeded
  /-- A node is skipped just when it depends on a failed one. -/
  skipped : ∀ id ∈ g.nodeIds, s.report.status? id = some .skipped ↔
    ∃ a, TransGen g.Feeds a id ∧ s.report.status? a = some .failed
  /-- A called node has failed just when its call gave no values, or not all that it declares. -/
  failed : ∀ node ∈ g.nodes, ∀ r ∈ s.calls, r.nodeId = node.id →
    (s.report.status? node.id = some .failed ↔
      (∃ e, env.respond r = .error e) ∨ (∃ message, env.respond r = .panic message) ∨
        ∃ values, env.respond r = .outputs values ∧
          ∃ output ∈ node.outputs, values.contains output.name = false)
  /-- A called node has succeeded if it has not failed. -/
  succeeded : ∀ r ∈ s.calls, s.report.status? r.nodeId ≠ some .failed →
    s.report.status? r.nodeId = some .succeeded
  /-- The first output without a value is the one that is reported. -/
  missing : ∀ node ∈ g.nodes, ∀ r ∈ s.calls, r.nodeId = node.id →
    ∀ values, env.respond r = .outputs values → ∀ before output after,
      node.outputs = before ++ output :: after →
        (∀ other ∈ before, values.contains other.name = true) →
          values.contains output.name = false →
            (s.report.record? node.id).bind NodeRecord.failure = some (.missingOutput output.name)
  /-- The run is completed just when every node has succeeded. -/
  overall : s.report.overall =
    if ∀ id ∈ g.nodeIds, s.report.status? id = some .succeeded then some .completed
    else some .completedWithErrors

namespace Ended

/-- What the record of a called node says. -/
theorem record?_of_mem_calls (hplan : g.PlannedAs plan) (h : Ended env plan s) {node : Node}
    (hnode : node ∈ g.nodes) {r : Request} (hr : r ∈ s.calls) (hid : r.nodeId = node.id) :
    s.report.record? node.id = some ((NodeRecord.initial.start r.inputs).answer
      ((env.respond r).outcome (node.outputs.map Socket.name))) := by
  obtain ⟨planned, hplanned, hresolves⟩ := hplan.exists_resolves hnode
  rw [← hresolves.id_eq, ← hresolves.outputNames_eq]
  exact (h.settled planned hplanned).record?_of_mem_calls hr (hid.trans hresolves.id_eq.symm)

theorem status_ne_skipped_of_mem_calls (hplan : g.PlannedAs plan) (h : Ended env plan s)
    {r : Request} (hr : r ∈ s.calls) :
    r.nodeId ∈ g.nodeIds ∧ s.report.status? r.nodeId ≠ some .skipped := by
  have hid : r.nodeId ∈ g.nodeIds := hplan.perm.mem_iff.mp (h.calls r hr)
  obtain ⟨node, hnode, hnodeId⟩ := List.mem_map.mp hid
  refine ⟨hid, ?_⟩
  rw [← hnodeId, Report.status?_of_record? (h.record?_of_mem_calls hplan hnode hr hnodeId.symm), Ne,
    Option.some.injEq]
  exact NodeRecord.status_answer_ne_skipped _ _

/-- No node of a run that nobody has cancelled is reported as cancelled. -/
theorem failure_ne_cancelled (h : Ended env plan s) {planned : PlannedNode}
    (hplanned : planned ∈ plan.nodes) {record : NodeRecord}
    (hrecord : s.report.record? planned.id = some record) :
    record.failure ≠ some .cancelledBeforeStart := by
  rcases h.blocked_or_answered hplanned with ⟨feeder, -, hskip, -⟩ | ⟨t, -, -, hanswer, -⟩
  · obtain rfl := Option.some.inj (hskip.symm.trans hrecord)
    simp [NodeRecord.skip]
  · obtain rfl := Option.some.inj (hanswer.symm.trans hrecord)
    cases houtcome : (env.respond (t.request env.runId)).outcome planned.outputNames with
    | ok values =>
        simp [NodeRecord.answer, NodeRecord.succeed, NodeRecord.start, NodeRecord.initial]
    | error failure =>
        simp only [NodeRecord.answer, NodeRecord.fail, Ne, Option.some.injEq]
        rintro rfl
        exact Response.outcome_ne_cancelled _ _ houtcome

theorem overall_eq (hplan : g.PlannedAs plan) (h : Ended env plan s) : s.report.overall =
    if ∀ id ∈ g.nodeIds, s.report.status? id = some .succeeded then some .completed
    else some .completedWithErrors := by
  have hperm : s.report.ids.Perm plan.nodeIds := by
    rw [h.ids]
    exact Report.ids_initial_perm _ _
  have huncancelled : ¬ ∃ id ∈ g.nodeIds,
      (s.report.record? id).bind NodeRecord.failure = some .cancelledBeforeStart := by
    rintro ⟨id, hid, hfailure⟩
    obtain ⟨planned, hplanned, rfl⟩ := hplan.exists_planned hid
    obtain ⟨record, hrecord, hfailure⟩ := Option.bind_eq_some_iff.mp hfailure
    exact h.failure_ne_cancelled hplanned hrecord hfailure
  rw [h.overall, Report.conclusion_eq (hperm.nodup_iff.mpr hplan.ordered.nodup)
    fun _ => (hperm.trans hplan.perm).mem_iff, if_neg huncancelled]
  split <;> rfl

theorem cascade (hplan : g.PlannedAs plan) (h : Ended env plan s) : Cascade g env s where
  settled id hid := by
    obtain ⟨planned, hplanned, rfl⟩ := hplan.exists_planned hid
    exact (h.settled planned hplanned).isSettled
  called id hid hall := by
    obtain ⟨planned, hplanned, rfl⟩ := hplan.exists_planned hid
    rcases h.skipped_or_called hplan hplanned with ⟨-, -, hnot⟩ | ⟨⟨r, hcalls, -⟩, -⟩
    · exact absurd (fun a hfeeds => hall a (.single hfeeds)) hnot
    · exact ⟨r, hcalls⟩
  notCalled r hr := by
    obtain ⟨hid, hstatus⟩ := h.status_ne_skipped_of_mem_calls hplan hr
    exact ⟨hid, fun a hab => h.succeeded_of_transGen hplan hab hstatus⟩
  skipped id hid := h.skipped_iff_exists_failed hplan hid
  failed node hnode r hr hid := by
    rw [Report.status?_of_record? (h.record?_of_mem_calls hplan hnode hr hid),
      Option.some.injEq, NodeRecord.status_answer]
    have hnames (values : Values) :
        (∃ output ∈ node.outputs, values.contains output.name = false) ↔
          ∃ name ∈ node.outputs.map Socket.name, values.contains name = false := by simp
    simp only [hnames]
    rw [← Response.exists_outcome_eq_error_iff]
    cases (env.respond r).outcome (node.outputs.map Socket.name) <;> simp
  succeeded r hr hfailed := by
    obtain ⟨hid, hstatus⟩ := h.status_ne_skipped_of_mem_calls hplan hr
    rcases h.status_cases hplan hid with hcase | hcase | hcase
    · exact absurd hcase hstatus
    · exact absurd hcase hfailed
    · exact hcase
  missing node hnode r hr hid values hvalues before output after houtputs hbefore hmissing := by
    have hnames : node.outputs.map Socket.name =
        before.map Socket.name ++ output.name :: after.map Socket.name := by
      simp [houtputs]
    rw [h.record?_of_mem_calls hplan hnode hr hid, hvalues, hnames,
      Response.outcome_eq_missing (by simpa using hbefore) hmissing]
    rfl
  overall := h.overall_eq hplan

end Ended

/-- A run that nobody cancels ends after a bounded number of moves, however its tasks take turns and
however many of them may call at once, and failures have then spread along the links and no
further. -/
theorem failure_cascade {g : Graph} (hg : g.Reachable) {plan : Plan} (hplan : g.plan = .ok plan)
    {env : RunSetting} (henv : env.Quiet) {limit : Option Nat} (hlimit : limit ≠ some 0)
    {moves : List Move} (hmoves : .cancel ∉ moves) {s : RunState}
    (hrun : (RunState.initial env.runId plan limit false).after? env moves = some s) :
    moves.length ≤ 2 + 2 * plan.stages.length + 3 * plan.nodes.length ∧
      (s.Over env → s.phase = .finished ∧ Cascade g env s) := by
  have hplanned := Graph.plannedAs_of_plan hg hplan
  constructor
  · have hstart := Coherent.start env plan limit false
    have hbound := hstart.length_add_workLeft_le hplanned.ordered henv hmoves hrun
    simp only [workLeft, RunState.initial, RunPhase.ahead, List.length_nil] at hbound
    rw [Plan.nodes]
    omega
  · intro hover
    obtain ⟨hphase, hended⟩ := ended_of_over hplanned.ordered henv hlimit hmoves hrun hover
    exact ⟨hphase, hended.cascade hplanned⟩

theorem failure_cascade_diamond : ∃ s,
    (RunState.initial "a" Graph.diamondPlan (some 1) false).after? (oneFails "a")
        (diamondMoves [.launch ⟨3⟩, .settle ⟨3⟩, .launch ⟨2⟩, .settle ⟨2⟩]) = some s ∧
      s.report.status? ⟨2⟩ = some .failed ∧ Cascade Graph.diamond (oneFails "a") s := by
  have hend : ((RunState.initial "a" Graph.diamondPlan (some 1) false).after? (oneFails "a")
      (diamondMoves [.launch ⟨3⟩, .settle ⟨3⟩, .launch ⟨2⟩, .settle ⟨2⟩])).map
        (fun s => (s.phase, s.report.status? ⟨2⟩)) = some (.finished, some .failed) := by
    rw [initial_diamondPlan]
    rfl
  obtain ⟨s, hrun, hend⟩ := Option.map_eq_some_iff.mp hend
  obtain ⟨hphase, hstatus⟩ := Prod.mk.inj hend
  have hordered := (Graph.plannedAs_of_plan Graph.diamond_reachable Graph.plan_diamond).ordered
  have hquiet : (oneFails "a").Quiet := fun _ => rfl
  obtain ⟨past, hcoherent⟩ := Coherent.run hordered hquiet hrun
  have hcascade := failure_cascade Graph.diamond_reachable Graph.plan_diamond hquiet (by decide)
    (by decide) hrun
  exact ⟨s, hrun, hstatus, (hcascade.2 (hcoherent.over_of_finished hphase)).2⟩

end RunState

end Dataflow
