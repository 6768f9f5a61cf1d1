import Dataflow.Proofs.Run.Progress

/-! # Reports do not depend on the schedule

What happens to a node is determined by the records of its feeders and by the answer to its call. So
runs in which the same calls have the same answers end with the same report, in whatever order
their tasks take turns.
-/

namespace Dataflow

namespace RunState

variable {g : Graph} {plan : Plan} {env env' : RunSetting} {s s' : RunState}

/-- Calls have the same answers in two settings when they agree in all but the ids of the runs. -/
def SameAnswers (env env' : RunSetting) : Prop :=
  ∀ r r' : Request, r.nodeId = r'.nodeId → r.functionRef = r'.functionRef →
    r.inputs = r'.inputs → r.outputNames = r'.outputNames → env.respond r = env'.respond r'

namespace Ended

/-- A node ends in the same way where its feeders have. -/
theorem record?_eq (hsame : SameAnswers env env') (h : Ended env plan s) (h' : Ended env' plan s')
    {planned : PlannedNode} (hplanned : planned ∈ plan.nodes)
    (hfeeders : ∀ id ∈ planned.feeders, s.report.record? id = s'.report.record? id) :
    s.report.record? planned.id = s'.report.record? planned.id := by
  have heq := Report.gather_congr hfeeders
  rcases h.blocked_or_answered hplanned with
      ⟨feeder, hgather, hrecord, -⟩ | ⟨t, hnode, hgather, hrecord, -⟩ <;>
    rcases h'.blocked_or_answered hplanned with
      ⟨feeder', hgather', hrecord', -⟩ | ⟨t', hnode', hgather', hrecord', -⟩ <;>
    rw [heq, hgather'] at hgather
  · cases hgather
    rw [hrecord, hrecord']
  · cases hgather
  · cases hgather
  · have hinputs : t'.inputs = t.inputs := Except.ok.inj hgather
    have hrespond : env.respond (t.request env.runId) = env'.respond (t'.request env'.runId) := by
      apply hsame
      · simp [Task.request, hnode, hnode']
      · simp [Task.request, hnode, hnode']
      · simp [Task.request, hinputs]
      · simp [Task.request, hnode, hnode']
    rw [hrecord, hrecord', hrespond, hinputs]

theorem records_eq (hplan : g.PlannedAs plan) (hsame : SameAnswers env env')
    (h : Ended env plan s) (h' : Ended env' plan s') : s.report.records = s'.report.records := by
  have hids : s.report.ids = s'.report.ids := h.ids.trans h'.ids.symm
  have hperm : s.report.ids.Perm plan.nodeIds := by
    rw [h.ids]
    exact Report.ids_initial_perm _ _
  apply Report.records_eq_of_record?_eq hids (hperm.nodup_iff.mpr hplan.ordered.nodup)
  intro id hid
  by_contra hne
  -- A node with another record would have a feeder with another record, and so on without an end.
  let differing : Set NodeId :=
    {b | b ∈ plan.nodeIds ∧ s.report.record? b ≠ s'.report.record? b}
  have hfinite : differing.Finite := (List.finite_toSet plan.nodeIds).subset fun _ hb => hb.1
  have hfeeder : ∀ b ∈ differing, ∃ a ∈ differing, g.Feeds a b := by
    rintro b ⟨hb, hne⟩
    obtain ⟨planned, hplanned, rfl⟩ := List.mem_map.mp hb
    by_contra hnone
    refine hne (h.record?_eq hsame h' hplanned fun a ha => ?_)
    have hfeeds := (hplan.feeders planned hplanned a).mp ha
    by_contra hdiffer
    exact hnone ⟨a, ⟨hplan.perm.mem_iff.mpr hfeeds.1, hdiffer⟩, hfeeds⟩
  obtain ⟨a, -, hcycle, -⟩ := exists_cycle_before hfinite hfeeder ⟨hperm.mem_iff.mp hid, hne⟩
  exact hplan.acyclic a hcycle

end Ended

/-- Two runs of a graph that nobody cancels end with the same records and the same overall status,
however their tasks take turns, whatever their limits are and whoever observes them. -/
theorem report_eq_of_over {g : Graph} (hg : g.Reachable) {plan : Plan} (hplan : g.plan = .ok plan)
    {env env' : RunSetting} (henv : env.Quiet) (henv' : env'.Quiet) (hsame : SameAnswers env env')
    {limit limit' : Option Nat} (hlimit : limit ≠ some 0) (hlimit' : limit' ≠ some 0)
    {moves moves' : List Move} (hmoves : .cancel ∉ moves) (hmoves' : .cancel ∉ moves')
    {s s' : RunState}
    (hrun : (RunState.initial env.runId plan limit false).after? env moves = some s)
    (hrun' : (RunState.initial env'.runId plan limit' false).after? env' moves' = some s')
    (hover : s.Over env) (hover' : s'.Over env') :
    s.report.overall = s'.report.overall ∧ s.report.records = s'.report.records := by
  have hplanned := Graph.plannedAs_of_plan hg hplan
  obtain ⟨-, hended⟩ := ended_of_over hplanned.ordered henv hlimit hmoves hrun hover
  obtain ⟨-, hended'⟩ := ended_of_over hplanned.ordered henv' hlimit' hmoves' hrun' hover'
  have hrecords := hended.records_eq hplanned hsame hended'
  refine ⟨?_, hrecords⟩
  rw [hended.overall, hended'.overall, Report.conclusion, Report.conclusion, hrecords]

theorem report_eq_of_over_diamond : ∃ s s',
    (RunState.initial "a" Graph.diamondPlan none false).after? (oneFails "a")
        (diamondMoves [.launch ⟨2⟩, .launch ⟨3⟩, .settle ⟨2⟩, .settle ⟨3⟩]) = some s ∧
      (RunState.initial "b" Graph.diamondPlan (some 1) false).after? (oneFails "b")
        (diamondMoves [.launch ⟨3⟩, .settle ⟨3⟩, .launch ⟨2⟩, .settle ⟨2⟩]) = some s' ∧
      s.report.overall = s'.report.overall ∧ s.report.records = s'.report.records := by
  have hend : ((RunState.initial "a" Graph.diamondPlan none false).after? (oneFails "a")
      (diamondMoves [.launch ⟨2⟩, .launch ⟨3⟩, .settle ⟨2⟩, .settle ⟨3⟩])).map phase =
        some .finished := by
    rw [initial_diamondPlan]
    rfl
  have hend' : ((RunState.initial "b" Graph.diamondPlan (some 1) false).after? (oneFails "b")
      (diamondMoves [.launch ⟨3⟩, .settle ⟨3⟩, .launch ⟨2⟩, .settle ⟨2⟩])).map phase =
        some .finished := by
    rw [initial_diamondPlan]
    rfl
  obtain ⟨s, hrun, hphase⟩ := Option.map_eq_some_iff.mp hend
  obtain ⟨s', hrun', hphase'⟩ := Option.map_eq_some_iff.mp hend'
  have hordered := (Graph.plannedAs_of_plan Graph.diamond_reachable Graph.plan_diamond).ordered
  obtain ⟨past, hcoherent⟩ := Coherent.run hordered (fun _ => rfl) hrun
  obtain ⟨past', hcoherent'⟩ := Coherent.run hordered (fun _ => rfl) hrun'
  have hsame : SameAnswers (oneFails "a") (oneFails "b") := by
    intro r r' hid _ _ _
    simp only [oneFails, hid]
  exact ⟨s, s', hrun, hrun',
    report_eq_of_over Graph.diamond_reachable Graph.plan_diamond (fun _ => rfl) (fun _ => rfl) hsame
      (by decide) (by decide) (by decide) (by decide) hrun hrun'
      (hcoherent.over_of_finished hphase) (hcoherent'.over_of_finished hphase')⟩

end RunState

end Dataflow
