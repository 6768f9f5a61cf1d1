import Dataflow.Proofs.Run.Cascade
import Dataflow.Proofs.Run.Snapshots

/-! # Cancelled runs

A run that is cancelled makes no further calls, but it still ends: the calls that have been made are
waited for, and all nodes that nothing has happened to are skipped.
-/

namespace Dataflow

namespace RunState

variable {env : RunSetting} {plan : Plan} {limit : Option Nat} {past : List Stage}
variable {s s' : RunState}

/-! ### After the cancellation -/

theorem Change.of_cancelled {id : NodeId} {before after : NodeRecord}
    (h : s.Change env id before after) (hcancelled : s.cancelled = true) :
    before = .initial ∧ after = NodeRecord.initial.skip .cancelledBeforeStart ∨
      before.status = .running := by
  cases h with
  | skip hreason =>
      cases hreason with
      | cancelled _ => exact .inl ⟨rfl, rfl⟩
      | blocked hnot _ =>
          rw [hcancelled] at hnot
          cases hnot
  | start _ hnot =>
      rw [hcancelled] at hnot
      cases hnot
  | answer _ => exact .inr rfl

namespace Coherent

theorem calls_of_step (henv : env.Quiet) (h : Coherent env plan limit past s) {m : Move}
    (hstep : s.step env m = some s') (hcancelled : s.cancelled = true) :
    s'.cancelled = true ∧ s'.calls = s.calls := by
  cases moves_of_step henv hstep with
  | cancel => exact ⟨rfl, rfl⟩
  | launch _ _ hnot =>
      rw [hcancelled] at hnot
      cases hnot
  | closeStage hphase hundispatched hwaiting hinFlight =>
      rw [h.closeStage_eq hphase hundispatched hwaiting hinFlight]
      exact ⟨hcancelled, rfl⟩
  | _ => exact ⟨hcancelled, rfl⟩

/-- A cancelled run stays cancelled and makes no calls. -/
theorem calls_run (hp : plan.Ordered) (henv : env.Quiet) (h : Coherent env plan limit past s)
    (hcancelled : s.cancelled = true) {moves : List Move} (hrun : s.after? env moves = some s') :
    s'.cancelled = true ∧ s'.calls = s.calls := by
  refine (h.preserves hp henv
    (motive := fun next => next.cancelled = true ∧ next.calls = s.calls) ?_ hrun
      ⟨hcancelled, rfl⟩).2
  rintro past next m last - hnext hstep ⟨hcancelled, hcalls⟩
  obtain ⟨hstays, hsame⟩ := hnext.calls_of_step henv hstep hcancelled
  exact ⟨hstays, hsame.trans hcalls⟩

/-- A node to which nothing has happened can only be skipped as cancelled. -/
theorem initial_or_cancelled_run (hp : plan.Ordered) (henv : env.Quiet)
    (h : Coherent env plan limit past s) (hcancelled : s.cancelled = true) {moves : List Move}
    (hrun : s.after? env moves = some s') {id : NodeId}
    (hrecord : s.report.record? id = some .initial) :
    s'.report.record? id = some .initial ∨
      s'.report.record? id = some (NodeRecord.initial.skip .cancelledBeforeStart) := by
  refine (h.preserves hp henv (motive := fun next => next.cancelled = true ∧
    (next.report.record? id = some .initial ∨
      next.report.record? id = some (NodeRecord.initial.skip .cancelledBeforeStart))) ?_ hrun
        ⟨hcancelled, .inl hrecord⟩).2.2
  rintro past next m last - hnext hstep ⟨hcancelled, hcases⟩
  refine ⟨(hnext.calls_of_step henv hstep hcancelled).1, ?_⟩
  have hchanges := hnext.changesTo henv hstep id
  rcases hcases with hinitial | hskipped
  · rcases hchanges with hsame | ⟨before, after, hbefore, hafter, hchange⟩
    · exact .inl (hsame.trans hinitial)
    · obtain rfl := Option.some.inj (hinitial.symm.trans hbefore)
      rcases hchange.of_cancelled hcancelled with ⟨-, rfl⟩ | hrunning
      · exact .inr hafter
      · cases hrunning
  · refine .inr ((hchanges.record?_of_isSettled ?_).trans hskipped)
    exact Report.isSettled_of_record? hskipped

end Coherent

/-! ### Before the cancellation -/

/-- What a skipped node of a run that is not cancelled is blamed on. -/
theorem Coherent.exists_feeder_of_skipped {g : Graph} (hplan : g.PlannedAs plan)
    (h : Coherent env plan limit past s) (hcancelled : s.cancelled = false) {planned : PlannedNode}
    (hplanned : planned ∈ plan.nodes) (hskipped : s.report.status? planned.id = some .skipped) :
    ∃ feeder, g.Feeds feeder planned.id ∧ (s.report.status? feeder = some .failed ∨
        s.report.status? feeder = some .skipped) ∧
      s.report.record? planned.id = some (NodeRecord.initial.skip (.feederFailed feeder)) := by
  have hp := hplan.ordered
  cases h.standing hp hplanned with
  | fresh hfresh => simp [Report.status?_of_record? hfresh.1, NodeRecord.initial] at hskipped
  | calling hnode hcalling =>
      subst hnode
      simp [Report.status?_of_record? hcalling.1, NodeRecord.start] at hskipped
  | settled hsettled =>
      cases hsettled with
      | cancelled hc _ _ =>
          rw [hcancelled] at hc
          cases hc
      | answered _ _ hrecord _ =>
          rw [Report.status?_of_record? hrecord, Option.some.injEq] at hskipped
          exact absurd hskipped (NodeRecord.status_answer_ne_skipped _ _)
      | @blocked feeder hgather hrecord _ =>
          obtain ⟨before, input, after, hinputs, -, herror⟩ := Report.gather_eq_error hgather
          obtain ⟨output, name, hsource⟩ := Report.inputValue_eq_error herror
          have hinput : input ∈ planned.inputs := by simp [hinputs]
          have hid : feeder ∈ planned.feeders :=
            PlannedNode.mem_feeders_iff.mpr ⟨input, hinput, output, name, hsource⟩
          refine ⟨feeder, (hplan.feeders planned hplanned feeder).mp hid, ?_, hrecord⟩
          obtain ⟨node, hnode, rfl, hfeeder⟩ :=
            h.exists_settled_feeder hp hplanned (by simp [hskipped]) hid
          -- A feeder that had succeeded would have provided the input.
          have hnot : s.report.status? node.id ≠ some .succeeded := by
            intro hsucceeded
            have hgiven := Report.exists_inputValue_iff_of_ordered hp hplanned hnode
              (fun _ hvalues _ => hfeeder.contains_of_outputs? hvalues) hinput hsource
            obtain ⟨value, hvalue⟩ := hgiven.mpr hsucceeded
            rw [hvalue] at herror
            cases herror
          exact hfeeder.failed_or_skipped hnot

/-! ### The end -/

/-- What the record of a called node says when its call is over: the inputs of the call, and what
came of it. The first output without a value is the one that is reported. -/
inductive Answered (outputs : List Socket) (inputs : Values) : Response → NodeRecord → Prop
  | succeeded {values : Values}
      (hall : ∀ output ∈ outputs, values.contains output.name = true) :
      Answered outputs inputs (.outputs values) ⟨.succeeded, inputs, values, none, true, true⟩
  | missing {values : Values} {before after : List Socket} {output : Socket}
      (houtputs : outputs = before ++ output :: after)
      (hbefore : ∀ other ∈ before, values.contains other.name = true)
      (hmissing : values.contains output.name = false) :
      Answered outputs inputs (.outputs values)
        ⟨.failed, inputs, .empty, some (.missingOutput output.name), true, true⟩
  | error (e : CallError) :
      Answered outputs inputs (.error e)
        ⟨.failed, inputs, .empty, some (.execution e.message), true, true⟩
  | panic (message : String) :
      Answered outputs inputs (.panic message)
        ⟨.failed, inputs, .empty, some (.panicked message), true, true⟩

theorem answered_answer (outputs : List Socket) (inputs : Values) (response : Response) :
    Answered outputs inputs response
      ((NodeRecord.initial.start inputs).answer (response.outcome (outputs.map Socket.name))) := by
  cases response with
  | error e => exact .error e
  | panic message => exact .panic message
  | outputs values =>
      cases hfind : outputs.find? (!values.contains ·.name) with
      | none =>
          have hall : ∀ output ∈ outputs, values.contains output.name = true := by
            simpa using List.find?_eq_none.mp hfind
          have hok : (Response.outputs values).outcome (outputs.map Socket.name) = .ok values :=
            Response.outcome_eq_ok_iff.mpr ⟨rfl, List.forall_mem_map.mpr hall⟩
          rw [hok]
          exact .succeeded hall
      | some output =>
          obtain ⟨hmissing, before, after, rfl, hbefore⟩ := List.find?_eq_some_iff_append.mp hfind
          have hbefore : ∀ other ∈ before, values.contains other.name = true := by
            simpa using hbefore
          have hmissing : values.contains output.name = false := by simpa using hmissing
          rw [List.map_append, List.map_cons,
            Response.outcome_eq_missing (List.forall_mem_map.mpr hbefore) hmissing]
          exact .missing rfl hbefore hmissing

/-- How a run ends that was cancelled in a state. -/
structure CutOff (g : Graph) (env : RunSetting) (s₀ s : RunState) : Prop where
  /-- Every node has a terminal status. -/
  settled : ∀ id ∈ g.nodeIds, s.report.isSettled id = true
  /-- A node that had been called has the outcome of its call. -/
  answered : ∀ node ∈ g.nodes, ∀ r ∈ s₀.calls, r.nodeId = node.id →
    ∃ record, s.report.record? node.id = some record ∧
      Answered node.outputs r.inputs (env.respond r) record
  /-- A node that had been skipped lacked an input of a node that did not succeed, and nothing else
  is said of it now. -/
  blocked : ∀ id ∈ g.nodeIds, s₀.report.status? id = some .skipped → ∃ feeder, g.Feeds feeder id ∧
    (s₀.report.status? feeder = some .failed ∨ s₀.report.status? feeder = some .skipped) ∧
      s₀.report.record? id = some (NodeRecord.initial.skip (.feederFailed feeder)) ∧
        s.report.record? id = s₀.report.record? id
  /-- All other nodes without a call are skipped as cancelled. -/
  cancelled : ∀ id ∈ g.nodeIds, (∀ r ∈ s.calls, r.nodeId ≠ id) →
    s₀.report.status? id ≠ some .skipped →
      s.report.record? id = some (NodeRecord.initial.skip .cancelledBeforeStart)
  /-- The run is aborted just when some node is skipped as cancelled. -/
  overall : s.report.overall = some
    (if ∃ id ∈ g.nodeIds,
        (s.report.record? id).bind NodeRecord.failure = some .cancelledBeforeStart then .aborted
      else if ∀ id ∈ g.nodeIds, s.report.status? id = some .succeeded then .completed
      else .completedWithErrors)

theorem Coherent.cutOff {g : Graph} (hplan : g.PlannedAs plan) (henv : env.Quiet)
    (h : Coherent env plan limit past s) (hcancelled : s.cancelled = false) {moves : List Move}
    (hrun : RunState.after? env { s with cancelled := true } moves = some s')
    (hphase : s'.phase = .finished) : CutOff g env s s' := by
  have hp := hplan.ordered
  have hcalls := (h.cancel.calls_run hp henv rfl hrun).2
  obtain ⟨past', h'⟩ := h.cancel.after hp henv hrun
  have hsettled := h'.settled_of_finished hphase
  constructor
  · intro id hid
    obtain ⟨planned, hplanned, rfl⟩ := hplan.exists_planned hid
    exact (hsettled planned hplanned).isSettled
  · intro node hnode r hr hid
    obtain ⟨planned, hplanned, hresolves⟩ := hplan.exists_resolves hnode
    refine ⟨_, ?_, answered_answer node.outputs r.inputs (env.respond r)⟩
    rw [← hresolves.id_eq, ← hresolves.outputNames_eq]
    exact (hsettled planned hplanned).record?_of_mem_calls (hcalls ▸ hr)
      (hid.trans hresolves.id_eq.symm)
  · intro id hid hskipped
    obtain ⟨planned, hplanned, rfl⟩ := hplan.exists_planned hid
    obtain ⟨feeder, hfeeds, hfeeder, hrecord⟩ :=
      h.exists_feeder_of_skipped hplan hcancelled hplanned hskipped
    refine ⟨feeder, hfeeds, hfeeder, hrecord, h.cancel.record?_run hp henv hrun ?_⟩
    change s.report.isSettled planned.id = true
    rw [Report.isSettled, hskipped]
    rfl
  · intro id hid hnone hskipped
    obtain ⟨planned, hplanned, rfl⟩ := hplan.exists_planned hid
    have huncalled : ∀ r, s.callsOf planned.id ≠ [r] := by
      intro r hr
      obtain ⟨other, hother, hid⟩ := exists_call_of_callsOf_eq hr
      exact hnone other (hcalls ▸ hother) hid
    cases h.standing hp hplanned with
    | fresh hfresh =>
        refine (h.cancel.initial_or_cancelled_run hp henv rfl hrun hfresh.1).resolve_left ?_
        intro hinitial
        have := (hsettled planned hplanned).isSettled
        rw [Report.isSettled_of_record? hinitial] at this
        cases this
    | calling hnode hcalling => exact absurd (hnode ▸ hcalling.2.1) (huncalled _)
    | settled hcase =>
        cases hcase with
        | cancelled hc _ _ =>
            rw [hcancelled] at hc
            cases hc
        | blocked _ hrecord _ => exact absurd (Report.status?_of_record? hrecord) hskipped
        | answered _ _ _ hanswered => exact absurd hanswered (huncalled _)
  · rw [h'.overall_of_finished hphase, Report.conclusion_eq
      (h'.ids_perm.nodup_iff.mpr hp.nodup) fun _ => (h'.ids_perm.trans hplan.perm).mem_iff]

/-- A run that is cancelled before it begins is one that starts out cancelled. -/
theorem step_cancel_initial (env : RunSetting) (plan : Plan) (limit : Option Nat) :
    (RunState.initial env.runId plan limit false).step env .cancel =
      some (RunState.initial env.runId plan limit true) :=
  rfl

/-- A run that is cancelled in a state, before it begins or at any time after, makes no calls from
there on. It still ends after a bounded number of moves, further cancellations apart, with every
node dealt with. -/
theorem cancellation_exact {g : Graph} (hg : g.Reachable) {plan : Plan} (hplan : g.plan = .ok plan)
    {env : RunSetting} (henv : env.Quiet) {limit : Option Nat} (hlimit : limit ≠ some 0)
    {before after : List Move} (hbefore : .cancel ∉ before) {s₀ s : RunState}
    (hrun : (RunState.initial env.runId plan limit false).after? env before = some s₀)
    (hcut : s₀.after? env (.cancel :: after) = some s) :
    s.calls = s₀.calls ∧
      (before ++ .cancel :: after).countP (· ≠ .cancel) ≤
        2 + 2 * plan.stages.length + 3 * plan.nodes.length ∧
      (s.Over env → s.phase = .finished ∧ CutOff g env s₀ s) := by
  have hplanned := Graph.plannedAs_of_plan hg hplan
  have hp := hplanned.ordered
  obtain ⟨⟨past, h⟩, hcancelled⟩ := Coherent.uncancelled_run hp henv hbefore hrun
  have hrest := hcut
  obtain ⟨next, hnext, hrest⟩ := after?_cons.mp hrest
  obtain rfl : { s₀ with cancelled := true } = next := Option.some.inj hnext
  refine ⟨(h.cancel.calls_run hp henv rfl hrest).2, ?_, fun hover => ?_⟩
  · have hfirst := (Coherent.start env plan limit false).countP_add_workLeft_le hp henv hrun
    have hlast := h.countP_add_workLeft_le hp henv hcut
    rw [workLeft_initial] at hfirst
    rw [List.countP_append]
    omega
  · obtain ⟨past', h'⟩ := h.cancel.after hp henv hrest
    have hphase := h'.finished_of_over hlimit hover
    exact ⟨hphase, h.cutOff hplanned henv hcancelled hrest hphase⟩

/-- One of the two nodes in the middle of the diamond is running when the run is cancelled, so the
other one and the last one are not called any more. -/
theorem cancellation_exact_diamond : ∃ s₀ s,
    (RunState.initial "a" Graph.diamondPlan (some 1) false).after? (oneFails "a")
        [.announce, .openStage, .dispatch, .launch ⟨1⟩, .settle ⟨1⟩, .closeStage, .openStage,
          .dispatch, .dispatch, .launch ⟨2⟩] = some s₀ ∧
      s₀.after? (oneFails "a") [.cancel, .settle ⟨2⟩, .launch ⟨3⟩, .closeStage, .openStage,
        .dispatch, .closeStage, .finish] = some s ∧
      s.calls = s₀.calls ∧ CutOff Graph.diamond (oneFails "a") s₀ s ∧
      s.report.record? ⟨3⟩ = some (NodeRecord.initial.skip .cancelledBeforeStart) := by
  have hstart : ((RunState.initial "a" Graph.diamondPlan (some 1) false).after? (oneFails "a")
      [.announce, .openStage, .dispatch, .launch ⟨1⟩, .settle ⟨1⟩, .closeStage, .openStage,
        .dispatch, .dispatch, .launch ⟨2⟩]).map
      (fun s => (s.calls.map Request.nodeId, s.report.status? ⟨3⟩,
        (s.after? (oneFails "a") [.cancel, .settle ⟨2⟩, .launch ⟨3⟩, .closeStage, .openStage,
          .dispatch, .closeStage, .finish]).map phase)) =
        some ([⟨1⟩, ⟨2⟩], some .pending, some .finished) := by
    rw [initial_diamondPlan]
    rfl
  obtain ⟨s₀, hrun, hstart⟩ := Option.map_eq_some_iff.mp hstart
  simp only [Prod.mk.injEq, Option.map_eq_some_iff] at hstart
  obtain ⟨hcalled, hpending, s, hcut, hphase⟩ := hstart
  have hordered := (Graph.plannedAs_of_plan Graph.diamond_reachable Graph.plan_diamond).ordered
  have hquiet : (oneFails "a").Quiet := fun _ => rfl
  obtain ⟨past, h₀⟩ := Coherent.run hordered hquiet hrun
  obtain ⟨past', h⟩ := h₀.after hordered hquiet hcut
  obtain ⟨hcalls, -, hend⟩ := cancellation_exact Graph.diamond_reachable Graph.plan_diamond hquiet
    (by decide) (by decide) hrun hcut
  obtain ⟨-, hcutOff⟩ := hend (h.over_of_finished hphase)
  refine ⟨s₀, s, hrun, hcut, hcalls, hcutOff,
    hcutOff.cancelled ⟨3⟩ (by decide) ?_ (by simp [hpending])⟩
  intro r hr hid
  have hmem : (⟨3⟩ : NodeId) ∈ s₀.calls.map Request.nodeId :=
    hid ▸ List.mem_map_of_mem (hcalls ▸ hr)
  rw [hcalled] at hmem
  exact absurd hmem (by decide)

end RunState

end Dataflow
