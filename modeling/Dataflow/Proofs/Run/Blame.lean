import Dataflow.Proofs.Dependencies
import Dataflow.Proofs.Run.Accounts

/-! # Whom a skip is blamed on

A node that is skipped for a feeder names the first one, in the order of its inputs, that has not
succeeded. The feeder has failed, or it was skipped for a feeder of its own, and it is in an earlier
stage. So the blame leads back, stage by stage, to a node that has failed.
-/

namespace Dataflow

namespace Report

/-- The feeder that a node was skipped for. -/
def blamed? (r : Report) (id : NodeId) : Option NodeId :=
  match r.failure? id with
  | some (.feederFailed feeder) => some feeder
  | _ => none

/-- Where the blame for a node has led to after some steps. -/
def follow (r : Report) : Nat → NodeId → NodeId
  | 0, id => id
  | n + 1, id =>
    match r.blamed? id with
    | some feeder => r.follow n feeder
    | none => id

/-- A node has failed, or it was skipped for a feeder. -/
def Affected (r : Report) (id : NodeId) : Prop :=
  r.status? id = some .failed ∨ ∃ feeder, r.blamed? id = some feeder

variable {r : Report} {id feeder : NodeId}

theorem blamed?_eq_some_iff :
    r.blamed? id = some feeder ↔ r.failure? id = some (.feederFailed feeder) := by
  unfold blamed?
  split
  next found hfailure => simp [hfailure]
  next hnone => exact iff_of_false (by simp) fun h => hnone feeder h

theorem follow_of_blamed? (h : r.blamed? id = some feeder) (n : Nat) :
    r.follow (n + 1) id = r.follow n feeder := by
  rw [follow, h]

/-- Where nobody is blamed the blame stays. -/
theorem follow_of_blamed?_eq_none (h : r.blamed? id = none) (n : Nat) : r.follow n id = id := by
  cases n with
  | zero => rfl
  | succ n => rw [follow, h]

end Report

/-- Whom a skip is blamed on, and where the blame leads to. -/
structure Blame (g : Graph) (plan : Plan) (r : Report) (id feeder : NodeId) : Prop where
  /-- The feeder has not succeeded, and it is linked to an input before which all links come from
  nodes that have. -/
  first : ∃ link ∈ g.links, link.target = id ∧ link.source = feeder ∧
    r.status? feeder ≠ some .succeeded ∧ ∀ other ∈ g.links, other.target = id →
      other.input < link.input → r.status? other.source = some .succeeded
  settled : r.isSettled feeder = true
  feeds : g.Feeds feeder id
  /-- The feeder is in an earlier stage. -/
  earlier : ∃ i j : Nat, i < j ∧ ∃ before after : Stage, plan.stages[i]? = some before ∧
    feeder ∈ before.nodeIds ∧ plan.stages[j]? = some after ∧ id ∈ after.nodeIds
  /-- The blame comes to an end, at a node that has failed. -/
  ends : ∃ n last, r.status? last = some .failed ∧ r.blamed? last = none ∧
    ∀ m, n ≤ m → r.follow m id = last
  /-- It does not pass a node that was skipped because the run was cancelled. -/
  uncancelled : ∀ n, r.failure? (r.follow n id) ≠ some .cancelledBeforeStart

namespace RunState

variable {g : Graph} {plan : Plan} {s : RunState}

namespace Accounted

/-! ### What a single record says -/

/-- There are records of planned nodes only. -/
theorem exists_account (h : Accounted plan s) {id : NodeId} {record : NodeRecord}
    (hrecord : s.report.record? id = some record) :
    ∃ node ∈ plan.nodes, node.id = id ∧ s.Account node record := by
  obtain ⟨node, hnode, rfl⟩ := List.mem_map.mp (h.ids (Report.mem_ids_of_record? hrecord))
  obtain ⟨found, hfound, hnow⟩ := h.nodes node hnode
  obtain rfl := Option.some.inj (hrecord.symm.trans hfound)
  exact ⟨node, hnode, rfl, hnow⟩

theorem contains_of_outputs? (h : Accounted plan s) {node : PlannedNode} (hnode : node ∈ plan.nodes)
    {values : Values} (houtputs : s.report.outputs? node.id = some values) {name : String}
    (hname : name ∈ node.outputNames) : values.contains name = true := by
  obtain ⟨record, hrecord, hnow⟩ := h.nodes node hnode
  rw [Report.outputs?, hrecord, Option.bind_some, Option.ite_none_right_eq_some] at houtputs
  obtain ⟨hstatus, rfl⟩ : record.status = .succeeded ∧ record.outputs = values := by
    simpa using houtputs
  cases hnow with
  | succeeded _ _ hall => exact hall name hname
  | unsettled hopen =>
      rw [hstatus] at hopen
      cases hopen
  | failed hother | cancelled hother | blocked hother =>
      rw [hstatus] at hother
      cases hother

/-- A node that was skipped for a feeder lacks an input from it, and all its feeders have been dealt
with, none of them because the run was cancelled. -/
theorem blocked_of_blamed? (h : Accounted plan s) {node : PlannedNode} (hnode : node ∈ plan.nodes)
    {feeder : NodeId} (hblame : s.report.blamed? node.id = some feeder) :
    s.report.gather node.inputs = .error feeder ∧ ∀ id ∈ node.feeders,
      s.report.isSettled id = true ∧ s.report.failure? id ≠ some .cancelledBeforeStart := by
  obtain ⟨record, hrecord, hnow⟩ := h.nodes node hnode
  rw [Report.blamed?_eq_some_iff, Report.failure?_of_record? hrecord] at hblame
  cases hnow with
  | unsettled _ hfailure | succeeded _ hfailure | cancelled _ hfailure =>
      rw [hfailure] at hblame
      cases hblame
  | failed _ hfailure hown =>
      rw [hfailure] at hblame
      cases hblame
      exact hown.elim
  | blocked _ hfailure hgather hfeeders =>
      rw [hfailure] at hblame
      cases hblame
      exact ⟨hgather, hfeeders⟩

/-- Whoever has been dealt with and has not succeeded is affected, unless the run was cancelled
first. -/
theorem affected (h : Accounted plan s) {id : NodeId}
    (hsettled : s.report.isSettled id = true)
    (hfailure : s.report.failure? id ≠ some .cancelledBeforeStart)
    (hstatus : s.report.status? id ≠ some .succeeded) : s.report.Affected id := by
  obtain ⟨record, hrecord, hterminal⟩ := Report.exists_of_isSettled hsettled
  obtain ⟨node, -, rfl, hnow⟩ := h.exists_account hrecord
  rw [Report.failure?_of_record? hrecord] at hfailure
  rw [Report.status?_of_record? hrecord] at hstatus
  cases hnow with
  | unsettled hopen =>
      rw [hopen] at hterminal
      cases hterminal
  | succeeded hsucceeded => exact absurd (congrArg some hsucceeded) hstatus
  | cancelled _ hcancelled => exact absurd hcancelled hfailure
  | failed hfailed =>
      left
      rw [Report.status?_of_record? hrecord, hfailed]
  | @blocked feeder _ hblame =>
      right
      refine ⟨feeder, Report.blamed?_eq_some_iff.mpr ?_⟩
      rw [Report.failure?_of_record? hrecord, hblame]

/-- A node that has failed names nobody else. -/
theorem failure?_of_failed (h : Accounted plan s) {id : NodeId}
    (hfailed : s.report.status? id = some .failed) :
    ∃ failure : NodeFailure, s.report.failure? id = some failure ∧ failure.IsOwn := by
  obtain ⟨record, hrecord, hstatus⟩ := Option.map_eq_some_iff.mp hfailed
  obtain ⟨node, -, rfl, hnow⟩ := h.exists_account hrecord
  rw [Report.failure?_of_record? hrecord]
  cases hnow with
  | failed _ hfailure hown => exact ⟨_, hfailure, hown⟩
  | unsettled hother | succeeded hother | cancelled hother | blocked hother =>
      rw [hstatus] at hother
      cases hother

/-! ### The first input that is lacking -/

/-- An input of a node is there just when the node that it reads from has succeeded. -/
theorem exists_inputValue_iff (hp : plan.Ordered) (h : Accounted plan s) {node : PlannedNode}
    (hnode : node ∈ plan.nodes) {input : PlannedInput} (hinput : input ∈ node.inputs) {id : NodeId}
    (hid : id ∈ plan.nodeIds) {output : UInt64} {name : String}
    (hsource : input.source = .fromLink id output name) :
    (∃ value, s.report.inputValue input.source = .ok value) ↔
      s.report.status? id = some .succeeded := by
  obtain ⟨feeder, hfeeder, rfl⟩ := List.mem_map.mp hid
  exact Report.exists_inputValue_iff_of_ordered hp hnode hfeeder
    (fun _ hvalues _ => h.contains_of_outputs? hfeeder hvalues) hinput hsource

/-- A node that cannot be handed out has an input from a feeder that has not succeeded, and all
links to the inputs before come from nodes that have. -/
theorem exists_lacking (hplan : g.PlannedAs plan) (hvalid : g.Valid) (h : Accounted plan s)
    {planned : PlannedNode} (hplanned : planned ∈ plan.nodes) {feeder : NodeId}
    (hgather : s.report.gather planned.inputs = .error feeder) :
    feeder ∈ planned.feeders ∧ s.report.status? feeder ≠ some .succeeded ∧
      ∃ link ∈ g.links, link.target = planned.id ∧ link.source = feeder ∧
        ∀ other ∈ g.links, other.target = planned.id → other.input < link.input →
          s.report.status? other.source = some .succeeded := by
  obtain ⟨node, hnode, hresolves⟩ := hplan.resolved planned hplanned
  obtain ⟨before, input, after, hinputs, hbefore, herror⟩ := Report.gather_eq_error hgather
  obtain ⟨output, name, hsource⟩ := Report.inputValue_eq_error herror
  have hinput : input ∈ planned.inputs := by simp [hinputs]
  have hfeeder : feeder ∈ planned.feeders :=
    PlannedNode.mem_feeders_iff.mpr ⟨input, hinput, output, name, hsource⟩
  have hid (id : NodeId) (hmem : id ∈ planned.feeders) : id ∈ plan.nodeIds :=
    hplan.perm.mem_iff.mpr ((hplan.feeders planned hplanned id).mp hmem).1
  have hplace : planned.inputs[before.length]? = some input := by simp [hinputs]
  obtain ⟨link, hlink, hslot, rfl⟩ := hresolves.exists_link hplace hsource
  obtain ⟨htarget, hposition⟩ := Prod.mk.inj hslot
  refine ⟨hfeeder, fun hsucceeded => ?_, link, hlink, htarget.trans hresolves.id_eq.symm, rfl, ?_⟩
  · have hgiven := h.exists_inputValue_iff hplan.ordered hplanned hinput (hid _ hfeeder) hsource
    obtain ⟨value, hvalue⟩ := hgiven.mpr hsucceeded
    rw [hvalue] at herror
    cases herror
  · intro other hother hotherTarget hlt
    obtain ⟨found, hfound, otherName, hread⟩ := hresolves.exists_input_of_link
      hplan.nodup_nodeIds hvalid hnode hother (hotherTarget.trans hresolves.id_eq)
    have hearlier : other.input.toNat < before.length := by
      refine Nat.lt_of_lt_of_le (UInt64.lt_iff_toNat_lt.mp hlt) ?_
      rw [hposition, UInt64.toNat_ofNat']
      exact Nat.mod_le _ _
    rw [hinputs, List.getElem?_append_left hearlier] at hfound
    have hmem : found ∈ planned.inputs := by simp [hinputs, List.mem_of_getElem? hfound]
    have hsource := hid other.source
      (PlannedNode.mem_feeders_iff.mpr ⟨found, hmem, _, _, hread⟩)
    exact (h.exists_inputValue_iff hplan.ordered hplanned hmem hsource hread).mp
      (hbefore found (List.mem_of_getElem? hfound))

/-! ### Where the blame leads to -/

/-- The feeder that a node was skipped for is affected, and in an earlier stage. -/
theorem feeder_of_blamed? (hplan : g.PlannedAs plan) (hvalid : g.Valid) (h : Accounted plan s)
    {j : Nat} {stage : Stage} (hstage : plan.stages[j]? = some stage) {id feeder : NodeId}
    (hid : id ∈ stage.nodeIds) (hblame : s.report.blamed? id = some feeder) :
    s.report.Affected feeder ∧
      ∃ i < j, ∃ earlier, plan.stages[i]? = some earlier ∧ feeder ∈ earlier.nodeIds := by
  obtain ⟨planned, hmem, rfl⟩ := List.mem_map.mp hid
  have hplanned : planned ∈ plan.nodes :=
    List.mem_flatMap.mpr ⟨stage, List.mem_of_getElem? hstage, hmem⟩
  obtain ⟨hgather, hfeeders⟩ := h.blocked_of_blamed? hplanned hblame
  obtain ⟨hfeeder, hstatus, -⟩ := h.exists_lacking hplan hvalid hplanned hgather
  obtain ⟨hsettled, hfailure⟩ := hfeeders feeder hfeeder
  exact ⟨h.affected hsettled hfailure hstatus, hplan.exists_earlier_stage hstage hmem hfeeder⟩

/-- The blame for an affected node passes affected nodes only, and after no more steps than there
are stages before it stays at one that has failed. -/
theorem follow_affected (hplan : g.PlannedAs plan) (hvalid : g.Valid) (h : Accounted plan s)
    {j : Nat} {stage : Stage} (hstage : plan.stages[j]? = some stage) {id : NodeId}
    (hid : id ∈ stage.nodeIds) (haffected : s.report.Affected id) :
    (∀ n, s.report.Affected (s.report.follow n id)) ∧
      ∃ last, s.report.status? last = some .failed ∧ s.report.blamed? last = none ∧
        ∀ n, j ≤ n → s.report.follow n id = last := by
  induction j using Nat.strong_induction_on generalizing stage id with
  | _ j ih =>
      cases hblame : s.report.blamed? id with
      | none =>
          have hstays := Report.follow_of_blamed?_eq_none hblame
          have hfailed : s.report.status? id = some .failed :=
            haffected.resolve_right fun ⟨feeder, hfeeder⟩ => by simp [hblame] at hfeeder
          refine ⟨fun n => ?_, id, hfailed, hblame, fun n _ => hstays n⟩
          rw [hstays]
          exact haffected
      | some feeder =>
          obtain ⟨hfeeder, i, hlt, earlier, hearlier, hmem⟩ :=
            h.feeder_of_blamed? hplan hvalid hstage hid hblame
          obtain ⟨hall, last, hfailed, hnone, hends⟩ := ih i hlt hearlier hmem hfeeder
          refine ⟨fun n => ?_, last, hfailed, hnone, fun n hn => ?_⟩
          · cases n with
            | zero => exact haffected
            | succ n =>
                rw [Report.follow_of_blamed? hblame]
                exact hall n
          · obtain ⟨n, rfl⟩ := Nat.exists_eq_succ_of_ne_zero (Nat.ne_zero_of_lt (hlt.trans_le hn))
            rw [Report.follow_of_blamed? hblame]
            exact hends n (by omega)

/-- An affected node was not skipped because the run was cancelled. -/
theorem failure?_of_affected (h : Accounted plan s) {id : NodeId}
    (haffected : s.report.Affected id) : s.report.failure? id ≠ some .cancelledBeforeStart := by
  rcases haffected with hfailed | ⟨feeder, hblame⟩
  · obtain ⟨failure, hfailure, hown⟩ := h.failure?_of_failed hfailed
    rw [hfailure]
    rintro ⟨⟩
    exact hown
  · rw [Report.blamed?_eq_some_iff.mp hblame]
    simp

end Accounted

/-- Whatever executor and observer do, and whenever a run is cancelled, a skip that is blamed on a
feeder is blamed on the first one that has not succeeded, and the blame leads back to a node that
has failed. -/
theorem blame_leads_to_failure {g : Graph} (hg : g.Reachable) {plan : Plan}
    (hplan : g.plan = .ok plan) {env : RunSetting} {limit : Option Nat} {cancelled : Bool}
    {moves : List Move} {s : RunState}
    (hrun : (RunState.initial env.runId plan limit cancelled).after? env moves = some s)
    {id feeder : NodeId} (hskip : s.report.failure? id = some (.feederFailed feeder)) :
    Blame g plan s.report id feeder := by
  have hnodup := hg.wellKept.nodup_nodeIds
  obtain ⟨hstaging, -⟩ := Graph.plan_eq_ok hnodup hplan
  have hvalid := ((Graph.staging_eq_ok_iff hnodup).mp hstaging).1
  have hplanned := Graph.plannedAs_of_plan hg hplan
  have h := Accounted.run hplanned.ordered hrun
  have hblame := Report.blamed?_eq_some_iff.mpr hskip
  obtain ⟨record, hrecord, -⟩ := Option.bind_eq_some_iff.mp hskip
  obtain ⟨node, hnode, rfl, -⟩ := h.exists_account hrecord
  obtain ⟨stage, hstage, hmem⟩ := List.mem_flatMap.mp hnode
  obtain ⟨j, hj⟩ := List.mem_iff_getElem?.mp hstage
  have hid : node.id ∈ stage.nodeIds := List.mem_map_of_mem hmem
  obtain ⟨hgather, hfeeders⟩ := h.blocked_of_blamed? hnode hblame
  obtain ⟨hfeeder, hstatus, link, hlink, htarget, hsource, hbefore⟩ :=
    h.exists_lacking hplanned hvalid hnode hgather
  obtain ⟨i, hlt, earlier, hearlier, hin⟩ := hplanned.exists_earlier_stage hj hmem hfeeder
  obtain ⟨hall, last, hfailed, hnone, hends⟩ :=
    h.follow_affected hplanned hvalid hj hid (.inr ⟨feeder, hblame⟩)
  exact
    { first := ⟨link, hlink, htarget, hsource, hstatus, hbefore⟩
      settled := (hfeeders feeder hfeeder).1
      feeds := (hplanned.feeders node hnode feeder).mp hfeeder
      earlier := ⟨i, j, hlt, earlier, stage, hearlier, hin, hj, hid⟩
      ends := ⟨j, last, hfailed, hnone, hends⟩
      uncancelled := fun n => h.failure?_of_affected (hall n) }

/-- No call succeeds. -/
def allFail (runId : String) : RunSetting :=
  { oneFails runId with respond := fun _ => .error (.failed "no") }

/-- When the first node of the diamond fails, the last one is skipped for the first of the two nodes
in the middle, and the blame goes on to where it began. -/
theorem blame_leads_to_failure_diamond : ∃ s,
    (RunState.initial "a" Graph.diamondPlan none false).after? (allFail "a")
        [.announce, .openStage, .dispatch, .launch ⟨1⟩, .settle ⟨1⟩, .closeStage, .openStage,
          .dispatch, .dispatch, .closeStage, .openStage, .dispatch] = some s ∧
      s.report.failure? ⟨4⟩ = some (.feederFailed ⟨2⟩) ∧ s.report.follow 2 ⟨4⟩ = ⟨1⟩ ∧
      Blame Graph.diamond Graph.diamondPlan s.report ⟨4⟩ ⟨2⟩ := by
  have hend : ((RunState.initial "a" Graph.diamondPlan none false).after? (allFail "a")
      [.announce, .openStage, .dispatch, .launch ⟨1⟩, .settle ⟨1⟩, .closeStage, .openStage,
        .dispatch, .dispatch, .closeStage, .openStage, .dispatch]).map
      (fun s => (s.report.failure? ⟨4⟩, s.report.follow 2 ⟨4⟩)) =
        some (some (.feederFailed ⟨2⟩), ⟨1⟩) := by
    rw [initial_diamondPlan]
    rfl
  obtain ⟨s, hrun, hend⟩ := Option.map_eq_some_iff.mp hend
  obtain ⟨hskip, hfollow⟩ := Prod.mk.inj hend
  exact ⟨s, hrun, hskip, hfollow,
    blame_leads_to_failure Graph.diamond_reachable Graph.plan_diamond hrun hskip⟩

end RunState

end Dataflow
