import Dataflow.Proofs.Run.Changes

/-! # What a snapshot of a run shows

A report can be looked at between any two moves. Whatever the run has come to, its records say which
nodes have been called and why others have not, a stage has begun only if all earlier ones are over,
and what is terminal is final.
-/

namespace Dataflow

open Relation

/-- Whoever has given all inputs of a node has succeeded. -/
theorem Report.status?_of_gather {r : Report} {node : PlannedNode} {inputs : Values}
    (h : r.gather node.inputs = .ok inputs) {id : NodeId} (hid : id ∈ node.feeders) :
    r.status? id = some .succeeded := by
  obtain ⟨input, hinput, output, name, hsource⟩ := PlannedNode.mem_feeders_iff.mp hid
  obtain ⟨value, hvalue⟩ := exists_gather_eq_ok_iff.mp ⟨inputs, h⟩ input hinput
  rw [hsource] at hvalue
  cases hrecord : r.record? id with
  | none => simp [inputValue, outputs?, hrecord] at hvalue
  | some record =>
      by_cases hstatus : record.status = .succeeded
      · rw [status?_of_record? hrecord, hstatus]
      · simp [inputValue, outputs?, hrecord, hstatus] at hvalue

/-- A record has a failure just when its status asks for one, outputs after a success only, and
inputs or a time of its start for a call only. -/
structure NodeRecord.Fits (r : NodeRecord) (called : Prop) : Prop where
  failure : r.failure.isSome ↔ r.status = .failed ∨ r.status = .skipped
  outputs : r.outputs.isEmpty = false → r.status = .succeeded
  inputs : r.inputs.isEmpty = false ∨ r.started = true → called

namespace NodeRecord

theorem fits_initial (called : Prop) : NodeRecord.initial.Fits called where
  failure := by simp [initial]
  outputs h := by cases h
  inputs h := by rcases h with h | h <;> cases h

theorem fits_skip (reason : NodeFailure) (called : Prop) :
    (NodeRecord.initial.skip reason).Fits called where
  failure := by simp [skip]
  outputs h := by cases h
  inputs h := by rcases h with h | h <;> cases h

theorem fits_start (inputs : Values) {called : Prop} (h : called) :
    (NodeRecord.initial.start inputs).Fits called where
  failure := by simp [start, initial]
  outputs h := by cases h
  inputs _ := h

theorem fits_answer (inputs : Values) (outcome : Except NodeFailure Values) {called : Prop}
    (h : called) : ((NodeRecord.initial.start inputs).answer outcome).Fits called := by
  cases outcome with
  | ok values => exact ⟨by simp [answer, succeed, start, initial], fun _ => rfl, fun _ => h⟩
  | error failure =>
      refine ⟨by simp [answer, fail], fun houtputs => ?_, fun _ => h⟩
      cases houtputs

end NodeRecord

namespace RunState

/-- What the report of a run shows at any time. -/
structure Snapshot (plan : Plan) (s : RunState) : Prop where
  /-- There is one record for every planned node and no other. -/
  keys : s.report.ids.Perm plan.nodeIds ∧ s.report.ids.Nodup
  /-- Nothing happens in a stage before all earlier stages are over. -/
  barrier : ∀ (i j : Nat) (earlier later : Stage), plan.stages[i]? = some earlier →
    plan.stages[j]? = some later → i < j →
      (∃ node ∈ later.nodes, s.report.status? node.id ≠ some .pending) →
        ∀ node ∈ earlier.nodes, s.report.isSettled node.id = true
  /-- A node is called only if all the nodes that it reads from have succeeded. -/
  feeders : ∀ node ∈ plan.nodes, s.report.status? node.id = some .running ∨
      s.report.status? node.id = some .succeeded ∨ s.report.status? node.id = some .failed →
    ∀ id ∈ node.feeders, s.report.status? id = some .succeeded
  records : ∀ id record, s.report.record? id = some record →
    record.Fits (∃ r ∈ s.calls, r.nodeId = id)
  /-- The run has no overall status as long as one of its nodes has no terminal status. -/
  overall : s.report.overall.isSome → ∀ id ∈ plan.nodeIds, s.report.isSettled id = true

variable {env : RunSetting} {plan : Plan} {limit : Option Nat} {past : List Stage}
variable {s s' : RunState}

theorem exists_call_of_callsOf_eq {id : NodeId} {r : Request} (h : s.callsOf id = [r]) :
    ∃ r ∈ s.calls, r.nodeId = id := by
  have hmem : r ∈ s.callsOf id := h ▸ List.mem_singleton_self r
  exact ⟨r, mem_callsOf_iff.mp hmem⟩

theorem Standing.exists_fits {node : PlannedNode} (h : s.Standing env node) :
    ∃ record, s.report.record? node.id = some record ∧
      record.Fits (∃ r ∈ s.calls, r.nodeId = node.id) := by
  cases h with
  | fresh h => exact ⟨_, h.1, NodeRecord.fits_initial _⟩
  | @calling t hnode h =>
      subst hnode
      exact ⟨_, h.1, NodeRecord.fits_start _ (exists_call_of_callsOf_eq h.2.1)⟩
  | settled h =>
      cases h with
      | cancelled _ hrecord _ => exact ⟨_, hrecord, NodeRecord.fits_skip _ _⟩
      | blocked _ hrecord _ => exact ⟨_, hrecord, NodeRecord.fits_skip _ _⟩
      | answered _ _ hrecord hcalls =>
          exact ⟨_, hrecord, NodeRecord.fits_answer _ _ (exists_call_of_callsOf_eq hcalls)⟩

/-- A node that is called or has been called was given all its inputs. -/
theorem Standing.exists_gather {node : PlannedNode} (h : s.Standing env node)
    (hstatus : s.report.status? node.id = some .running ∨
      s.report.status? node.id = some .succeeded ∨ s.report.status? node.id = some .failed) :
    ∃ inputs, s.report.gather node.inputs = .ok inputs := by
  have hskip : ∀ reason, s.report.record? node.id ≠ some (NodeRecord.initial.skip reason) := by
    intro reason hrecord
    simp [Report.status?_of_record? hrecord, NodeRecord.skip] at hstatus
  cases h with
  | fresh h => simp [Report.status?_of_record? h.1, NodeRecord.initial] at hstatus
  | @calling t hnode h => exact ⟨t.inputs, hnode ▸ h.2.2⟩
  | settled h =>
      cases h with
      | cancelled _ hrecord _ => exact absurd hrecord (hskip _)
      | blocked _ hrecord _ => exact absurd hrecord (hskip _)
      | @answered t _ hgather _ _ => exact ⟨t.inputs, hgather⟩

namespace Coherent

theorem ids_perm (h : Coherent env plan limit past s) : s.report.ids.Perm plan.nodeIds := by
  rw [h.ids]
  exact Report.ids_initial_perm _ _

/-- Every record of a run belongs to a planned node. -/
theorem standing_of_record? (hp : plan.Ordered) (h : Coherent env plan limit past s) {id : NodeId}
    {record : NodeRecord} (hrecord : s.report.record? id = some record) :
    ∃ node ∈ plan.nodes, node.id = id ∧ s.Standing env node := by
  have hnodup : s.report.ids.Nodup := h.ids_perm.nodup_iff.mpr hp.nodup
  have hid := List.mem_map_of_mem (f := Prod.fst) ((Report.record?_eq_some_iff hnodup).mp hrecord)
  obtain ⟨node, hnode, rfl⟩ := List.mem_map.mp (h.ids_perm.mem_iff.mp hid)
  exact ⟨node, hnode, rfl, h.standing hp hnode⟩

/-- A stage in which something has happened is not ahead of the open one. -/
theorem settled_of_begun (h : Coherent env plan limit past s) {i j : Nat} {earlier later : Stage}
    (hearlier : plan.stages[i]? = some earlier) (hlater : plan.stages[j]? = some later)
    (hij : i < j) {node : PlannedNode} (hnode : node ∈ later.nodes)
    (hbegun : s.report.status? node.id ≠ some .pending) :
    ∀ node ∈ earlier.nodes, s.Settled env node := by
  have hlength : s.openStages.length ≤ 1 := by
    rcases openStages_eq_nil_or s with hnil | ⟨stage, -, hstage⟩
    · simp [hnil]
    · simp [hstage]
  have hj : j < past.length + s.openStages.length := by
    by_contra hge
    rw [h.stages, ← List.append_assoc, List.getElem?_append_right (by simpa using hge)] at hlater
    have hfresh := h.ahead node (List.mem_flatMap.mpr ⟨later, List.mem_of_getElem? hlater, hnode⟩)
    exact hbegun (Report.status?_of_record? hfresh.1)
  -- At most one stage is open, so whatever is before it is past.
  rw [h.stages, List.getElem?_append_left (by omega)] at hearlier
  intro other hother
  exact h.past other (List.mem_flatMap.mpr ⟨earlier, List.mem_of_getElem? hearlier, hother⟩)

/-- What a node reads from has been dealt with before anything happens to the node. -/
theorem exists_settled_feeder (hp : plan.Ordered) (h : Coherent env plan limit past s)
    {node : PlannedNode} (hnode : node ∈ plan.nodes)
    (hbegun : s.report.status? node.id ≠ some .pending) {id : NodeId} (hid : id ∈ node.feeders) :
    ∃ feeder ∈ plan.nodes, feeder.id = id ∧ s.Settled env feeder := by
  obtain ⟨stage, hstage, hmem⟩ := List.mem_flatMap.mp hnode
  obtain ⟨before, after, hsplit⟩ := List.append_of_mem hstage
  obtain ⟨feeder, hfeeder, rfl⟩ :=
    List.mem_map.mp (hp.earlier before stage after hsplit node hmem id hid)
  obtain ⟨earlier, hearlier, hfeeder⟩ := List.mem_flatMap.mp hfeeder
  obtain ⟨i, hi⟩ := List.mem_iff_getElem?.mp hearlier
  obtain ⟨hlt, -⟩ := List.getElem?_eq_some_iff.mp hi
  have hi' : plan.stages[i]? = some earlier := by rw [hsplit, List.getElem?_append_left hlt, hi]
  have hj : plan.stages[before.length]? = some stage := by simp [hsplit]
  exact ⟨feeder, List.mem_flatMap.mpr ⟨earlier, List.mem_of_getElem? hi', hfeeder⟩, rfl,
    h.settled_of_begun hi' hj hlt hmem hbegun feeder hfeeder⟩

theorem finished_of_overall (h : Coherent env plan limit past s)
    (hsome : s.report.overall.isSome) : s.phase = .finished := by
  rw [h.overall, ending?] at hsome
  cases hphase : s.phase with
  | finished => rfl
  | _ => simp [hphase] at hsome

theorem snapshot (hp : plan.Ordered) (h : Coherent env plan limit past s) : Snapshot plan s where
  keys := ⟨h.ids_perm, h.ids_perm.nodup_iff.mpr hp.nodup⟩
  barrier i j earlier later hearlier hlater hij hbegun := by
    obtain ⟨node, hnode, hstatus⟩ := hbegun
    exact fun other hother =>
      (h.settled_of_begun hearlier hlater hij hnode hstatus other hother).isSettled
  feeders node hnode hstatus id hid := by
    obtain ⟨inputs, hgather⟩ := (h.standing hp hnode).exists_gather hstatus
    exact Report.status?_of_gather hgather hid
  records id record hrecord := by
    obtain ⟨node, -, rfl, hstanding⟩ := h.standing_of_record? hp hrecord
    obtain ⟨found, hfound, hfits⟩ := hstanding.exists_fits
    obtain rfl := Option.some.inj (hfound.symm.trans hrecord)
    exact hfits
  overall hsome id hid := by
    obtain ⟨node, hnode, rfl⟩ := List.mem_map.mp hid
    exact (h.settled_of_finished (h.finished_of_overall hsome) node hnode).isSettled

end Coherent

/-- Every state of a run shows a consistent report, whenever the run is cancelled. From there on
statuses move on one step at a time, and records with a terminal status stay as they are. -/
theorem snapshot_invariant {g : Graph} (hg : g.Reachable) {plan : Plan} (hplan : g.plan = .ok plan)
    {env : RunSetting} (henv : env.Quiet) {limit : Option Nat} {cancelled : Bool}
    {moves : List Move} {s : RunState}
    (hrun : (RunState.initial env.runId plan limit cancelled).after? env moves = some s) :
    Snapshot plan s ∧
      (∀ m next, s.step env m = some next → ∀ id,
        next.report.status? id = s.report.status? id ∨ ∃ status status',
          s.report.status? id = some status ∧ next.report.status? id = some status' ∧
            status.Next status') ∧
      ∀ later s', s.after? env later = some s' →
        (∀ id status, s.report.status? id = some status → ∃ status',
          s'.report.status? id = some status' ∧ ReflTransGen NodeStatus.Next status status') ∧
        ∀ id, s.report.isSettled id = true → s'.report.record? id = s.report.record? id := by
  have hordered := (Graph.plannedAs_of_plan hg hplan).ordered
  obtain ⟨past, h⟩ := Coherent.run hordered henv hrun
  refine ⟨h.snapshot hordered, ?_, ?_⟩
  · exact fun m next hstep id => (h.changesTo henv hstep id).status?
  · exact fun later s' hlater => ⟨fun id status => h.status?_run hordered henv hlater,
      fun id => h.record?_run hordered henv hlater⟩

/-- One of the two nodes in the middle of the diamond is running, so the node before it has
succeeded and will not change any more. -/
theorem snapshot_invariant_diamond : ∃ s s',
    (RunState.initial "a" Graph.diamondPlan (some 1) false).after? (oneFails "a")
        [.announce, .openStage, .dispatch, .launch ⟨1⟩, .settle ⟨1⟩, .closeStage, .openStage,
          .dispatch, .dispatch, .launch ⟨2⟩] = some s ∧
      s.after? (oneFails "a") [.cancel, .settle ⟨2⟩, .launch ⟨3⟩] = some s' ∧
      s.report.status? ⟨2⟩ = some .running ∧ s.report.status? ⟨1⟩ = some .succeeded ∧
      s'.report.record? ⟨1⟩ = s.report.record? ⟨1⟩ := by
  have hstart : ((RunState.initial "a" Graph.diamondPlan (some 1) false).after? (oneFails "a")
      [.announce, .openStage, .dispatch, .launch ⟨1⟩, .settle ⟨1⟩, .closeStage, .openStage,
        .dispatch, .dispatch, .launch ⟨2⟩]).map
      (fun s => (s.report.status? ⟨2⟩,
        (s.after? (oneFails "a") [.cancel, .settle ⟨2⟩, .launch ⟨3⟩]).isSome)) =
          some (some .running, true) := by
    rw [initial_diamondPlan]
    rfl
  obtain ⟨s, hrun, hstart⟩ := Option.map_eq_some_iff.mp hstart
  obtain ⟨hrunning, hgoes⟩ := Prod.mk.inj hstart
  obtain ⟨s', hlater⟩ := Option.isSome_iff_exists.mp hgoes
  obtain ⟨hsnapshot, -, hkept⟩ :=
    snapshot_invariant Graph.diamond_reachable Graph.plan_diamond (fun _ => rfl) hrun
  have hsucceeded : s.report.status? ⟨1⟩ = some .succeeded :=
    hsnapshot.feeders _ (List.mem_cons_of_mem _ List.mem_cons_self) (.inl hrunning) ⟨1⟩
      (List.mem_singleton_self _)
  refine ⟨s, s', hrun, hlater, hrunning, hsucceeded, (hkept _ s' hlater).2 ⟨1⟩ ?_⟩
  rw [Report.isSettled, hsucceeded]
  rfl

end RunState

end Dataflow
