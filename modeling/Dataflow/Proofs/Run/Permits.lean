import Dataflow.Proofs.Run.Progress

/-! # Permits are free or held by calls

A run with a limit has as many permits as calls may be in flight. A task that gets one starts its
call or skips its node, and on every way out it gives the permit back, so that no task waits for a
permit that is lost. None of this depends on the observer, which may refuse whatever it likes.
-/

namespace Dataflow

namespace Report

/-- Nodes with a status are no more than the ids that they are among. -/
theorem count_le {r : Report} (hr : r.ids.Nodup) {status : NodeStatus} {ids : List NodeId}
    (hids : ∀ id, r.status? id = some status → id ∈ ids) : r.count status ≤ ids.length := by
  have hsublist : ((r.records.filter (·.2.status = status)).map Prod.fst).Sublist r.ids :=
    List.filter_sublist.map _
  have hsubset : (r.records.filter (·.2.status = status)).map Prod.fst ⊆ ids := by
    intro id hid
    obtain ⟨⟨_, record⟩, hentry, rfl⟩ := List.mem_map.mp hid
    obtain ⟨hmem, hstatus⟩ := List.mem_filter.mp hentry
    refine hids _ ?_
    rw [status?_of_record? ((record?_eq_some_iff hr).mpr hmem)]
    exact congrArg some (of_decide_eq_true hstatus)
  have hlength := (List.subperm_of_subset (hr.sublist hsublist) hsubset).length_le
  rwa [List.length_map, ← List.countP_eq_length_filter] at hlength

end Report

theorem Plan.id_mem_nodeIds {plan : Plan} {stage : Stage} (hstage : stage ∈ plan.stages)
    {node : PlannedNode} (hnode : node ∈ stage.nodes) : node.id ∈ plan.nodeIds :=
  List.mem_map_of_mem (List.mem_flatMap.mpr ⟨stage, hstage, hnode⟩)

/-- The observer lets calls start. It may refuse everything else. -/
def RunSetting.LetsStart (env : RunSetting) : Prop :=
  ∀ id, env.refusal? (.nodeStarted id) = none

namespace RunState

variable {env : RunSetting} {limit : Option Nat} {s s' : RunState}

/-- A run is created just when its permits can be counted, and then it has not begun. -/
theorem create_eq_ok_iff {runId : String} {plan : Plan} {permits : Option Nat}
    {cancelled : Bool} : create runId plan permits cancelled = .ok s ↔
      (∀ n ∈ permits, n ≤ maxPermits) ∧ s = initial runId plan permits cancelled := by
  have hcounted : permits.all (· ≤ maxPermits) = true ↔ ∀ n ∈ permits, n ≤ maxPermits := by
    cases permits <;> simp
  rw [create, ← hcounted]
  split
  next h => simp [h, eq_comm]
  next h => simp [h]

/-! ### Tasks with a permit -/

/-- A task that has got a permit skips its node, starts its call, or is stopped in between. -/
inductive Launched (env : RunSetting) (s : RunState) (t : Task) : RunState → Prop
  | skipped (hcancelled : s.cancelled = true) : Launched env s t
      (((s.record t.node.id (.skip .cancelledBeforeStart)).log
        (.nodeSkipped t.node.id .cancelledBeforeStart)).release)
  | stopped {message : String} (hrefusal : env.refusal? (.nodeStarted t.node.id) = some message) :
      Launched env s t
        (((s.record t.node.id (.start t.inputs)).log (.nodeStarted t.node.id)).release)
  | called : Launched env s t
      (({ s with
        calls := s.calls ++ [t.request env.runId]
        inFlight := s.inFlight ++ [t.request env.runId] }.record t.node.id (.start t.inputs)).log
          (.nodeStarted t.node.id))

theorem launched (env : RunSetting) (s : RunState) (t : Task) :
    Launched env s t (s.launchTask env t) := by
  unfold launchTask
  split
  next hcancelled => exact .skipped hcancelled
  next =>
    cases hrefusal : env.refusal? (.nodeStarted t.node.id) with
    | some message =>
        simp only [hrefusal]
        exact .stopped hrefusal
    | none =>
        simp only [hrefusal]
        exact .called

/-! ### Permits -/

theorem permits_taken_and_given (hpermits : s.permits ≠ some 0) :
    (s.permits.map (· - 1)).map (· + 1) = s.permits := by
  rw [Option.map_map]
  conv_rhs => rw [← Option.map_id_apply (x := s.permits)]
  refine Option.map_congr fun n hn => ?_
  have : n ≠ 0 := fun hzero => hpermits (hzero ▸ hn)
  rw [Function.comp_apply, id]
  omega

/-- There is no node to hand out, no task that waits and no call that goes on. -/
def Idle (s : RunState) : Prop :=
  s.undispatched = [] ∧ s.waiting = [] ∧ s.inFlight = []

theorem Idle.tell (h : s.Idle) (e : Event) : (s.tell env e).Idle := by
  unfold RunState.tell
  split
  · exact h
  · exact ⟨rfl, rfl, rfl⟩

theorem Idle.failLost (h : s.Idle) (node : PlannedNode) : (RunState.failLost env s node).Idle := by
  unfold RunState.failLost
  split
  · split
    · exact h
    · exact Idle.tell (s := s.record node.id (.fail taskLost)) h _
  · exact h

/-- A permit is free or held by one call in flight, and there are no tasks without an open stage. -/
structure Rationed (limit : Option Nat) (s : RunState) : Prop where
  idle : s.openStages = [] → s.Idle
  permits : s.phase ≠ .finished → s.permits.map (· + s.inFlight.length) = limit

namespace Rationed

theorem start (runId : String) (plan : Plan) (limit : Option Nat) (cancelled : Bool) :
    Rationed limit (.initial runId plan limit cancelled) where
  idle _ := ⟨rfl, rfl, rfl⟩
  permits _ := by simp [RunState.initial]

/-- A run whose own task has panicked has no tasks left. -/
theorem collapse (env : RunSetting) (s : RunState) (message : String) :
    Rationed limit (s.collapse env message) where
  idle _ := ⟨rfl, rfl, rfl⟩
  permits hphase := absurd rfl hphase

theorem tell (h : Rationed limit s) (e : Event) : Rationed limit (s.tell env e) := by
  unfold RunState.tell
  split
  · exact ⟨h.idle, h.permits⟩
  · exact collapse ..

theorem open_of_busy (h : Rationed limit s)
    (hbusy : s.undispatched ≠ [] ∨ s.waiting ≠ [] ∨ s.inFlight ≠ []) : s.openStages ≠ [] := by
  intro hnone
  obtain ⟨hundispatched, hwaiting, hinFlight⟩ := h.idle hnone
  simp [hundispatched, hwaiting, hinFlight] at hbusy

/-- As long as a stage is open, the number of permits is all that matters. -/
theorem of_open (h : Rationed limit s) (hopen : s.openStages ≠ []) (hphase : s'.phase = s.phase)
    (hpermits : s'.permits.map (· + s'.inFlight.length) = s.permits.map (· + s.inFlight.length)) :
    Rationed limit s' := by
  have hopen' : s'.openStages = s.openStages := by rw [openStages, hphase, openStages]
  refine ⟨fun hnone => absurd (hopen' ▸ hnone) hopen, fun _ => hpermits.trans (h.permits ?_)⟩
  intro hfinished
  exact hopen (by rw [openStages, hfinished])

theorem dispatch (h : Rationed limit s) {node : PlannedNode} {rest : List PlannedNode}
    (hundispatched : s.undispatched = node :: rest) :
    Rationed limit ({ s with undispatched := rest }.dispatchNode env node) := by
  have hopen := h.open_of_busy (.inl (hundispatched ▸ List.cons_ne_nil _ _))
  have hskip (reason : NodeFailure) :
      Rationed limit ({ s with undispatched := rest }.skip env node.id reason) := by
    rw [RunState.skip]
    refine tell ?_ _
    exact h.of_open hopen rfl rfl
  unfold dispatchNode
  split
  · exact hskip _
  · split
    · exact h.of_open hopen rfl rfl
    · exact hskip _

/-- A task that has got a permit gives it back unless it starts a call. -/
theorem launch (h : Rationed limit s) {before after : List Task} {t : Task}
    (hwaiting : s.waiting = before ++ t :: after) (hpermits : s.permits ≠ some 0)
    (hlaunched : Launched env
      { s with permits := s.permits.map (· - 1), waiting := before ++ after } t s') :
    Rationed limit s' := by
  have hopen := h.open_of_busy (.inr (.inl (by simp [hwaiting])))
  have hback := permits_taken_and_given hpermits
  cases hlaunched with
  | skipped hcancelled => exact h.of_open hopen rfl (congrArg (Option.map _) hback)
  | stopped hrefusal => exact h.of_open hopen rfl (congrArg (Option.map _) hback)
  | called =>
      refine h.of_open hopen rfl ?_
      conv_rhs => rw [← hback]
      simp only [log, record, List.length_append, List.length_singleton, Option.map_map]
      refine Option.map_congr fun n _ => ?_
      simp only [Function.comp_apply]
      omega

/-- However a call has ended, its permit is given back. -/
theorem settle (h : Rationed limit s) {before after : List Request} {r : Request}
    (hinFlight : s.inFlight = before ++ r :: after) :
    Rationed limit ({ s with inFlight := before ++ after }.settleCall env r) := by
  rw [settleCall_eq]
  refine h.of_open (h.open_of_busy (.inr (.inr (by simp [hinFlight])))) rfl ?_
  simp only [release, log, record, hinFlight, Option.map_map, List.length_append, List.length_cons]
  refine Option.map_congr fun n _ => ?_
  simp only [Function.comp_apply]
  omega

/-- A node whose task has been lost is failed by the run's own task, which holds no permit. -/
theorem failLost (h : Rationed limit s) (node : PlannedNode) :
    Rationed limit (RunState.failLost env s node) := by
  unfold RunState.failLost
  split
  next hphase =>
    split
    · exact h
    · refine tell ?_ _
      exact h.of_open (by simp [openStages, hphase]) rfl rfl
  next => exact h

theorem closeStage (h : Rationed limit s) (hidle : s.Idle) (nodes : List PlannedNode) :
    Rationed limit (nodes.foldl (RunState.failLost env) s).leaveStage := by
  induction nodes generalizing s with
  | nil =>
      rw [List.foldl_nil]
      unfold leaveStage
      split
      next hphase => exact ⟨fun _ => hidle, fun _ => h.permits (by simp [hphase])⟩
      next => exact h
  | cons node nodes ih => exact ih (h.failLost node) (hidle.failLost node)

theorem step (h : Rationed limit s) {m : Move} (hstep : s.step env m = some s') :
    Rationed limit s' := by
  cases advance_of_step hstep with
  | cancel => exact ⟨h.idle, h.permits⟩
  | announce hphase =>
      refine tell ?_ _
      exact ⟨fun _ => h.idle (by simp [openStages, hphase]), fun _ => h.permits (by simp [hphase])⟩
  | openStage hphase hupcoming =>
      refine tell ?_ _
      exact ⟨fun hnone => absurd hnone (by simp [openStages]),
        fun _ => h.permits (by simp [hphase])⟩
  | dispatch hundispatched => exact h.dispatch hundispatched
  | launch hwaiting hpermits => exact h.launch hwaiting hpermits (launched ..)
  | settle hinFlight => exact h.settle hinFlight
  | closeStage hphase hundispatched hwaiting hinFlight =>
      exact h.closeStage ⟨hundispatched, hwaiting, hinFlight⟩ _
  | finish hphase hupcoming =>
      refine tell ?_ _
      exact ⟨fun _ => h.idle (by simp [openStages, hphase]), fun hfinished => absurd rfl hfinished⟩

theorem run {plan : Plan} {cancelled : Bool} {moves : List Move}
    (hrun : (RunState.initial env.runId plan limit cancelled).after? env moves = some s) :
    Rationed limit s :=
  after?_preserves (fun _ _ _ _ hstep h => h.step hstep) hrun (start ..)

theorem permits_eq {n : Nat} (h : Rationed (some n) s) (hphase : s.phase ≠ .finished) :
    s.permits = some (n - s.inFlight.length) := by
  obtain ⟨free, hfree, hsum⟩ := Option.map_eq_some_iff.mp (h.permits hphase)
  rw [hfree, ← hsum, Nat.add_sub_cancel]

theorem length_inFlight_le {n : Nat} (h : Rationed (some n) s) : s.inFlight.length ≤ n := by
  by_cases hphase : s.phase = .finished
  · obtain ⟨-, -, hinFlight⟩ := h.idle (by rw [openStages, hphase])
    simp [hinFlight]
  · obtain ⟨free, -, hsum⟩ := Option.map_eq_some_iff.mp (h.permits hphase)
    omega

/-- Without calls in flight all permits are free. -/
theorem launch_of_waiting (h : Rationed limit s) (hlimit : limit ≠ some 0)
    (hinFlight : s.inFlight = []) {t : Task} (ht : t ∈ s.waiting) :
    ∃ next, s.step env (.launch t.node.id) = some next := by
  have hopen := h.open_of_busy (.inr (.inl (List.ne_nil_of_mem ht)))
  have hpermits : s.permits ≠ some 0 := by
    intro hzero
    have hall := h.permits (fun hphase => hopen (by rw [openStages, hphase]))
    rw [hzero, hinFlight] at hall
    exact hlimit hall.symm
  have hfind : (s.waiting.find? (·.node.id = t.node.id)).isSome :=
    List.find?_isSome.mpr ⟨t, ht, by simp⟩
  obtain ⟨first, hfirst⟩ := Option.isSome_iff_exists.mp hfind
  simp only [RunState.step, hfirst]
  exact ⟨_, rfl⟩

end Rationed

/-- A call in flight can end, and whichever way it does a permit is free again. -/
theorem settle_of_inFlight (s : RunState) (env : RunSetting) {r : Request} (hr : r ∈ s.inFlight) :
    ∃ next, s.step env (.settle r.nodeId) = some next ∧ next.permits = s.permits.map (· + 1) ∧
      next.inFlight.length + 1 = s.inFlight.length := by
  have hfind : (s.inFlight.find? (·.nodeId = r.nodeId)).isSome :=
    List.find?_isSome.mpr ⟨r, hr, by simp⟩
  obtain ⟨first, hfirst⟩ := Option.isSome_iff_exists.mp hfind
  obtain ⟨before, after, hsplit, herase, -⟩ := exists_split_of_find? hfirst
  simp only [RunState.step, hfirst, herase, settleCall_eq]
  refine ⟨_, rfl, rfl, ?_⟩
  simp only [release, log, record, hsplit, List.length_append, List.length_cons]
  omega

/-- A task that gets its permit after the cancellation gives it back at once. -/
theorem permits_of_giveUp {id : NodeId} (hcancelled : s.cancelled = true)
    (hstep : s.step env (.launch id) = some s') :
    s'.permits = s.permits ∧ s'.inFlight = s.inFlight := by
  cases advance_of_step hstep with
  | launch hwaiting hpermits =>
      unfold launchTask
      rw [if_pos hcancelled]
      exact ⟨permits_taken_and_given hpermits, rfl⟩

/-! ### The nodes of the plan -/

/-- The report has one record for every planned node, nobody holds any other node, and a run that is
over has no stages left. -/
structure Covers (plan : Plan) (s : RunState) : Prop where
  ids : s.report.ids.Perm plan.nodeIds
  stages : ∀ stage ∈ s.openStages ++ s.upcoming, stage ∈ plan.stages
  active : s.activeIds ⊆ plan.nodeIds
  finished : s.phase = .finished → s.upcoming = []

section

variable {plan : Plan}

namespace Covers

theorem start (runId : String) (plan : Plan) (limit : Option Nat) (cancelled : Bool) :
    Covers plan (.initial runId plan limit cancelled) where
  ids := Report.ids_initial_perm runId plan.nodeIds
  stages _ hstage := hstage
  active := List.nil_subset _
  finished := nofun

/-- The record of a planned node can change. -/
theorem record (h : Covers plan s) {id : NodeId} (hid : id ∈ plan.nodeIds)
    (change : NodeRecord → NodeRecord) : Covers plan (s.record id change) where
  ids := (Report.ids_update (h.ids.mem_iff.mpr hid) change).symm ▸ h.ids
  stages := h.stages
  active := h.active
  finished := h.finished

/-- Tasks can be dropped, and nodes go from hand to hand. -/
theorem of_subset (h : Covers plan s) (hids : s'.report.ids = s.report.ids)
    (hphase : s'.phase = s.phase) (hupcoming : s'.upcoming = s.upcoming)
    (hactive : s'.activeIds ⊆ s.activeIds) : Covers plan s' where
  ids := hids ▸ h.ids
  stages := by
    rw [openStages, hphase, hupcoming]
    exact h.stages
  active := List.Subset.trans hactive h.active
  finished := hphase ▸ hupcoming ▸ h.finished

theorem tell (h : Covers plan s) (env : RunSetting) (e : Event) : Covers plan (s.tell env e) := by
  unfold RunState.tell
  split
  next => exact h.of_subset rfl rfl rfl (List.Subset.refl _)
  next =>
    exact ⟨(Report.ids_failUnsettled s.report _).symm ▸ h.ids,
      fun _ hstage => absurd hstage List.not_mem_nil, List.nil_subset _, fun _ => rfl⟩

theorem dispatch (h : Covers plan s) (env : RunSetting) {node : PlannedNode}
    {rest : List PlannedNode} (hundispatched : s.undispatched = node :: rest) :
    Covers plan ({ s with undispatched := rest }.dispatchNode env node) := by
  have hactive : s.activeIds = node.id :: heldIds rest s.waiting s.inFlight := by
    rw [activeIds, hundispatched]
    rfl
  have hid : node.id ∈ plan.nodeIds := h.active (hactive ▸ List.mem_cons_self)
  have hdropped : Covers plan { s with undispatched := rest } :=
    h.of_subset rfl rfl rfl (hactive ▸ List.subset_cons_self ..)
  unfold dispatchNode
  split
  next => exact (hdropped.record hid _).tell env _
  next =>
    split
    next inputs _ =>
      refine h.of_subset rfl rfl rfl ?_
      rw [hactive]
      exact (heldIds_concat_task ⟨node, inputs⟩).subset
    next => exact (hdropped.record hid _).tell env _

theorem launch (h : Covers plan s) {before after : List Task} {t : Task}
    (hwaiting : s.waiting = before ++ t :: after) {permits : Option Nat}
    (hlaunched : Launched env { s with permits := permits, waiting := before ++ after } t s') :
    Covers plan s' := by
  have hactive : s.activeIds.Perm
      (t.node.id :: heldIds s.undispatched (before ++ after) s.inFlight) := by
    rw [activeIds, hwaiting]
    exact heldIds_middle_task before after t
  have hid : t.node.id ∈ plan.nodeIds := h.active (hactive.mem_iff.mpr List.mem_cons_self)
  have hdropped : Covers plan { s with permits := permits, waiting := before ++ after } :=
    h.of_subset rfl rfl rfl
      (List.Subset.trans (List.subset_cons_self ..) hactive.symm.subset)
  cases hlaunched with
  | skipped => exact (hdropped.record hid _).of_subset rfl rfl rfl (List.Subset.refl _)
  | stopped => exact (hdropped.record hid _).of_subset rfl rfl rfl (List.Subset.refl _)
  | called =>
      have hcalled : Covers plan { s with
          permits := permits
          waiting := before ++ after
          calls := s.calls ++ [t.request env.runId]
          inFlight := s.inFlight ++ [t.request env.runId] } :=
        h.of_subset rfl rfl rfl
          (List.Subset.trans (heldIds_concat_request _).subset hactive.symm.subset)
      exact (hcalled.record hid _).of_subset rfl rfl rfl (List.Subset.refl _)

theorem settle (h : Covers plan s) (env : RunSetting) {before after : List Request} {r : Request}
    (hinFlight : s.inFlight = before ++ r :: after) :
    Covers plan ({ s with inFlight := before ++ after }.settleCall env r) := by
  have hactive : s.activeIds.Perm
      (r.nodeId :: heldIds s.undispatched s.waiting (before ++ after)) := by
    rw [activeIds, hinFlight]
    exact heldIds_middle_request before after r
  have hdropped : Covers plan { s with inFlight := before ++ after } :=
    h.of_subset rfl rfl rfl
      (List.Subset.trans (List.subset_cons_self ..) hactive.symm.subset)
  rw [settleCall_eq]
  exact (hdropped.record (h.active (hactive.mem_iff.mpr List.mem_cons_self)) _).of_subset
    rfl rfl rfl (List.Subset.refl _)

theorem failLost (h : Covers plan s) (env : RunSetting) {node : PlannedNode}
    (hid : node.id ∈ plan.nodeIds) : Covers plan (RunState.failLost env s node) := by
  unfold RunState.failLost
  split
  next =>
    split
    next => exact h
    next => exact (h.record hid _).tell env _
  next => exact h

theorem leaveStage (h : Covers plan s) : Covers plan s.leaveStage := by
  unfold RunState.leaveStage
  split
  next =>
    exact ⟨h.ids, fun stage hstage => h.stages stage (List.mem_append_right _ hstage), h.active,
      nofun⟩
  next => exact h

theorem step (h : Covers plan s) {m : Move} (hstep : s.step env m = some s') :
    Covers plan s' := by
  cases advance_of_step hstep with
  | cancel => exact h.of_subset rfl rfl rfl (List.Subset.refl _)
  | announce =>
      refine tell ?_ ..
      exact ⟨h.ids, fun stage hstage => h.stages stage (List.mem_append_right _ hstage), h.active,
        nofun⟩
  | @openStage stage upcoming hphase hupcoming =>
      have hstages : ∀ other ∈ stage :: upcoming, other ∈ plan.stages := fun other hother =>
        h.stages other (List.mem_append_right _ (hupcoming ▸ hother))
      refine tell ?_ ..
      refine ⟨h.ids, hstages, fun id hid => ?_, nofun⟩
      rcases List.mem_append.mp hid with hid | hid
      · obtain ⟨node, hnode, rfl⟩ := List.mem_map.mp hid
        exact Plan.id_mem_nodeIds (hstages stage List.mem_cons_self) hnode
      · exact h.active (List.mem_append_right _ hid)
  | dispatch hundispatched => exact h.dispatch env hundispatched
  | launch hwaiting hpermits => exact h.launch hwaiting (launched ..)
  | settle hinFlight => exact h.settle env hinFlight
  | @closeStage stage hphase hundispatched hwaiting hinFlight =>
      -- Nodes whose task was lost are failed one after the other.
      have hstage : stage ∈ plan.stages := h.stages stage (by simp [openStages, hphase])
      refine leaveStage ?_
      exact List.foldlRecOn _ _ h fun s hs node hnode =>
        hs.failLost env (Plan.id_mem_nodeIds hstage hnode)
  | finish hphase hupcoming =>
      refine tell ?_ ..
      exact ⟨h.ids, fun stage hstage => h.stages stage (List.mem_append_right _ hstage), h.active,
        fun _ => hupcoming⟩

theorem run {cancelled : Bool} {moves : List Move}
    (hrun : (RunState.initial env.runId plan limit cancelled).after? env moves = some s) :
    Covers plan s :=
  after?_preserves (fun _ _ _ _ hstep h => h.step hstep) hrun (start ..)

end Covers

end

/-! ### Nodes without a terminal status -/

/-- A node that runs has a call in flight, and what is left of the open stage is in the hands of its
tasks. -/
structure Tended (s : RunState) : Prop where
  running : ∀ id, s.report.status? id = some .running → id ∈ s.inFlight.map Request.nodeId
  active : ∀ stage ∈ s.openStages, ∀ node ∈ stage.nodes,
    s.report.isSettled node.id = true ∨ node.id ∈ s.activeIds

namespace Tended

theorem start (runId : String) (plan : Plan) (limit : Option Nat) (cancelled : Bool) :
    Tended (.initial runId plan limit cancelled) where
  running id hrunning := by
    obtain ⟨record, hrecord, hrunning⟩ := Option.map_eq_some_iff.mp hrunning
    have hid : id ∈ plan.nodeIds :=
      (Report.ids_initial_perm runId plan.nodeIds).mem_iff.mp (Report.mem_ids_of_record? hrecord)
    obtain rfl := Option.some.inj ((Report.record?_initial runId hid).symm.trans hrecord)
    cases hrunning
  active _ hstage := absurd hstage List.not_mem_nil

/-- A run whose own task has panicked leaves no node running. -/
theorem collapse (s : RunState) (env : RunSetting) (message : String) :
    Tended (s.collapse env message) where
  running id hrunning := by
    obtain ⟨record, hrecord, hrunning⟩ := Option.map_eq_some_iff.mp hrunning
    rw [show (s.collapse env message).report.record? id = _ from
      Report.record?_failUnsettled s.report _ id, Option.map_eq_some_iff] at hrecord
    obtain ⟨before, -, rfl⟩ := hrecord
    split at hrunning
    next hterminal =>
      rw [hrunning] at hterminal
      cases hterminal
    next => cases hrunning
  active _ hstage := absurd hstage List.not_mem_nil

theorem tell (h : Tended s) (e : Event) : Tended (s.tell env e) := by
  unfold RunState.tell
  split
  · exact ⟨h.running, h.active⟩
  · exact collapse ..

/-- A node gets a terminal status when its task ends, and otherwise its call is in flight. -/
theorem turn (h : Tended s) (id : NodeId) {change : NodeRecord → NodeRecord}
    (hphase : s'.phase = s.phase) (hreport : s'.report = s.report.update id change)
    (hid : (∀ r, (change r).status.isTerminal = true) ∨ id ∈ s'.inFlight.map Request.nodeId)
    (hinFlight : s.inFlight.map Request.nodeId ⊆ id :: s'.inFlight.map Request.nodeId)
    (hactive : s.activeIds ⊆ id :: s'.activeIds) : Tended s' := by
  -- A node whose task ends can be told by its status alone, whatever its record was.
  have hsettled (hterminal : ∀ r, (change r).status.isTerminal = true) :
      s'.report.isSettled id = true := by
    rw [hreport, Report.isSettled_of_record? (Report.record?_update_self ..)]
    exact hterminal _
  refine ⟨fun other hrunning => ?_, ?_⟩
  · by_cases hother : other = id
    · subst hother
      refine hid.resolve_left fun hterminal => ?_
      have hsettled := hsettled hterminal
      rw [Report.isSettled, hrunning] at hsettled
      cases hsettled
    · rw [hreport, Report.status?, Report.record?_update_of_ne _ hother] at hrunning
      exact (List.mem_cons.mp (hinFlight (h.running other hrunning))).resolve_left hother
  · rw [openStages, hphase]
    intro stage hstage node hnode
    by_cases hnodeId : node.id = id
    · rw [hnodeId]
      refine hid.imp hsettled fun hcalled => ?_
      obtain ⟨r, hr, rfl⟩ := List.mem_map.mp hcalled
      exact request_mem_heldIds hr
    · refine (h.active stage hstage node hnode).imp (fun hsettled => ?_) fun hmem => ?_
      · rwa [hreport, Report.isSettled, Report.status?, Report.record?_update_of_ne _ hnodeId]
      · exact (List.mem_cons.mp (hactive hmem)).resolve_left hnodeId

theorem dispatch (h : Tended s) {node : PlannedNode} {rest : List PlannedNode}
    (hundispatched : s.undispatched = node :: rest) :
    Tended ({ s with undispatched := rest }.dispatchNode env node) := by
  have hskip (reason : NodeFailure) :
      Tended ({ s with undispatched := rest }.skip env node.id reason) := by
    rw [RunState.skip]
    refine tell ?_ _
    refine h.turn node.id rfl rfl (.inl fun _ => rfl) (List.subset_cons_self ..) ?_
    rw [activeIds, hundispatched]
    exact List.Subset.refl _
  unfold dispatchNode
  split
  · exact hskip _
  · split
    next inputs _ =>
      refine ⟨h.running, fun stage hstage other hother => ?_⟩
      refine (h.active stage hstage other hother).imp_right fun hmem => ?_
      rw [activeIds, hundispatched] at hmem
      exact (heldIds_concat_task ⟨node, inputs⟩).mem_iff.mpr hmem
    · exact hskip _

theorem launch (h : Tended s) (hstart : env.LetsStart) {before after : List Task} {t : Task}
    (hwaiting : s.waiting = before ++ t :: after)
    (hlaunched : Launched env
      { s with permits := s.permits.map (· - 1), waiting := before ++ after } t s') :
    Tended s' := by
  have hactive : s.activeIds ⊆
      t.node.id :: heldIds s.undispatched (before ++ after) s.inFlight := by
    rw [activeIds, hwaiting]
    exact (heldIds_middle_task before after t).subset
  cases hlaunched with
  | skipped hcancelled =>
      exact h.turn t.node.id rfl rfl (.inl fun _ => rfl) (List.subset_cons_self ..) hactive
  | stopped hrefusal =>
      rw [hstart] at hrefusal
      cases hrefusal
  | called =>
      refine h.turn t.node.id rfl rfl (.inr ?_) ?_ ?_
      · exact List.mem_map_of_mem (List.mem_append_right _ (List.mem_singleton_self _))
      · simp only [log, record, List.map_append]
        exact fun other hother => List.mem_cons_of_mem _ (List.mem_append_left _ hother)
      · refine List.Subset.trans hactive (List.cons_subset_cons _ fun other hother => ?_)
        exact (heldIds_concat_request _).mem_iff.mpr (List.mem_cons_of_mem _ hother)

theorem settle (h : Tended s) {before after : List Request} {r : Request}
    (hinFlight : s.inFlight = before ++ r :: after) :
    Tended ({ s with inFlight := before ++ after }.settleCall env r) := by
  rw [settleCall_eq]
  refine h.turn r.nodeId rfl rfl (.inl fun record => ?_) ?_ ?_
  · rw [NodeRecord.status_answer]
    split <;> rfl
  · rw [hinFlight]
    exact (List.perm_middle.map Request.nodeId).subset
  · rw [activeIds, hinFlight]
    exact (heldIds_middle_request before after r).subset

theorem failLost (h : Tended s) (node : PlannedNode) :
    Tended (RunState.failLost env s node) := by
  unfold RunState.failLost
  split
  · split
    · exact h
    · refine tell ?_ _
      exact h.turn node.id rfl rfl (.inl fun _ => rfl) (List.subset_cons_self ..)
        (List.subset_cons_self ..)
  · exact h

theorem leaveStage (h : Tended s) : Tended s.leaveStage := by
  unfold RunState.leaveStage
  split
  · exact ⟨h.running, fun _ hstage => absurd hstage List.not_mem_nil⟩
  · exact h

theorem step (h : Tended s) (hstart : env.LetsStart) {m : Move}
    (hstep : s.step env m = some s') : Tended s' := by
  cases advance_of_step hstep with
  | cancel => exact ⟨h.running, h.active⟩
  | announce hphase =>
      refine tell ?_ _
      exact ⟨h.running, fun _ hstage => absurd hstage List.not_mem_nil⟩
  | @openStage stage upcoming hphase hupcoming =>
      refine tell ?_ _
      refine ⟨h.running, fun other hother node hnode => ?_⟩
      obtain rfl := List.mem_singleton.mp hother
      exact .inr (id_mem_heldIds hnode)
  | dispatch hundispatched => exact h.dispatch hundispatched
  | launch hwaiting hpermits => exact h.launch hstart hwaiting (launched ..)
  | settle hinFlight => exact h.settle hinFlight
  | closeStage hphase hundispatched hwaiting hinFlight =>
      refine leaveStage ?_
      exact List.foldlRecOn _ _ h fun s hs node _ => hs.failLost node
  | finish hphase hupcoming =>
      refine tell ?_ _
      exact ⟨h.running, fun _ hstage => absurd hstage List.not_mem_nil⟩

theorem run (hstart : env.LetsStart) {plan : Plan} {cancelled : Bool} {moves : List Move}
    (hrun : (RunState.initial env.runId plan limit cancelled).after? env moves = some s) :
    Tended s :=
  after?_preserves (fun _ _ _ _ hstep h => h.step hstart hstep) hrun (start ..)

/-- No more nodes run than calls are in flight. -/
theorem count_running_le (h : Tended s) (hnodup : s.report.ids.Nodup) :
    s.report.count .running ≤ s.inFlight.length := by
  rw [← List.length_map (f := Request.nodeId)]
  exact Report.count_le hnodup h.running

end Tended

/-! ### Runs with a limit -/

/-- What a limit of `n` calls means in the middle of a run. -/
structure WithinLimit (env : RunSetting) (n : Nat) (s : RunState) : Prop where
  calls : s.inFlight.length ≤ n
  running : env.LetsStart → s.report.count .running ≤ n
  /-- What no call in flight holds is free. -/
  permits : s.phase ≠ .finished → s.permits = some (n - s.inFlight.length)
  /-- A call gives its permit back, with whatever response it ends. -/
  ends : ∀ r ∈ s.inFlight, ∃ next, s.step env (.settle r.nodeId) = some next ∧
    next.permits = s.permits.map (· + 1) ∧ next.inFlight.length + 1 = s.inFlight.length
  /-- A task that waited until the run was cancelled keeps no permit. -/
  givesUp : s.cancelled = true → ∀ id next, s.step env (.launch id) = some next →
    next.permits = s.permits ∧ next.inFlight = s.inFlight
  /-- Where all calls have ended, no task waits in vain. -/
  waiting : s.inFlight = [] → ∀ t ∈ s.waiting,
    ∃ next, s.step env (.launch t.node.id) = some next
  /-- Where all calls have ended, every node that has not been dealt with has a task that can go on,
  or it or another one is still to be handed out. -/
  unsettled : env.LetsStart → s.inFlight = [] → ∀ stage, s.phase = .inStage stage →
    ∀ node ∈ stage.nodes, s.report.isSettled node.id = false →
      (∃ next, s.step env (.launch node.id) = some next) ∨ ∃ next, s.step env .dispatch = some next

theorem exists_dispatch (h : s.undispatched ≠ []) :
    ∃ next, s.step env .dispatch = some next := by
  obtain ⟨node, rest, hundispatched⟩ := List.exists_cons_of_ne_nil h
  simp only [step, hundispatched]
  exact ⟨_, rfl⟩

/-- A node without a terminal status is in the hands of a task, unless its stage is still being
handed out. -/
theorem Tended.exists_move (h : Tended s) (hr : Rationed limit s)
    (hlimit : limit ≠ some 0) (hinFlight : s.inFlight = []) {stage : Stage}
    (hphase : s.phase = .inStage stage) {node : PlannedNode} (hnode : node ∈ stage.nodes)
    (hunsettled : s.report.isSettled node.id = false) :
    (∃ next, s.step env (.launch node.id) = some next) ∨
      ∃ next, s.step env .dispatch = some next := by
  have hopen : stage ∈ s.openStages := by simp [openStages, hphase]
  rcases h.active stage hopen node hnode with hsettled | hactive
  · rw [hsettled] at hunsettled
    cases hunsettled
  · rw [activeIds, heldIds, hinFlight, List.map_nil, List.append_nil] at hactive
    rcases List.mem_append.mp hactive with hundispatched | hwaiting
    · right
      exact exists_dispatch fun hnil => by simp [hnil] at hundispatched
    · left
      obtain ⟨t, ht, hid⟩ := List.mem_map.mp hwaiting
      exact hid ▸ hr.launch_of_waiting hlimit hinFlight ht

/-- Wherever a run with a limit has come to, the limit holds and no permit is lost. -/
theorem within_limit {g : Graph} (hg : g.Reachable) {plan : Plan} (hplan : g.plan = .ok plan)
    {env : RunSetting} {n : Nat} (hn : 1 ≤ n) {cancelled : Bool} {moves : List Move}
    {s : RunState}
    (hrun : (RunState.initial env.runId plan (some n) cancelled).after? env moves = some s) :
    WithinLimit env n s := by
  have hr := Rationed.run hrun
  have hlimit : some n ≠ some 0 := by simpa using Nat.one_le_iff_ne_zero.mp hn
  have hcalls := hr.length_inFlight_le
  have hnodup : s.report.ids.Nodup :=
    (Covers.run hrun).ids.nodup_iff.mpr (Graph.plannedAs_of_plan hg hplan).ordered.nodup
  exact
    { calls := hcalls
      running := fun hstart => ((Tended.run hstart hrun).count_running_le hnodup).trans hcalls
      permits := hr.permits_eq
      ends := fun r hr => s.settle_of_inFlight env hr
      givesUp := fun hcancelled id next hstep => permits_of_giveUp hcancelled hstep
      waiting := fun hinFlight t ht => hr.launch_of_waiting hlimit hinFlight ht
      unsettled := fun hstart hinFlight stage hphase node hnode hunsettled =>
        (Tended.run hstart hrun).exists_move hr hlimit hinFlight hphase hnode hunsettled }

/-- With a limit of one, one of the two nodes in the middle of the diamond runs while the other one
waits, and after the call of the first one the second one has a permit to take. -/
theorem within_limit_diamond : ∃ s s',
    (RunState.initial "a" Graph.diamondPlan (some 1) false).after? (oneFails "a")
        [.announce, .openStage, .dispatch, .launch ⟨1⟩, .settle ⟨1⟩, .closeStage, .openStage,
          .dispatch, .dispatch, .launch ⟨2⟩] = some s ∧
      s.waiting.length = 1 ∧ s.report.count .running ≤ 1 ∧ s.permits = some 0 ∧
      s.step (oneFails "a") (.settle ⟨2⟩) = some s' ∧ s'.permits = some 1 := by
  have hstart : ((RunState.initial "a" Graph.diamondPlan (some 1) false).after? (oneFails "a")
      [.announce, .openStage, .dispatch, .launch ⟨1⟩, .settle ⟨1⟩, .closeStage, .openStage,
        .dispatch, .dispatch, .launch ⟨2⟩]).map
      (fun s => (s.waiting.length, s.inFlight.map Request.nodeId, s.openStages.length)) =
        some (1, [⟨2⟩], 1) := by
    rw [initial_diamondPlan]
    rfl
  obtain ⟨s, hrun, hstart⟩ := Option.map_eq_some_iff.mp hstart
  obtain ⟨hwaiting, hstart⟩ := Prod.mk.inj hstart
  obtain ⟨hinFlight, hopen⟩ := Prod.mk.inj hstart
  have h := within_limit Graph.diamond_reachable Graph.plan_diamond (by decide) hrun
  obtain ⟨r, hr, hid⟩ := List.mem_map.mp (hinFlight ▸ List.mem_singleton_self _)
  obtain ⟨s', hsettle, hfree, -⟩ := h.ends r hr
  have hlength : s.inFlight.length = 1 := by simpa using congrArg List.length hinFlight
  have hpermits := h.permits fun hphase => by simp [openStages, hphase] at hopen
  rw [hlength] at hpermits
  refine ⟨s, s', hrun, hwaiting, h.running fun _ => rfl, hpermits, hid ▸ hsettle, ?_⟩
  rw [hfree, hpermits]
  rfl

end RunState

end Dataflow
