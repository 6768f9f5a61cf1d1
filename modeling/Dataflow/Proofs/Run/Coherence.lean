import Dataflow.Proofs.Run.Standing

/-! # The invariant of a run

Behind the open stage every node has been dealt with for good, and ahead of it nothing has happened.
In the open stage a node is either in the hands of one task, or it has been dealt with. Since a node
reads from earlier stages only, what it is called with cannot change any more.
-/

namespace Dataflow

namespace RunState

/-- The overall status once a run is finished. -/
def ending? (s : RunState) : Option OverallStatus :=
  match s.phase with
  | .finished => some s.report.conclusion
  | _ => none

/-- The state of a run of a plan in which some stages are past. -/
structure Coherent (env : RunSetting) (plan : Plan) (limit : Option Nat) (past : List Stage)
    (s : RunState) : Prop where
  stages : plan.stages = past ++ (s.openStages ++ s.upcoming)
  past : ∀ node ∈ past.flatMap Stage.nodes, s.Settled env node
  opened : ∀ node ∈ s.openStages.flatMap Stage.nodes,
    node.id ∈ s.activeIds ∨ s.Settled env node
  ahead : ∀ node ∈ s.upcoming.flatMap Stage.nodes, s.Fresh node.id
  active : s.activeIds.Nodup
  undispatched : ∀ node ∈ s.undispatched,
    node ∈ s.openStages.flatMap Stage.nodes ∧ s.Fresh node.id
  waiting : ∀ t ∈ s.waiting, t.node ∈ s.openStages.flatMap Stage.nodes ∧ s.Ready t
  inFlight : ∀ r ∈ s.inFlight, ∃ t : Task, r = t.request env.runId ∧
    t.node ∈ s.openStages.flatMap Stage.nodes ∧ s.Calling env t
  finished : s.phase = .finished → s.upcoming = []
  ids : s.report.ids = (Report.initial env.runId plan.nodeIds).ids
  overall : s.report.overall = s.ending?
  calls : ∀ r ∈ s.calls, r.nodeId ∈ plan.nodeIds
  permits : s.permits.map (· + s.inFlight.length) = limit

/-- A move that concerns one node of the open stage. It takes the node out of the hands of one task,
either into those of another one or for good; `others` are the nodes that stay where they are. -/
structure Turn (env : RunSetting) (s s' : RunState) (node : PlannedNode) (others : List NodeId) :
    Prop where
  phase : s'.phase = s.phase
  upcoming : s'.upcoming = s.upcoming
  cancelled : s'.cancelled = s.cancelled
  ids : s'.report.ids = s.report.ids
  overall : s'.report.overall = s.report.overall
  sameAt : ∀ id, id ≠ node.id → s.SameAt s' id
  calls : ∀ r ∈ s'.calls, r ∈ s.calls ∨ r.nodeId = node.id
  permits : s'.permits.map (· + s'.inFlight.length) = s.permits.map (· + s.inFlight.length)
  active : s.activeIds.Perm (node.id :: others)
  undispatched : ∀ other ∈ s'.undispatched, other ∈ s.undispatched ∧ other.id ∈ others
  waiting : ∀ t ∈ s'.waiting,
    t ∈ s.waiting ∧ t.node.id ∈ others ∨ t.node = node ∧ s'.Ready t
  inFlight : ∀ r ∈ s'.inFlight, r ∈ s.inFlight ∧ r.nodeId ∈ others ∨
    ∃ t : Task, r = t.request env.runId ∧ t.node = node ∧ s'.Calling env t
  moved : s'.activeIds.Perm (node.id :: others) ∨
    s'.activeIds.Perm others ∧ s'.Settled env node

section

variable {env : RunSetting} {plan : Plan} {limit : Option Nat} {past : List Stage}
variable {s s' : RunState}

theorem openStages_eq_nil_or (s : RunState) :
    s.openStages = [] ∨ ∃ stage, s.phase = .inStage stage ∧ s.openStages = [stage] := by
  unfold openStages
  cases s.phase with
  | inStage stage => exact .inr ⟨stage, rfl, rfl⟩
  | created => exact .inl rfl
  | between => exact .inl rfl
  | finished => exact .inl rfl

theorem Turn.openStages {node : PlannedNode} {others : List NodeId}
    (ht : s.Turn env s' node others) : s'.openStages = s.openStages := by
  unfold RunState.openStages
  rw [ht.phase]

namespace Coherent

theorem start (env : RunSetting) (plan : Plan) (limit : Option Nat) (cancelled : Bool) :
    Coherent env plan limit [] (.initial env.runId plan limit cancelled) where
  stages := rfl
  past node hnode := absurd hnode (by simp)
  opened node hnode := absurd hnode (by simp [openStages, RunState.initial])
  ahead node hnode := ⟨Report.record?_initial _ (List.mem_map_of_mem hnode), rfl⟩
  active := List.nodup_nil
  undispatched node hnode := absurd hnode (by simp [RunState.initial])
  waiting t ht := absurd ht (by simp [RunState.initial])
  inFlight r hr := absurd hr (by simp [RunState.initial])
  finished hphase := by cases hphase
  ids := rfl
  overall := rfl
  calls r hr := absurd hr (by simp [RunState.initial])
  permits := by simp [RunState.initial]

theorem mem_nodes_of_opened (h : Coherent env plan limit past s) {node : PlannedNode}
    (hnode : node ∈ s.openStages.flatMap Stage.nodes) : node ∈ plan.nodes := by
  rw [Plan.nodes, h.stages, List.flatMap_append, List.flatMap_append]
  exact List.mem_append_right _ (List.mem_append_left _ hnode)

/-- Nothing but a node of the open stage itself depends on what happens to it. -/
theorem sameAt_of_ne (hp : plan.Ordered) (h : Coherent env plan limit past s) {node : PlannedNode}
    (hnode : node ∈ s.openStages.flatMap Stage.nodes)
    (hsame : ∀ id, id ≠ node.id → s.SameAt s' id) :
    (∀ other ∈ past.flatMap Stage.nodes, s.SameAt s' other.id) ∧
      (∀ other ∈ s.upcoming.flatMap Stage.nodes, s.SameAt s' other.id) ∧
      ∀ other ∈ past.flatMap Stage.nodes ++ s.openStages.flatMap Stage.nodes,
        ∀ id ∈ other.feeders, s.SameAt s' id := by
  obtain hnil | ⟨stage, -, hstage⟩ := openStages_eq_nil_or s
  · simp [hnil] at hnode
  · have hsplit := h.stages
    rw [hstage, List.singleton_append] at hsplit
    rw [hstage, List.flatMap_singleton] at hnode ⊢
    -- The ids before, in and after the open stage are distinct, and feeders are before it.
    have hnodup := hp.nodup
    rw [Plan.nodeIds_eq_append hsplit, List.nodup_append, List.nodup_append] at hnodup
    obtain ⟨-, ⟨-, -, hafter⟩, hbefore⟩ := hnodup
    have hid := List.mem_map_of_mem (f := PlannedNode.id) hnode
    refine ⟨fun other hother => hsame _ ?_, fun other hother => hsame _ ?_,
      fun other hother id hfeeder => hsame _ ?_⟩
    · exact hbefore _ (List.mem_map_of_mem hother) _ (List.mem_append_left _ hid)
    · exact (hafter _ hid _ (List.mem_map_of_mem hother)).symm
    · exact hbefore _ (hp.feeder_mem_before hsplit hother hfeeder) _ (List.mem_append_left _ hid)

theorem gather_of_ne (hp : plan.Ordered) (h : Coherent env plan limit past s) {node : PlannedNode}
    (hnode : node ∈ s.openStages.flatMap Stage.nodes)
    (hsame : ∀ id, id ≠ node.id → s.SameAt s' id) :
    s'.report.gather node.inputs = s.report.gather node.inputs :=
  SameAt.gather ((h.sameAt_of_ne hp hnode hsame).2.2 node (List.mem_append_right _ hnode))

/-- The turn of one node keeps a run coherent. -/
theorem turn (hp : plan.Ordered) (h : Coherent env plan limit past s) {node : PlannedNode}
    {others : List NodeId} (hnode : node ∈ s.openStages.flatMap Stage.nodes)
    (ht : s.Turn env s' node others) : Coherent env plan limit past s' := by
  obtain ⟨hpast, hahead, hfeeders⟩ := h.sameAt_of_ne hp hnode ht.sameAt
  have hcancelled : s.cancelled = true → s'.cancelled = true := fun hc => ht.cancelled.trans hc
  have hactive : s.activeIds.Nodup := h.active
  rw [ht.active.nodup_iff, List.nodup_cons] at hactive
  obtain ⟨hnew, hothers⟩ := hactive
  have hne : ∀ id ∈ others, id ≠ node.id := fun id hid heq => hnew (heq ▸ hid)
  have hopen := ht.openStages
  constructor
  · rw [h.stages, hopen, ht.upcoming]
  · intro other hother
    exact (h.past other hother).of_sameAt hcancelled (hpast other hother)
      (hfeeders other (List.mem_append_left _ hother))
  · intro other hother
    rw [hopen] at hother
    by_cases hid : other.id = node.id
    -- There is only one planned node of an id.
    · obtain rfl := List.inj_on_of_nodup_map hp.nodup (h.mem_nodes_of_opened hother)
        (h.mem_nodes_of_opened hnode) hid
      rcases ht.moved with hmoved | ⟨-, hsettled⟩
      · exact .inl (hmoved.mem_iff.mpr List.mem_cons_self)
      · exact .inr hsettled
    · rcases h.opened other hother with hmem | hsettled
      · have hmem := List.mem_of_ne_of_mem hid (ht.active.mem_iff.mp hmem)
        rcases ht.moved with hmoved | ⟨hmoved, -⟩
        · exact .inl (hmoved.mem_iff.mpr (List.mem_cons_of_mem _ hmem))
        · exact .inl (hmoved.mem_iff.mpr hmem)
      · exact .inr (hsettled.of_sameAt hcancelled (ht.sameAt _ hid)
          (hfeeders other (List.mem_append_right _ hother)))
  · intro other hother
    rw [ht.upcoming] at hother
    exact (h.ahead other hother).of_sameAt (hahead other hother)
  · rcases ht.moved with hmoved | ⟨hmoved, -⟩
    · exact hmoved.nodup_iff.mpr (List.nodup_cons.mpr ⟨hnew, hothers⟩)
    · exact hmoved.nodup_iff.mpr hothers
  · intro other hother
    obtain ⟨hmem, hid⟩ := ht.undispatched other hother
    obtain ⟨hopened, hfresh⟩ := h.undispatched other hmem
    exact ⟨hopen ▸ hopened, hfresh.of_sameAt (ht.sameAt _ (hne _ hid))⟩
  · intro t htask
    rcases ht.waiting t htask with ⟨hmem, hid⟩ | ⟨rfl, hready⟩
    · obtain ⟨hopened, hready⟩ := h.waiting t hmem
      exact ⟨hopen ▸ hopened, hready.of_sameAt (ht.sameAt _ (hne _ hid))
        (hfeeders _ (List.mem_append_right _ hopened))⟩
    · exact ⟨hopen ▸ hnode, hready⟩
  · intro r hr
    rcases ht.inFlight r hr with ⟨hmem, hid⟩ | ⟨t, rfl, rfl, hcalling⟩
    · obtain ⟨t, rfl, hopened, hcalling⟩ := h.inFlight r hmem
      exact ⟨t, rfl, hopen ▸ hopened, hcalling.of_sameAt (ht.sameAt _ (hne _ hid))
        (hfeeders _ (List.mem_append_right _ hopened))⟩
    · exact ⟨t, rfl, hopen ▸ hnode, hcalling⟩
  · intro hphase
    exact ht.upcoming.trans (h.finished (ht.phase.symm.trans hphase))
  · exact ht.ids.trans h.ids
  · have hoverall := h.overall
    unfold ending? at hoverall ⊢
    rw [ht.overall, ht.phase]
    unfold RunState.openStages at hnode
    cases hphase : s.phase with
    | finished => simp [hphase] at hnode
    | _ => simpa [hphase] using hoverall
  · intro r hr
    rcases ht.calls r hr with hr | hr
    · exact h.calls r hr
    · exact hr ▸ List.mem_map_of_mem (h.mem_nodes_of_opened hnode)
  · exact ht.permits.trans h.permits

/-- Between stages no task is left. -/
theorem idle (h : Coherent env plan limit past s) (hnone : s.openStages = []) :
    s.undispatched = [] ∧ s.waiting = [] ∧ s.inFlight = [] := by
  refine ⟨List.eq_nil_iff_forall_not_mem.mpr fun node hnode => ?_,
    List.eq_nil_iff_forall_not_mem.mpr fun t ht => ?_,
    List.eq_nil_iff_forall_not_mem.mpr fun r hr => ?_⟩
  · have := (h.undispatched node hnode).1
    simp [hnone] at this
  · have := (h.waiting t ht).1
    simp [hnone] at this
  · obtain ⟨t, -, hopened, -⟩ := h.inFlight r hr
    simp [hnone] at hopened

/-- A stage whose tasks have all ended has been dealt with. -/
theorem settled_of_idle (h : Coherent env plan limit past s) (hundispatched : s.undispatched = [])
    (hwaiting : s.waiting = []) (hinFlight : s.inFlight = []) :
    ∀ node ∈ s.openStages.flatMap Stage.nodes, s.Settled env node := by
  intro node hnode
  rcases h.opened node hnode with hactive | hsettled
  · simp [activeIds, heldIds, hundispatched, hwaiting, hinFlight] at hactive
  · exact hsettled

end Coherent

end

end RunState

end Dataflow
