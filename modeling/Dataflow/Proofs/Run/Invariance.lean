import Dataflow.Proofs.Run.Coherence

/-! # Every run is coherent

Each move is either the turn of one node or a move of the whole run, and all of them keep the
invariant.
-/

namespace Dataflow

namespace RunState

variable {env : RunSetting} {plan : Plan} {limit : Option Nat} {past : List Stage}
variable {s s' : RunState}

namespace Coherent

/-! ### Turns -/

theorem turn_of_skip (hp : plan.Ordered) (h : Coherent env plan limit past s) {node : PlannedNode}
    {rest : List PlannedNode} {reason : NodeFailure}
    (hundispatched : s.undispatched = node :: rest) (hreason : s.Unrunnable node reason) :
    s.Turn env (({ s with undispatched := rest }.record node.id (.skip reason)).log
      (.nodeSkipped node.id reason)) node (heldIds rest s.waiting s.inFlight) := by
  obtain ⟨hopened, hrecord, hcalls⟩ := h.undispatched node (hundispatched ▸ List.mem_cons_self)
  generalize hs' : ({ s with undispatched := rest }.record node.id (.skip reason)).log _ = s'
  have hsame : ∀ id, id ≠ node.id → s.SameAt s' id := by
    subst hs'
    exact fun id hid => ⟨Report.record?_update_of_ne _ hid _, rfl⟩
  have hrecord' : s'.report.record? node.id = some (NodeRecord.initial.skip reason) := by
    subst hs'
    exact Report.record?_update_of_record? hrecord _
  have hgather := h.gather_of_ne hp hopened hsame
  have hsettled : s'.Settled env node := by
    cases hreason with
    | cancelled hcancelled =>
        subst hs'
        exact .cancelled hcancelled hrecord' hcalls
    | blocked hcancelled hfeeder =>
        subst hs'
        exact .blocked (hgather.trans hfeeder) hrecord' hcalls
  subst hs'
  exact
    { phase := rfl
      upcoming := rfl
      cancelled := rfl
      ids := Report.ids_update (Report.mem_ids_of_record? hrecord) _
      overall := rfl
      sameAt := hsame
      calls := fun r hr => .inl hr
      permits := rfl
      active := by
        rw [activeIds, hundispatched]
        exact .refl _
      undispatched := fun other hother =>
        ⟨hundispatched ▸ List.mem_cons_of_mem _ hother, id_mem_heldIds hother⟩
      waiting := fun t ht => .inl ⟨ht, task_mem_heldIds ht⟩
      inFlight := fun r hr => .inl ⟨hr, request_mem_heldIds hr⟩
      moved := .inr ⟨.refl _, hsettled⟩ }

theorem turn_of_handOut (h : Coherent env plan limit past s) {node : PlannedNode}
    {rest : List PlannedNode} {inputs : Values} (hundispatched : s.undispatched = node :: rest)
    (hgather : s.report.gather node.inputs = .ok inputs) :
    s.Turn env { s with undispatched := rest, waiting := s.waiting ++ [⟨node, inputs⟩] } node
      (heldIds rest s.waiting s.inFlight) := by
  obtain ⟨-, hfresh⟩ := h.undispatched node (hundispatched ▸ List.mem_cons_self)
  exact
    { phase := rfl
      upcoming := rfl
      cancelled := rfl
      ids := rfl
      overall := rfl
      sameAt := fun _ _ => ⟨rfl, rfl⟩
      calls := fun r hr => .inl hr
      permits := rfl
      active := by
        rw [activeIds, hundispatched]
        exact .refl _
      undispatched := fun other hother =>
        ⟨hundispatched ▸ List.mem_cons_of_mem _ hother, id_mem_heldIds hother⟩
      waiting := by
        intro t ht
        rcases List.mem_append.mp ht with ht | ht
        · exact .inl ⟨ht, task_mem_heldIds ht⟩
        · obtain rfl := List.mem_singleton.mp ht
          exact .inr ⟨rfl, hfresh, hgather⟩
      inFlight := fun r hr => .inl ⟨hr, request_mem_heldIds hr⟩
      moved := .inl ((heldIds_middle_task s.waiting [] _).trans (by rw [List.append_nil])) }

theorem turn_of_giveUp (h : Coherent env plan limit past s) {before after : List Task} {t : Task}
    (hwaiting : s.waiting = before ++ t :: after) (hpermits : s.permits ≠ some 0)
    (hcancelled : s.cancelled = true) :
    s.Turn env (({ s with
        permits := s.permits.map (· - 1)
        waiting := before ++ after }.record t.node.id (.skip .cancelledBeforeStart)).log
          (.nodeSkipped t.node.id .cancelledBeforeStart)).release t.node
      (heldIds s.undispatched (before ++ after) s.inFlight) := by
  obtain ⟨-, ⟨hrecord, hcalls⟩, -⟩ := h.waiting t (by simp [hwaiting])
  exact
    { phase := rfl
      upcoming := rfl
      cancelled := rfl
      ids := Report.ids_update (Report.mem_ids_of_record? hrecord) _
      overall := rfl
      sameAt := fun id hid => ⟨Report.record?_update_of_ne _ hid _, rfl⟩
      calls := fun r hr => .inl hr
      permits := by
        simp only [release, log, record, Option.map_map]
        refine Option.map_congr fun n hn => ?_
        have : n ≠ 0 := fun hzero => hpermits (hzero ▸ hn)
        simp only [Function.comp_apply]
        omega
      active := by
        rw [activeIds, hwaiting]
        exact heldIds_middle_task before after t
      undispatched := fun other hother => ⟨hother, id_mem_heldIds hother⟩
      waiting := fun other hother =>
        .inl ⟨hwaiting ▸ (sublist_middle before after t).subset hother,
          task_mem_heldIds hother⟩
      inFlight := fun r hr => .inl ⟨hr, request_mem_heldIds hr⟩
      moved := .inr ⟨.refl _, .cancelled hcancelled
        (Report.record?_update_of_record? hrecord _) hcalls⟩ }

theorem turn_of_launch (hp : plan.Ordered) (h : Coherent env plan limit past s)
    {before after : List Task} {t : Task} (hwaiting : s.waiting = before ++ t :: after)
    (hpermits : s.permits ≠ some 0) :
    s.Turn env (({ s with
        permits := s.permits.map (· - 1)
        waiting := before ++ after
        calls := s.calls ++ [t.request env.runId]
        inFlight := s.inFlight ++ [t.request env.runId] }.record t.node.id
          (.start t.inputs)).log (.nodeStarted t.node.id)) t.node
      (heldIds s.undispatched (before ++ after) s.inFlight) := by
  obtain ⟨hopened, ⟨hrecord, hcalls⟩, hgather⟩ := h.waiting t (by simp [hwaiting])
  generalize hs' : RunState.log _ (.nodeStarted t.node.id) = s'
  have hsame : ∀ id, id ≠ t.node.id → s.SameAt s' id := by
    subst hs'
    refine fun id hid => ⟨Report.record?_update_of_ne _ hid _, ?_⟩
    simp [callsOf, log, record, Task.request, Ne.symm hid]
  have hgather' := h.gather_of_ne hp hopened hsame
  subst hs'
  exact
    { phase := rfl
      upcoming := rfl
      cancelled := rfl
      ids := Report.ids_update (Report.mem_ids_of_record? hrecord) _
      overall := rfl
      sameAt := hsame
      calls := by
        intro r hr
        rcases List.mem_append.mp hr with hr | hr
        · exact .inl hr
        · exact .inr (List.mem_singleton.mp hr ▸ rfl)
      permits := by
        simp only [log, record, Option.map_map, List.length_append, List.length_singleton]
        refine Option.map_congr fun n hn => ?_
        have : n ≠ 0 := fun hzero => hpermits (hzero ▸ hn)
        simp only [Function.comp_apply]
        omega
      active := by
        rw [activeIds, hwaiting]
        exact heldIds_middle_task before after t
      undispatched := fun other hother => ⟨hother, id_mem_heldIds hother⟩
      waiting := fun other hother =>
        .inl ⟨hwaiting ▸ (sublist_middle before after t).subset hother,
          task_mem_heldIds hother⟩
      inFlight := by
        intro r hr
        rcases List.mem_append.mp hr with hr | hr
        · exact .inl ⟨hr, request_mem_heldIds hr⟩
        · obtain rfl := List.mem_singleton.mp hr
          refine .inr ⟨t, rfl, rfl, ?_, ?_, hgather'.trans hgather⟩
          · exact Report.record?_update_of_record? hrecord _
          · have hcalls : s.calls.filter (·.nodeId = t.node.id) = [] := hcalls
            simp [callsOf, log, record, hcalls, Task.request]
      moved := .inl
        ((heldIds_middle_request s.inFlight [] _).trans (by rw [List.append_nil]; rfl)) }

theorem turn_of_settle (hp : plan.Ordered) (h : Coherent env plan limit past s)
    {before after : List Request} {t : Task}
    (hinFlight : s.inFlight = before ++ t.request env.runId :: after)
    (hopened : t.node ∈ s.openStages.flatMap Stage.nodes) (hcalling : s.Calling env t) :
    s.Turn env (({ s with inFlight := before ++ after }.record t.node.id
      (.answer ((env.respond (t.request env.runId)).outcome t.node.outputNames))).log
        (.answered t.node.id
          ((env.respond (t.request env.runId)).outcome t.node.outputNames))).release t.node
      (heldIds s.undispatched s.waiting (before ++ after)) := by
  obtain ⟨hrecord, hcalls, hgather⟩ := hcalling
  generalize hs' : RunState.release _ = s'
  have hsame : ∀ id, id ≠ t.node.id → s.SameAt s' id := by
    subst hs'
    exact fun id hid => ⟨Report.record?_update_of_ne _ hid _, rfl⟩
  have hgather' := h.gather_of_ne hp hopened hsame
  subst hs'
  exact
    { phase := rfl
      upcoming := rfl
      cancelled := rfl
      ids := Report.ids_update (Report.mem_ids_of_record? hrecord) _
      overall := rfl
      sameAt := hsame
      calls := fun r hr => .inl hr
      permits := by
        simp only [release, log, record, Option.map_map, hinFlight, List.length_append,
          List.length_cons]
        refine Option.map_congr fun n _ => ?_
        simp only [Function.comp_apply]
        omega
      active := by
        rw [activeIds, hinFlight]
        exact heldIds_middle_request before after _
      undispatched := fun other hother => ⟨hother, id_mem_heldIds hother⟩
      waiting := fun other hother => .inl ⟨hother, task_mem_heldIds hother⟩
      inFlight := fun r hr =>
        .inl ⟨hinFlight ▸ (sublist_middle before after _).subset hr,
          request_mem_heldIds hr⟩
      moved := .inr ⟨.refl _, .answered rfl (hgather'.trans hgather)
        (Report.record?_update_of_record? hrecord _) hcalls⟩ }

/-! ### Moves of the whole run -/

theorem cancel (h : Coherent env plan limit past s) :
    Coherent env plan limit past { s with cancelled := true } :=
  have hsettled : ∀ node, s.Settled env node →
      Settled env { s with cancelled := true } node :=
    fun _ hnode => hnode.of_sameAt (fun _ => rfl) ⟨rfl, rfl⟩ fun _ _ => ⟨rfl, rfl⟩
  { h with
    past := fun node hnode => hsettled node (h.past node hnode)
    opened := fun node hnode => (h.opened node hnode).imp_right (hsettled node) }

theorem announce (h : Coherent env plan limit past s) (hphase : s.phase = .created) {e : Event} :
    Coherent env plan limit past ({ s with phase := .between }.log e) := by
  cases s
  cases hphase
  exact
    { h with
      past := fun node hnode =>
        (h.past node hnode).of_sameAt id ⟨rfl, rfl⟩ fun _ _ => ⟨rfl, rfl⟩
      opened := fun node hnode => absurd hnode (by simp [openStages, log])
      finished := by
        intro hphase
        cases hphase }

theorem finish (h : Coherent env plan limit past s) (hphase : s.phase = .between)
    (hupcoming : s.upcoming = []) {e : Event} :
    Coherent env plan limit past
      ({ s with report := s.report.conclude, phase := .finished }.log e) := by
  cases s
  cases hphase
  exact
    { h with
      past := fun node hnode =>
        (h.past node hnode).of_sameAt id ⟨rfl, rfl⟩ fun _ _ => ⟨rfl, rfl⟩
      opened := fun node hnode => absurd hnode (by simp [openStages, log])
      finished := fun _ => hupcoming
      overall := rfl }

theorem openStage (hp : plan.Ordered) (h : Coherent env plan limit past s) {stage : Stage}
    {upcoming : List Stage} (hphase : s.phase = .between)
    (hupcoming : s.upcoming = stage :: upcoming) {e : Event} : Coherent env plan limit past
      ({ s with
          phase := .inStage stage
          upcoming := upcoming
          undispatched := stage.nodes }.log e) := by
  have hnone : s.openStages = [] := by simp [openStages, hphase]
  obtain ⟨-, hwaiting, hinFlight⟩ := h.idle hnone
  have hstages : plan.stages = past ++ stage :: upcoming := by
    rw [h.stages, hnone, hupcoming, List.nil_append]
  have hactive : heldIds stage.nodes s.waiting s.inFlight = stage.nodes.map PlannedNode.id := by
    simp [heldIds, hwaiting, hinFlight]
  have hahead : ∀ node ∈ stage.nodes ++ upcoming.flatMap Stage.nodes, s.Fresh node.id := by
    simpa [hupcoming] using h.ahead
  exact
    { h with
      stages := hstages
      past := fun node hnode =>
        (h.past node hnode).of_sameAt id ⟨rfl, rfl⟩ fun _ _ => ⟨rfl, rfl⟩
      opened := by
        intro node hnode
        rw [openStages, log, List.flatMap_singleton] at hnode
        exact .inl (id_mem_heldIds hnode)
      ahead := fun node hnode => hahead node (List.mem_append_right _ hnode)
      active := by
        have hnodup := hp.nodup
        rw [Plan.nodeIds_eq_append hstages] at hnodup
        rw [activeIds, log, hactive]
        exact (List.nodup_append.mp (List.nodup_append.mp hnodup).2.1).1
      undispatched := by
        intro node hnode
        rw [openStages, log, List.flatMap_singleton]
        exact ⟨hnode, hahead node (List.mem_append_left _ hnode)⟩
      waiting := fun t ht => absurd ht (by simp [log, hwaiting])
      inFlight := fun r hr => absurd hr (by simp [log, hinFlight])
      finished := by
        intro hphase
        cases hphase
      overall := by
        have hoverall := h.overall
        rwa [ending?, hphase] at hoverall }

theorem foldl_failLost {nodes : List PlannedNode}
    (h : ∀ node ∈ nodes, s.report.isSettled node.id = true) :
    nodes.foldl (failLost env) s = s := by
  induction nodes with
  | nil => rfl
  | cons node nodes ih =>
      have hnode : failLost env s node = s := by
        unfold failLost
        rw [if_pos (h node List.mem_cons_self)]
        split <;> rfl
      rw [List.foldl_cons, hnode]
      exact ih fun other hother => h other (List.mem_cons_of_mem _ hother)

/-- No task is lost, so closing a stage only closes it. -/
theorem closeStage_eq (h : Coherent env plan limit past s) {stage : Stage}
    (hphase : s.phase = .inStage stage) (hundispatched : s.undispatched = [])
    (hwaiting : s.waiting = []) (hinFlight : s.inFlight = []) :
    (stage.nodes.foldl (failLost env) s).leaveStage = { s with phase := .between } := by
  have hsettled := h.settled_of_idle hundispatched hwaiting hinFlight
  rw [openStages, hphase, List.flatMap_singleton] at hsettled
  rw [foldl_failLost fun node hnode => (hsettled node hnode).isSettled, leaveStage, hphase]

theorem closeStage (h : Coherent env plan limit past s) {stage : Stage}
    (hphase : s.phase = .inStage stage) (hundispatched : s.undispatched = [])
    (hwaiting : s.waiting = []) (hinFlight : s.inFlight = []) :
    Coherent env plan limit (past ++ [stage]) { s with phase := .between } := by
  have hsettled := h.settled_of_idle hundispatched hwaiting hinFlight
  rw [openStages, hphase, List.flatMap_singleton] at hsettled
  have hkeep : ∀ node, s.Settled env node → Settled env { s with phase := .between } node :=
    fun _ hnode => hnode.of_sameAt id ⟨rfl, rfl⟩ fun _ _ => ⟨rfl, rfl⟩
  -- The stage that was open is the last of the past ones from now on.
  have hstages := h.stages
  rw [openStages, hphase] at hstages
  exact
    { h with
      stages := by
        rw [hstages, List.append_assoc]
        rfl
      past := by
        intro node hnode
        rw [List.flatMap_append, List.flatMap_singleton] at hnode
        rcases List.mem_append.mp hnode with hnode | hnode
        · exact hkeep node (h.past node hnode)
        · exact hkeep node (hsettled node hnode)
      opened := fun node hnode => absurd hnode (by simp [openStages])
      undispatched := fun node hnode => absurd hnode (by simp [hundispatched])
      waiting := fun t ht => absurd ht (by simp [hwaiting])
      inFlight := fun r hr => absurd hr (by simp [hinFlight])
      finished := by
        intro hphase
        cases hphase
      overall := by
        have hoverall := h.overall
        rwa [ending?, hphase] at hoverall }

/-- Every move keeps a run coherent. -/
theorem step (hp : plan.Ordered) (henv : env.Quiet) (h : Coherent env plan limit past s) {m : Move}
    (hstep : s.step env m = some s') : ∃ past, Coherent env plan limit past s' := by
  cases moves_of_step henv hstep with
  | cancel => exact ⟨past, h.cancel⟩
  | announce hphase => exact ⟨past, h.announce hphase⟩
  | openStage hphase hupcoming => exact ⟨past, h.openStage hp hphase hupcoming⟩
  | skip hundispatched hreason =>
      have hopened := (h.undispatched _ (hundispatched ▸ List.mem_cons_self)).1
      exact ⟨past, h.turn hp hopened (h.turn_of_skip hp hundispatched hreason)⟩
  | handOut hundispatched hcancelled hgather =>
      have hopened := (h.undispatched _ (hundispatched ▸ List.mem_cons_self)).1
      exact ⟨past, h.turn hp hopened (h.turn_of_handOut hundispatched hgather)⟩
  | @giveUp before after t hwaiting hpermits hcancelled =>
      have hopened := (h.waiting t (by simp [hwaiting])).1
      exact ⟨past, h.turn hp hopened (h.turn_of_giveUp hwaiting hpermits hcancelled)⟩
  | @launch before after t hwaiting hpermits hcancelled =>
      have hopened := (h.waiting t (by simp [hwaiting])).1
      exact ⟨past, h.turn hp hopened (h.turn_of_launch hp hwaiting hpermits)⟩
  | @settle before after r hinFlight =>
      obtain ⟨t, rfl, hopened, hcalling⟩ := h.inFlight r (by simp [hinFlight])
      exact ⟨past, h.turn hp hopened (h.turn_of_settle hp hinFlight hopened hcalling)⟩
  | closeStage hphase hundispatched hwaiting hinFlight =>
      rw [h.closeStage_eq hphase hundispatched hwaiting hinFlight]
      exact ⟨_, h.closeStage hphase hundispatched hwaiting hinFlight⟩
  | finish hphase hupcoming => exact ⟨past, h.finish hphase hupcoming⟩

/-- What the moves of coherent runs keep is kept by a run, which stays coherent. -/
theorem preserves (hp : plan.Ordered) (henv : env.Quiet) {motive : RunState → Prop}
    {moves : List Move}
    (hmove : ∀ past s m next, m ∈ moves → Coherent env plan limit past s →
      s.step env m = some next → motive s → motive next)
    (h : Coherent env plan limit past s) (hrun : s.after? env moves = some s') (hs : motive s) :
    (∃ past, Coherent env plan limit past s') ∧ motive s' := by
  refine after?_preserves
    (motive := fun s => (∃ past, Coherent env plan limit past s) ∧ motive s)
    (fun s m next hm hstep hs => ?_) hrun ⟨⟨past, h⟩, hs⟩
  obtain ⟨⟨past, hs⟩, hmotive⟩ := hs
  exact ⟨hs.step hp henv hstep, hmove past s m next hm hs hstep hmotive⟩

theorem after (hp : plan.Ordered) (henv : env.Quiet) {moves : List Move}
    (h : Coherent env plan limit past s) (hrun : s.after? env moves = some s') :
    ∃ past, Coherent env plan limit past s' :=
  (h.preserves hp henv (motive := fun _ => True) (fun _ _ _ _ _ _ _ _ => trivial) hrun trivial).1

/-- Every run of a plan is coherent, wherever it has come to. -/
theorem run (hp : plan.Ordered) (henv : env.Quiet) {cancelled : Bool} {moves : List Move}
    (h : (RunState.initial env.runId plan limit cancelled).after? env moves = some s) :
    ∃ past, Coherent env plan limit past s :=
  (start env plan limit cancelled).after hp henv h

end Coherent

end RunState

end Dataflow
