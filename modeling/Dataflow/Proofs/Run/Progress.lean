import Dataflow.Proofs.Run.Invariance

/-! # Runs come to an end

Every move but a cancellation leaves less to do, and as long as a run is not finished one of them is
possible.
-/

namespace Dataflow

/-- How many moves of its own task a run needs before it is finished. -/
def RunPhase.ahead : RunPhase → Nat
  | .created => 2
  | .between => 1
  | .inStage _ => 2
  | .finished => 0

namespace RunState

/-- A bound on the moves that are left: two for every stage and three for every node. -/
def workLeft (s : RunState) : Nat :=
  s.phase.ahead + 2 * s.upcoming.length + 3 * (s.upcoming.flatMap Stage.nodes).length +
    3 * s.undispatched.length + 2 * s.waiting.length + s.inFlight.length

variable {env : RunSetting} {plan : Plan} {limit : Option Nat} {past : List Stage}
variable {s s' : RunState}

theorem workLeft_initial (runId : String) (plan : Plan) (limit : Option Nat) (cancelled : Bool) :
    (RunState.initial runId plan limit cancelled).workLeft =
      2 + 2 * plan.stages.length + 3 * plan.nodes.length := by
  simp [workLeft, RunState.initial, RunPhase.ahead, Plan.nodes]

namespace Coherent

theorem workLeft_lt (henv : env.Quiet) (h : Coherent env plan limit past s) {m : Move}
    (hm : m ≠ .cancel) (hstep : s.step env m = some s') : s'.workLeft < s.workLeft := by
  cases moves_of_step henv hstep with
  | cancel => exact absurd rfl hm
  | announce hphase =>
      simp only [workLeft, log, hphase, RunPhase.ahead]
      omega
  | openStage hphase hupcoming =>
      obtain ⟨hundispatched, -⟩ := h.idle (by simp [openStages, hphase])
      simp only [workLeft, log, hphase, hupcoming, hundispatched, RunPhase.ahead,
        List.length_cons, List.length_nil, List.flatMap_cons, List.length_append]
      omega
  | skip hundispatched hreason =>
      simp only [workLeft, log, record, hundispatched, List.length_cons]
      omega
  | handOut hundispatched hcancelled hgather =>
      simp only [workLeft, hundispatched, List.length_cons, List.length_append, List.length_nil]
      omega
  | giveUp hwaiting hpermits hcancelled =>
      simp only [workLeft, release, log, record, hwaiting, List.length_cons, List.length_append]
      omega
  | launch hwaiting hpermits hcancelled =>
      simp only [workLeft, log, record, hwaiting, List.length_cons, List.length_append,
        List.length_nil]
      omega
  | settle hinFlight =>
      simp only [workLeft, release, log, record, hinFlight, List.length_cons, List.length_append]
      omega
  | closeStage hphase hundispatched hwaiting hinFlight =>
      rw [h.closeStage_eq hphase hundispatched hwaiting hinFlight]
      simp only [workLeft, hphase, RunPhase.ahead]
      omega
  | finish hphase hupcoming =>
      simp only [workLeft, log, hphase, RunPhase.ahead]
      omega

/-- A run makes no more moves than there is work, cancellations apart. -/
theorem countP_add_workLeft_le (hp : plan.Ordered) (henv : env.Quiet)
    (h : Coherent env plan limit past s) {moves : List Move}
    (hrun : s.after? env moves = some s') :
    moves.countP (· ≠ .cancel) + s'.workLeft ≤ s.workLeft := by
  induction moves generalizing s past with
  | nil =>
      cases hrun
      simp
  | cons m moves ih =>
      obtain ⟨next, hnext, hrest⟩ := after?_cons.mp hrun
      obtain ⟨past, hcoherent⟩ := h.step hp henv hnext
      have hrest := ih hcoherent hrest
      by_cases hm : m = .cancel
      · subst hm
        cases hnext
        rw [List.countP_cons_of_neg (by simp)]
        exact hrest
      · have hlt := h.workLeft_lt henv hm hnext
        rw [List.countP_cons_of_pos (by simpa using hm)]
        omega

theorem length_add_workLeft_le (hp : plan.Ordered) (henv : env.Quiet)
    (h : Coherent env plan limit past s) {moves : List Move} (hmoves : .cancel ∉ moves)
    (hrun : s.after? env moves = some s') : moves.length + s'.workLeft ≤ s.workLeft := by
  have hcount : moves.countP (· ≠ .cancel) = moves.length :=
    List.countP_eq_length.mpr fun m hm => by
      simpa using fun heq : m = .cancel => hmoves (heq ▸ hm)
  rw [← hcount]
  exact h.countP_add_workLeft_le hp henv hrun

/-- A run that is not finished can go on. -/
theorem exists_move (h : Coherent env plan limit past s) (hlimit : limit ≠ some 0)
    (hphase : s.phase ≠ .finished) : ∃ m, m ≠ .cancel ∧ ∃ s', s.step env m = some s' := by
  cases hcase : s.phase with
  | created => exact ⟨.announce, by simp, by simp [RunState.step, hcase]⟩
  | finished => exact absurd hcase hphase
  | between =>
      cases hupcoming : s.upcoming with
      | nil => exact ⟨.finish, by simp, by simp [RunState.step, hcase, hupcoming]⟩
      | cons stage upcoming =>
          exact ⟨.openStage, by simp, by simp [RunState.step, hcase, hupcoming]⟩
  | inStage stage =>
      cases hundispatched : s.undispatched with
      | cons node rest => exact ⟨.dispatch, by simp, by simp [RunState.step, hundispatched]⟩
      | nil =>
          cases hinFlight : s.inFlight with
          | cons r rest => exact ⟨.settle r.nodeId, by simp, by simp [RunState.step, hinFlight]⟩
          | nil =>
              cases hwaiting : s.waiting with
              | nil =>
                  exact ⟨.closeStage, by simp,
                    by simp [RunState.step, hcase, hundispatched, hinFlight, hwaiting]⟩
              | cons t rest =>
                  -- Nobody holds a permit, so all of them are there.
                  have hpermits : s.permits ≠ some 0 := by
                    intro hzero
                    have := h.permits
                    rw [hzero, hinFlight] at this
                    exact hlimit this.symm
                  refine ⟨.launch t.node.id, by simp, ?_⟩
                  simp only [RunState.step, hwaiting, List.find?_cons, decide_true]
                  exact ⟨_, rfl⟩

theorem finished_of_over (h : Coherent env plan limit past s) (hlimit : limit ≠ some 0)
    (hover : s.Over env) : s.phase = .finished := by
  by_contra hphase
  obtain ⟨m, hm, s', hstep⟩ := h.exists_move hlimit hphase
  rw [hover m hm] at hstep
  cases hstep

end Coherent

/-- A run that is finished is over. -/
theorem Coherent.over_of_finished {past : List Stage} (h : Coherent env plan limit past s)
    (hphase : s.phase = .finished) : s.Over env := by
  obtain ⟨hundispatched, hwaiting, hinFlight⟩ := h.idle (by simp [openStages, hphase])
  intro m hm
  cases m with
  | cancel => exact absurd rfl hm
  | launch id =>
      simp only [RunState.step, hwaiting, List.find?_nil]
      split <;> simp_all
  | _ => simp [RunState.step, hphase, hundispatched, hinFlight]

/-- A run that nobody has cancelled and that is over. -/
structure Ended (env : RunSetting) (plan : Plan) (s : RunState) : Prop where
  cancelled : s.cancelled = false
  settled : ∀ node ∈ plan.nodes, s.Settled env node
  ids : s.report.ids = (Report.initial env.runId plan.nodeIds).ids
  overall : s.report.overall = some s.report.conclusion
  calls : ∀ r ∈ s.calls, r.nodeId ∈ plan.nodeIds

namespace Coherent

theorem cancelled_of_step (henv : env.Quiet) (h : Coherent env plan limit past s) {m : Move}
    (hm : m ≠ .cancel) (hstep : s.step env m = some s') : s'.cancelled = s.cancelled := by
  cases moves_of_step henv hstep with
  | cancel => exact absurd rfl hm
  | closeStage hphase hundispatched hwaiting hinFlight =>
      rw [h.closeStage_eq hphase hundispatched hwaiting hinFlight]
  | _ => rfl

/-- Nobody cancels a run but whoever makes that move. -/
theorem uncancelled_run (hp : plan.Ordered) (henv : env.Quiet) {moves : List Move}
    (hmoves : .cancel ∉ moves)
    (hrun : (RunState.initial env.runId plan limit false).after? env moves = some s) :
    (∃ past, Coherent env plan limit past s) ∧ s.cancelled = false := by
  refine (start env plan limit false).preserves hp henv
    (motive := fun s => s.cancelled = false) ?_ hrun rfl
  intro past s m next hm hs hstep hcancelled
  exact (hs.cancelled_of_step henv (fun heq => hmoves (heq ▸ hm)) hstep).trans hcancelled

/-- A finished run has dealt with all its nodes. -/
theorem settled_of_finished (h : Coherent env plan limit past s) (hphase : s.phase = .finished) :
    ∀ node ∈ plan.nodes, s.Settled env node := by
  have hstages : plan.stages = past := by
    rw [h.stages, h.finished hphase, openStages, hphase]
    simp
  intro node hnode
  rw [Plan.nodes, hstages] at hnode
  exact h.past node hnode

theorem overall_of_finished (h : Coherent env plan limit past s) (hphase : s.phase = .finished) :
    s.report.overall = some s.report.conclusion := by
  rw [h.overall, ending?, hphase]

end Coherent

theorem ended_of_over (hp : plan.Ordered) (henv : env.Quiet) (hlimit : limit ≠ some 0)
    {moves : List Move} (hmoves : .cancel ∉ moves)
    (hrun : (RunState.initial env.runId plan limit false).after? env moves = some s)
    (hover : s.Over env) : s.phase = .finished ∧ Ended env plan s := by
  obtain ⟨⟨past, h⟩, hcancelled⟩ := Coherent.uncancelled_run hp henv hmoves hrun
  have hphase := h.finished_of_over hlimit hover
  exact ⟨hphase, hcancelled, h.settled_of_finished hphase, h.ids, h.overall_of_finished hphase,
    h.calls⟩

/-- A node of such a run lacked an input and was skipped, or its only call has ended. -/
theorem Ended.blocked_or_answered (h : Ended env plan s) {planned : PlannedNode}
    (hplanned : planned ∈ plan.nodes) :
    (∃ feeder, s.report.gather planned.inputs = .error feeder ∧
      s.report.record? planned.id = some (NodeRecord.initial.skip (.feederFailed feeder)) ∧
      s.callsOf planned.id = []) ∨
    ∃ t : Task, t.node = planned ∧ s.report.gather planned.inputs = .ok t.inputs ∧
      s.report.record? planned.id = some ((NodeRecord.initial.start t.inputs).answer
        ((env.respond (t.request env.runId)).outcome planned.outputNames)) ∧
      s.callsOf planned.id = [t.request env.runId] := by
  cases h.settled planned hplanned with
  | cancelled hcancelled _ _ =>
      rw [h.cancelled] at hcancelled
      cases hcancelled
  | blocked hgather hrecord hcalls => exact .inl ⟨_, hgather, hrecord, hcalls⟩
  | answered hnode hgather hrecord hcalls => exact .inr ⟨_, hnode, hgather, hrecord, hcalls⟩

/-! ### Runs of a small graph -/

/-- The call of one node fails, and all others give the output that is declared. -/
def oneFails (runId : String) : RunSetting where
  runId := runId
  taskName := "1"
  respond r := if r.nodeId = ⟨2⟩ then .error (.failed "no")
    else .outputs (KeyMap.empty.insert "out" .null)
  refusal? _ := none

theorem initial_diamondPlan (runId : String) (limit : Option Nat) :
    RunState.initial runId Graph.diamondPlan limit false =
      { report := ⟨runId, [⟨1⟩, ⟨2⟩, ⟨3⟩, ⟨4⟩].map fun id => (id, .initial), none⟩
        events := []
        calls := []
        cancelled := false
        permits := limit
        phase := .created
        upcoming := Graph.diamondPlan.stages
        undispatched := []
        waiting := []
        inFlight := [] } := by
  have hsorted : Graph.diamondPlan.nodeIds.mergeSort (fun a b => decide (a.value ≤ b.value)) =
      [⟨1⟩, ⟨2⟩, ⟨3⟩, ⟨4⟩] := by cbv
  rw [RunState.initial, Report.initial, hsorted]

/-- The moves of a run of the diamond in which the two nodes in the middle take turns in some
order. -/
def diamondMoves (middle : List Move) : List Move :=
  [.announce, .openStage, .dispatch, .launch ⟨1⟩, .settle ⟨1⟩, .closeStage, .openStage, .dispatch,
    .dispatch] ++ middle ++ [.closeStage, .openStage, .dispatch, .closeStage, .finish]

end RunState

end Dataflow
