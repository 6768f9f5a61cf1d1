import Dataflow.Proofs.Run.Records

/-! # The moves of a run

What can happen next in a run depends on the state, and what comes of it also on what the observer
says, which `RunState.advance_of_step` leaves open. An observer that refuses nothing has no say.
Then every move is one of a few changes to the state, and `RunState.moves_of_step` says which.
-/

namespace Dataflow

/-- The observer refuses no event: it hands it off and returns. -/
def RunSetting.Quiet (env : RunSetting) : Prop :=
  ∀ e, env.refusal? e = none

/-- What the observer is told when a call has ended. -/
def Event.answered (id : NodeId) (outcome : Except NodeFailure Values) : Event :=
  match outcome with
  | .ok outputs => .nodeSucceeded id outputs
  | .error failure => .nodeFailed id failure

namespace RunState

/-! ### Runs -/

/-- The state after some moves, if all of them are possible one after the other. -/
def after? (env : RunSetting) (s : RunState) : List Move → Option RunState
  | [] => some s
  | m :: moves => (s.step env m).bind fun next => next.after? env moves

/-- Nothing but a cancellation is possible any more. -/
def Over (env : RunSetting) (s : RunState) : Prop :=
  ∀ m, m ≠ .cancel → s.step env m = none

theorem after?_cons {env : RunSetting} {s last : RunState} {m : Move} {moves : List Move} :
    s.after? env (m :: moves) = some last ↔
      ∃ next, s.step env m = some next ∧ next.after? env moves = some last := by
  rw [after?, Option.bind_eq_some_iff]

/-- What every move keeps is kept by all of them. -/
theorem after?_preserves {env : RunSetting} {motive : RunState → Prop} {moves : List Move}
    (hstep : ∀ s m next, m ∈ moves → s.step env m = some next → motive s → motive next)
    {s last : RunState} (h : s.after? env moves = some last) (hs : motive s) : motive last := by
  induction moves generalizing s with
  | nil => exact Option.some.inj h ▸ hs
  | cons m moves ih =>
      obtain ⟨next, hnext, hrest⟩ := after?_cons.mp h
      refine ih (fun s m' next hm' => hstep s m' next (List.mem_cons_of_mem _ hm')) hrest ?_
      exact hstep s m next List.mem_cons_self hnext hs

/-! ### Single moves -/

/-- The moves that are possible in a state, with the states that they lead to. -/
inductive Advance (env : RunSetting) (s : RunState) : Move → RunState → Prop
  | cancel : Advance env s .cancel { s with cancelled := true }
  | announce (hphase : s.phase = .created) :
      Advance env s .announce ({ s with phase := .between }.tell env
        (.runStarted s.report.records.length s.upcoming.length))
  | openStage {stage : Stage} {upcoming : List Stage} (hphase : s.phase = .between)
      (hupcoming : s.upcoming = stage :: upcoming) :
      Advance env s .openStage
        ({ s with
            phase := .inStage stage
            upcoming := upcoming
            undispatched := stage.nodes }.tell env (.stageStarted stage.index))
  | dispatch {node : PlannedNode} {rest : List PlannedNode}
      (hundispatched : s.undispatched = node :: rest) :
      Advance env s .dispatch ({ s with undispatched := rest }.dispatchNode env node)
  | launch {before after : List Task} {t : Task} (hwaiting : s.waiting = before ++ t :: after)
      (hpermits : s.permits ≠ some 0) :
      Advance env s (.launch t.node.id)
        ({ s with
            permits := s.permits.map (· - 1)
            waiting := before ++ after }.launchTask env t)
  | settle {before after : List Request} {r : Request}
      (hinFlight : s.inFlight = before ++ r :: after) :
      Advance env s (.settle r.nodeId)
        ({ s with inFlight := before ++ after }.settleCall env r)
  | closeStage {stage : Stage} (hphase : s.phase = .inStage stage)
      (hundispatched : s.undispatched = []) (hwaiting : s.waiting = [])
      (hinFlight : s.inFlight = []) :
      Advance env s .closeStage (stage.nodes.foldl (failLost env) s).leaveStage
  | finish (hphase : s.phase = .between) (hupcoming : s.upcoming = []) :
      Advance env s .finish ({ s with report := s.report.conclude, phase := .finished }.tell env
        (.runFinished s.report.conclusion))

/-- Why a node is skipped when its turn to be handed out has come. -/
inductive Unrunnable (s : RunState) (node : PlannedNode) : NodeFailure → Prop
  | cancelled (hcancelled : s.cancelled = true) : Unrunnable s node .cancelledBeforeStart
  | blocked {feeder : NodeId} (hcancelled : s.cancelled = false)
      (hgather : s.report.gather node.inputs = .error feeder) :
      Unrunnable s node (.feederFailed feeder)

/-- The moves of a run whose observer refuses nothing, with the states that they lead to. -/
inductive Moves (env : RunSetting) (s : RunState) : Move → RunState → Prop
  | cancel : Moves env s .cancel { s with cancelled := true }
  | announce (hphase : s.phase = .created) :
      Moves env s .announce ({ s with phase := .between }.log
        (.runStarted s.report.records.length s.upcoming.length))
  | openStage {stage : Stage} {upcoming : List Stage} (hphase : s.phase = .between)
      (hupcoming : s.upcoming = stage :: upcoming) :
      Moves env s .openStage
        ({ s with
            phase := .inStage stage
            upcoming := upcoming
            undispatched := stage.nodes }.log (.stageStarted stage.index))
  | skip {node : PlannedNode} {rest : List PlannedNode} {reason : NodeFailure}
      (hundispatched : s.undispatched = node :: rest) (hreason : s.Unrunnable node reason) :
      Moves env s .dispatch (({ s with undispatched := rest }.record node.id (.skip reason)).log
        (.nodeSkipped node.id reason))
  | handOut {node : PlannedNode} {rest : List PlannedNode} {inputs : Values}
      (hundispatched : s.undispatched = node :: rest) (hcancelled : s.cancelled = false)
      (hgather : s.report.gather node.inputs = .ok inputs) :
      Moves env s .dispatch
        { s with undispatched := rest, waiting := s.waiting ++ [⟨node, inputs⟩] }
  | giveUp {before after : List Task} {t : Task} (hwaiting : s.waiting = before ++ t :: after)
      (hpermits : s.permits ≠ some 0) (hcancelled : s.cancelled = true) :
      Moves env s (.launch t.node.id)
        (({ s with
            permits := s.permits.map (· - 1)
            waiting := before ++ after }.record t.node.id (.skip .cancelledBeforeStart)).log
              (.nodeSkipped t.node.id .cancelledBeforeStart)).release
  | launch {before after : List Task} {t : Task} (hwaiting : s.waiting = before ++ t :: after)
      (hpermits : s.permits ≠ some 0) (hcancelled : s.cancelled = false) :
      Moves env s (.launch t.node.id)
        (({ s with
            permits := s.permits.map (· - 1)
            waiting := before ++ after
            calls := s.calls ++ [t.request env.runId]
            inFlight := s.inFlight ++ [t.request env.runId] }.record t.node.id
              (.start t.inputs)).log (.nodeStarted t.node.id))
  | settle {before after : List Request} {r : Request}
      (hinFlight : s.inFlight = before ++ r :: after) :
      Moves env s (.settle r.nodeId)
        (({ s with inFlight := before ++ after }.record r.nodeId
          (.answer ((env.respond r).outcome r.outputNames))).log
            (.answered r.nodeId ((env.respond r).outcome r.outputNames))).release
  | closeStage {stage : Stage} (hphase : s.phase = .inStage stage)
      (hundispatched : s.undispatched = []) (hwaiting : s.waiting = [])
      (hinFlight : s.inFlight = []) :
      Moves env s .closeStage (stage.nodes.foldl (failLost env) s).leaveStage
  | finish (hphase : s.phase = .between) (hupcoming : s.upcoming = []) :
      Moves env s .finish ({ s with report := s.report.conclude, phase := .finished }.log
        (.runFinished s.report.conclusion))

variable {env : RunSetting} {s next : RunState} {m : Move}

theorem tell_of_quiet (henv : env.Quiet) (s : RunState) (e : Event) : s.tell env e = s.log e := by
  rw [tell, henv e]

theorem settleCall_eq (s : RunState) (env : RunSetting) (r : Request) :
    s.settleCall env r =
      ((s.record r.nodeId (.answer ((env.respond r).outcome r.outputNames))).log
        (.answered r.nodeId ((env.respond r).outcome r.outputNames))).release := by
  unfold settleCall
  cases (env.respond r).outcome r.outputNames <;> rfl

theorem exists_split_of_find? {α : Type} {p : α → Bool} {as : List α} {a : α}
    (h : as.find? p = some a) :
    ∃ before after, as = before ++ a :: after ∧ as.eraseP p = before ++ after ∧ p a = true := by
  obtain ⟨ha, before, after, rfl, hbefore⟩ := List.find?_eq_some_iff_append.mp h
  refine ⟨before, after, rfl, ?_, ha⟩
  rw [List.eraseP_append_right _ (by simpa using hbefore), List.eraseP_cons_of_pos ha]

theorem advance_of_step (h : s.step env m = some next) : s.Advance env m next := by
  cases m with
  | cancel =>
      cases h
      exact .cancel
  | announce =>
      simp only [step] at h
      split at h
      next hphase =>
        cases h
        exact .announce hphase
      next => cases h
  | openStage =>
      simp only [step] at h
      split at h
      next hphase hupcoming =>
        cases h
        exact .openStage hphase hupcoming
      next => cases h
  | dispatch =>
      simp only [step] at h
      split at h
      next hundispatched =>
        cases h
        exact .dispatch hundispatched
      next => cases h
  | launch id =>
      simp only [step] at h
      split at h
      next => cases h
      next => cases h
      next t ht hpermits =>
        -- The first task of the node leaves the queue from where it stands.
        obtain ⟨before, after, hwaiting, herase, hid⟩ := exists_split_of_find? ht
        obtain rfl : t.node.id = id := by simpa using hid
        cases h
        rw [herase]
        exact .launch hwaiting hpermits
  | settle id =>
      simp only [step] at h
      split at h
      next => cases h
      next r hr =>
        obtain ⟨before, after, hinFlight, herase, hid⟩ := exists_split_of_find? hr
        obtain rfl : r.nodeId = id := by simpa using hid
        cases h
        rw [herase]
        exact .settle hinFlight
  | closeStage =>
      simp only [step] at h
      split at h
      next hphase hundispatched hwaiting hinFlight =>
        cases h
        exact .closeStage hphase hundispatched hwaiting hinFlight
      next => cases h
  | finish =>
      simp only [step] at h
      split at h
      next hphase hupcoming =>
        cases h
        exact .finish hphase hupcoming
      next => cases h

/-- What a move does when the observer refuses nothing. -/
theorem moves_of_step (henv : env.Quiet) (h : s.step env m = some next) : s.Moves env m next := by
  cases advance_of_step h with
  | cancel => exact .cancel
  | announce hphase =>
      rw [tell_of_quiet henv]
      exact .announce hphase
  | openStage hphase hupcoming =>
      rw [tell_of_quiet henv]
      exact .openStage hphase hupcoming
  | dispatch hundispatched =>
      unfold dispatchNode
      split
      next hcancelled =>
        rw [skip, tell_of_quiet henv]
        exact .skip hundispatched (.cancelled hcancelled)
      next hcancelled =>
        have hcancelled : s.cancelled = false := by simpa using hcancelled
        split
        next inputs hgather => exact .handOut hundispatched hcancelled hgather
        next feeder hgather =>
          rw [skip, tell_of_quiet henv]
          exact .skip hundispatched (.blocked hcancelled hgather)
  | launch hwaiting hpermits =>
      rw [launchTask]
      split
      next hcancelled => exact .giveUp hwaiting hpermits hcancelled
      next hcancelled =>
        rw [henv]
        exact .launch hwaiting hpermits (by simpa using hcancelled)
  | settle hinFlight =>
      rw [settleCall_eq]
      exact .settle hinFlight
  | closeStage hphase hundispatched hwaiting hinFlight =>
      exact .closeStage hphase hundispatched hwaiting hinFlight
  | finish hphase hupcoming =>
      rw [tell_of_quiet henv]
      exact .finish hphase hupcoming

end RunState

end Dataflow
