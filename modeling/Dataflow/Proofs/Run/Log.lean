import Dataflow.Proofs.Planning
import Dataflow.Proofs.Run.Snapshots

/-! # What the observer is told

The events of a run are a log of it. Every change of a record is told once, when it is made, so the
events of a node say what its record says. A stage is open while its nodes are dealt with, so their
events stand between the start of the stage and the start of the next one.
-/

namespace Dataflow

/-- Whether an event is about a node of a stage. -/
def Event.concerns (stage : Stage) (e : Event) : Bool :=
  e.node?.any (stage.nodeIds.contains ·)

/-- The start of a stage, followed by all events of a log that are about its nodes. -/
def Stage.chapter (log : List Event) (stage : Stage) : List Event :=
  .stageStarted stage.index :: log.filter (·.concerns stage)

namespace NodeRecord

/-- What is told of a node until its record has become what it is. -/
def story (id : NodeId) (r : NodeRecord) : List Event :=
  match r.status with
  | .pending => []
  | .running => [.nodeStarted id]
  | .succeeded => [.nodeStarted id, .nodeSucceeded id r.outputs]
  | .failed => .nodeStarted id :: (r.failure.map (.nodeFailed id)).toList
  | .skipped => (r.failure.map (.nodeSkipped id)).toList

/-- A node was skipped and nothing else is told of it, or it started and after that its call ended.
The record says the same. -/
inductive Told (id : NodeId) (r : NodeRecord) : List Event → Prop
  | skipped {reason : NodeFailure} (hstatus : r.status = .skipped)
      (hfailure : r.failure = some reason) : Told id r [.nodeSkipped id reason]
  | succeeded (hstatus : r.status = .succeeded) (hfailure : r.failure = none) :
      Told id r [.nodeStarted id, .nodeSucceeded id r.outputs]
  | failed {error : NodeFailure} (hstatus : r.status = .failed)
      (hfailure : r.failure = some error) : Told id r [.nodeStarted id, .nodeFailed id error]

@[simp] theorem story_initial (id : NodeId) : NodeRecord.initial.story id = [] :=
  rfl

@[simp] theorem story_skip (id : NodeId) (reason : NodeFailure) :
    (NodeRecord.initial.skip reason).story id = [.nodeSkipped id reason] :=
  rfl

@[simp] theorem story_start (id : NodeId) (inputs : Values) :
    (NodeRecord.initial.start inputs).story id = [.nodeStarted id] :=
  rfl

@[simp] theorem story_answer (id : NodeId) (inputs : Values)
    (outcome : Except NodeFailure Values) :
    ((NodeRecord.initial.start inputs).answer outcome).story id =
      [.nodeStarted id, .answered id outcome] := by
  cases outcome <;> rfl

theorem told_answer (id : NodeId) (inputs : Values) (outcome : Except NodeFailure Values) :
    Told id ((NodeRecord.initial.start inputs).answer outcome)
      [.nodeStarted id, .answered id outcome] := by
  cases outcome with
  | ok values => exact .succeeded rfl rfl
  | error failure => exact .failed rfl rfl

end NodeRecord

/-! ### Logs that go on -/

section

variable {log : List Event} {stage : Stage}

theorem Stage.chapter_append (stage : Stage) (log : List Event) (e : Event) :
    stage.chapter (log ++ [e]) =
      if e.concerns stage then stage.chapter log ++ [e] else stage.chapter log := by
  rw [chapter, List.filter_append]
  split
  next h => simp [chapter, h]
  next h => simp [chapter, h]

/-- What is about none of some stages changes none of their chapters. -/
theorem flatMap_chapter_append {stages : List Stage} {e : Event}
    (h : ∀ stage ∈ stages, e.concerns stage = false) :
    stages.flatMap (·.chapter (log ++ [e])) = stages.flatMap (·.chapter log) :=
  List.flatMap_congr fun stage hstage => by
    rw [Stage.chapter_append, if_neg (by simp [h stage hstage])]

@[simp] theorem Event.node?_answered (id : NodeId) (outcome : Except NodeFailure Values) :
    (Event.answered id outcome).node? = some id := by
  cases outcome <;> rfl

theorem Event.concerns_of_node? {e : Event} {id : NodeId} (h : e.node? = some id) :
    e.concerns stage = decide (id ∈ stage.nodeIds) := by
  rw [concerns, h, Option.any_some, List.contains_eq_mem]

theorem Event.concerns_of_node?_eq_none {e : Event} (h : e.node? = none) :
    e.concerns stage = false := by
  rw [concerns, h]
  rfl

end

namespace RunState

/-- What is told of a node until the run has come to a state. -/
def story (s : RunState) (id : NodeId) : List Event :=
  ((s.report.record? id).map (·.story id)).getD []

/-- What is told before the first stage. -/
def opening (plan : Plan) (s : RunState) : List Event :=
  match s.phase with
  | .created => []
  | _ => [.runStarted plan.nodes.length plan.stages.length]

/-- What is told after the last stage. -/
def closing (s : RunState) : List Event :=
  match s.phase with
  | .finished => [.runFinished s.report.conclusion]
  | _ => []

/-- What the observer has been told when some stages have begun. -/
structure Logged (plan : Plan) (begun : List Stage) (s : RunState) : Prop where
  stages : plan.stages = begun ++ s.upcoming
  created : s.phase = .created → begun = []
  frame : s.events = s.opening plan ++ begun.flatMap (·.chapter s.events) ++ s.closing
  nodes : ∀ node ∈ plan.nodes, s.events.filter (·.node? = some node.id) = s.story node.id

variable {env : RunSetting} {plan : Plan} {limit : Option Nat} {past begun : List Stage}
variable {s s' : RunState}

theorem story_of_record? {id : NodeId} {record : NodeRecord}
    (h : s.report.record? id = some record) : s.story id = record.story id := by
  rw [story, h]
  rfl

theorem story_of_update {id : NodeId} {change : NodeRecord → NodeRecord} {before : NodeRecord}
    (hreport : s'.report = s.report.update id change)
    (hrecord : s.report.record? id = some before) : s'.story id = (change before).story id := by
  refine story_of_record? ?_
  rw [hreport, Report.record?_update_of_record? hrecord]

theorem Settled.told {node : PlannedNode} (h : s.Settled env node) :
    ∃ record, s.report.record? node.id = some record ∧ record.Told node.id (s.story node.id) := by
  cases h with
  | cancelled _ hrecord _ =>
      exact ⟨_, hrecord, story_of_record? hrecord ▸ .skipped rfl rfl⟩
  | blocked _ hrecord _ =>
      exact ⟨_, hrecord, story_of_record? hrecord ▸ .skipped rfl rfl⟩
  | answered _ _ hrecord _ =>
      refine ⟨_, hrecord, ?_⟩
      rw [story_of_record? hrecord, NodeRecord.story_answer]
      exact NodeRecord.told_answer _ _ _

namespace Logged

theorem start (plan : Plan) (runId : String) (limit : Option Nat) (cancelled : Bool) :
    Logged plan [] (.initial runId plan limit cancelled) where
  stages := rfl
  created _ := rfl
  frame := rfl
  nodes node hnode := by
    rw [story_of_record? (Report.record?_initial _ (List.mem_map_of_mem hnode))]
    rfl

/-- The stages that have begun are those that are past and the one that is open. -/
theorem begun_eq (hl : Logged plan begun s) (h : Coherent env plan limit past s) :
    begun = past ++ s.openStages := by
  have hstages := hl.stages.symm.trans h.stages
  rw [← List.append_assoc] at hstages
  exact List.append_cancel_right hstages

/-- What is told of a node of the open stage comes behind all chapters. -/
theorem flatMap_chapter_of_opened (hp : plan.Ordered) (h : Coherent env plan limit past s)
    (hl : Logged plan begun s) {node : PlannedNode}
    (hnode : node ∈ s.openStages.flatMap Stage.nodes) {e : Event} (he : e.node? = some node.id) :
    begun.flatMap (·.chapter (s.events ++ [e])) = begun.flatMap (·.chapter s.events) ++ [e] := by
  obtain hnil | ⟨stage, -, hstage⟩ := openStages_eq_nil_or s
  · simp [hnil] at hnode
  · have hsplit := h.stages
    have hbegun := hl.begun_eq h
    rw [hstage, List.flatMap_singleton] at hnode
    rw [hstage, List.singleton_append] at hsplit
    have hid : node.id ∈ stage.nodeIds := List.mem_map_of_mem hnode
    have hopen : e.concerns stage = true := by
      rw [Event.concerns_of_node? he, decide_eq_true hid]
    -- The stages before the open one have other nodes.
    have hpast : ∀ other ∈ past, e.concerns other = false := by
      intro other hother
      rw [Event.concerns_of_node? he]
      refine decide_eq_false fun hmem => ?_
      obtain ⟨found, hfound, heq⟩ := List.mem_map.mp hmem
      have hnodup := hp.nodup
      rw [Plan.nodeIds_eq_append hsplit, List.nodup_append] at hnodup
      exact hnodup.2.2 _ (List.mem_map_of_mem (List.mem_flatMap.mpr ⟨other, hother, hfound⟩)) _
        (List.mem_append_left _ hid) heq
    rw [hbegun, hstage, List.flatMap_append, List.flatMap_append, List.flatMap_singleton,
      List.flatMap_singleton, flatMap_chapter_append hpast, Stage.chapter_append, if_pos hopen,
      List.append_assoc]

/-- The turn of a node is told in the open stage. -/
theorem turn (hp : plan.Ordered) (h : Coherent env plan limit past s) (hl : Logged plan begun s)
    {node : PlannedNode} {others : List NodeId} (hnode : node ∈ s.openStages.flatMap Stage.nodes)
    (ht : s.Turn env s' node others) {change : NodeRecord → NodeRecord} {before : NodeRecord}
    (hreport : s'.report = s.report.update node.id change)
    (hrecord : s.report.record? node.id = some before) {e : Event}
    (he : e.node? = some node.id) (hevents : s'.events = s.events ++ [e])
    (hstory : (change before).story node.id = before.story node.id ++ [e]) :
    Logged plan begun s' := by
  obtain hnil | ⟨stage, hphase, -⟩ := openStages_eq_nil_or s
  · simp [hnil] at hnode
  have hopening : s'.opening plan = s.opening plan := by rw [opening, opening, ht.phase]
  have hclosing : s.closing = [] ∧ s'.closing = [] := by
    simp only [closing, ht.phase, hphase, and_self]
  refine ⟨ht.upcoming ▸ hl.stages, fun hcreated => ?_, ?_, fun other hother => ?_⟩
  · rw [ht.phase, hphase] at hcreated
    cases hcreated
  · have hframe := hl.frame
    have hchapters := hl.flatMap_chapter_of_opened hp h hnode he
    rw [hclosing.1, List.append_nil] at hframe
    rw [hopening, hclosing.2, List.append_nil, hevents, hchapters, ← List.append_assoc, ← hframe]
  · rw [hevents, List.filter_append, hl.nodes other hother]
    by_cases heq : other.id = node.id
    · rw [heq, story_of_update hreport hrecord, hstory, story_of_record? hrecord]
      simp [he]
    · rw [story, story, (ht.sameAt _ heq).record?]
      simp [he, Ne.symm heq]

/-- Where nothing is told, nothing has happened to a node either. -/
theorem of_eq (hl : Logged plan begun s) (hevents : s'.events = s.events)
    (hrecords : s'.report.records = s.report.records) (hupcoming : s'.upcoming = s.upcoming)
    (hopening : s'.opening plan = s.opening plan) (hclosing : s'.closing = s.closing)
    (hcreated : s'.phase = .created → s.phase = .created) : Logged plan begun s' where
  stages := hupcoming ▸ hl.stages
  created h := hl.created (hcreated h)
  frame := by rw [hopening, hclosing, hevents, ← hl.frame]
  nodes node hnode := by
    rw [hevents, hl.nodes node hnode, story, story, Report.record?, Report.record?, hrecords]

theorem nodes_of_tell (hl : Logged plan begun s) {e : Event} (he : e.node? = none)
    (hevents : s'.events = s.events ++ [e]) (hrecords : s'.report.records = s.report.records) :
    ∀ node ∈ plan.nodes, s'.events.filter (·.node? = some node.id) = s'.story node.id := by
  intro node hnode
  rw [hevents, List.filter_append, hl.nodes node hnode, story, story, Report.record?,
    Report.record?, hrecords]
  simp [he]

theorem announce (h : Coherent env plan limit past s) (hl : Logged plan begun s)
    (hphase : s.phase = .created) : Logged plan begun ({ s with phase := .between }.log
      (.runStarted s.report.records.length s.upcoming.length)) := by
  obtain rfl := hl.created hphase
  have hevents : s.events = [] := by
    have hframe := hl.frame
    rw [opening, closing, hphase] at hframe
    exact hframe
  have hnodes : s.report.records.length = plan.nodes.length := by
    have hlength := h.ids_perm.length_eq
    rwa [Report.ids, List.length_map, Plan.nodeIds, List.length_map] at hlength
  refine ⟨hl.stages, fun _ => rfl, ?_, hl.nodes_of_tell rfl rfl rfl⟩
  have hstages : plan.stages = s.upcoming := hl.stages
  simp [log, opening, closing, hevents, hnodes, hstages]

theorem openStage (h : Coherent env plan limit past s) (hl : Logged plan begun s) {stage : Stage}
    {upcoming : List Stage} (hphase : s.phase = .between)
    (hupcoming : s.upcoming = stage :: upcoming) : Logged plan (begun ++ [stage])
      ({ s with
          phase := .inStage stage
          upcoming := upcoming
          undispatched := stage.nodes }.log (.stageStarted stage.index)) := by
  -- Nothing has been told of the nodes of the stage.
  have hnone : ∀ e ∈ s.events, e.concerns stage = false := by
    intro e he
    cases hid : e.node? with
    | none => exact Event.concerns_of_node?_eq_none hid
    | some id =>
        rw [Event.concerns_of_node? hid]
        refine decide_eq_false fun hmem => ?_
        obtain ⟨node, hnode, rfl⟩ := List.mem_map.mp hmem
        have hahead : node ∈ s.upcoming.flatMap Stage.nodes := by
          rw [hupcoming]
          exact List.mem_flatMap.mpr ⟨stage, List.mem_cons_self, hnode⟩
        have hplanned : node ∈ plan.nodes := by
          rw [Plan.nodes, hl.stages, List.flatMap_append]
          exact List.mem_append_right _ hahead
        have hstory := hl.nodes node hplanned
        rw [story_of_record? (h.ahead node hahead).1, NodeRecord.story_initial,
          List.filter_eq_nil_iff] at hstory
        exact hstory e he (by simpa using hid)
  refine ⟨?_, (fun hcreated => by cases hcreated), ?_, hl.nodes_of_tell rfl rfl rfl⟩
  · rw [hl.stages, hupcoming, List.append_assoc]
    rfl
  · have hframe := hl.frame
    have hchapters : ∀ other ∈ begun, (Event.stageStarted stage.index).concerns other = false :=
      fun _ _ => Event.concerns_of_node?_eq_none rfl
    have hchapter : stage.chapter (s.events ++ [.stageStarted stage.index]) =
        [.stageStarted stage.index] := by
      rw [Stage.chapter_append, if_neg (by simp [Event.concerns, Event.node?]), Stage.chapter,
        List.filter_eq_nil_iff.mpr fun e he => by simp [hnone e he]]
    simp only [opening, closing, hphase, log, List.append_nil] at hframe ⊢
    rw [List.flatMap_append, List.flatMap_singleton, flatMap_chapter_append hchapters, hchapter,
      ← List.append_assoc, ← hframe]

theorem finish (hl : Logged plan begun s) (hphase : s.phase = .between) :
    Logged plan begun ({ s with report := s.report.conclude, phase := .finished }.log
      (.runFinished s.report.conclusion)) := by
  refine ⟨hl.stages, (fun hcreated => by cases hcreated), ?_, hl.nodes_of_tell rfl rfl rfl⟩
  have hframe := hl.frame
  have hchapters : ∀ other ∈ begun,
      (Event.runFinished s.report.conclusion).concerns other = false :=
    fun _ _ => Event.concerns_of_node?_eq_none rfl
  simp only [opening, closing, hphase, log, List.append_nil] at hframe ⊢
  rw [flatMap_chapter_append hchapters, ← hframe]
  rfl

/-- Every move is told. -/
theorem step (hp : plan.Ordered) (henv : env.Quiet) (h : Coherent env plan limit past s)
    (hl : Logged plan begun s) {m : Move} (hstep : s.step env m = some s') :
    ∃ begun, Logged plan begun s' := by
  cases moves_of_step henv hstep with
  | cancel => exact ⟨begun, hl.of_eq rfl rfl rfl rfl rfl fun hcreated => hcreated⟩
  | announce hphase => exact ⟨begun, hl.announce h hphase⟩
  | openStage hphase hupcoming => exact ⟨_, hl.openStage h hphase hupcoming⟩
  | skip hundispatched hreason =>
      obtain ⟨hopened, hrecord, -⟩ := h.undispatched _ (hundispatched ▸ List.mem_cons_self)
      exact ⟨begun, hl.turn hp h hopened (h.turn_of_skip hp hundispatched hreason) rfl hrecord rfl
        rfl rfl⟩
  | handOut hundispatched hcancelled hgather =>
      exact ⟨begun, hl.of_eq rfl rfl rfl rfl rfl fun hcreated => hcreated⟩
  | @giveUp before after t hwaiting hpermits hcancelled =>
      obtain ⟨hopened, ⟨hrecord, -⟩, -⟩ := h.waiting t (by simp [hwaiting])
      exact ⟨begun, hl.turn hp h hopened (h.turn_of_giveUp hwaiting hpermits hcancelled) rfl hrecord
        rfl rfl rfl⟩
  | @launch before after t hwaiting hpermits hcancelled =>
      obtain ⟨hopened, ⟨hrecord, -⟩, -⟩ := h.waiting t (by simp [hwaiting])
      exact ⟨begun, hl.turn hp h hopened (h.turn_of_launch hp hwaiting hpermits) rfl hrecord rfl rfl
        rfl⟩
  | @settle before after r hinFlight =>
      obtain ⟨t, rfl, hopened, hcalling⟩ := h.inFlight r (by simp [hinFlight])
      exact ⟨begun, hl.turn hp h hopened (h.turn_of_settle hp hinFlight hopened hcalling) rfl
        hcalling.1 (Event.node?_answered _ _) rfl (by simp)⟩
  | closeStage hphase hundispatched hwaiting hinFlight =>
      rw [h.closeStage_eq hphase hundispatched hwaiting hinFlight]
      refine ⟨begun, hl.of_eq rfl rfl rfl ?_ ?_ nofun⟩
      · rw [opening, opening, hphase]
      · rw [closing, closing, hphase]
  | finish hphase hupcoming => exact ⟨begun, hl.finish hphase⟩

theorem run (hp : plan.Ordered) (henv : env.Quiet) {cancelled : Bool} {moves : List Move}
    (h : (RunState.initial env.runId plan limit cancelled).after? env moves = some s) :
    ∃ begun, Logged plan begun s := by
  refine ((Coherent.start env plan limit cancelled).preserves hp henv
    (motive := fun s => ∃ begun, Logged plan begun s) ?_ h
    ⟨[], start plan env.runId limit cancelled⟩).2
  rintro past s m next - hs hstep ⟨begun, hl⟩
  exact hl.step hp henv hs hstep

end Logged

/-- The log of a finished run. It tells of the run, of every stage in the order of the numbers, and
within a stage of its nodes and nothing else. It says of each node and of the whole what the report
says. -/
structure Chronicle (plan : Plan) (s : RunState) : Prop where
  numbered : plan.stages.map Stage.index = List.range plan.stages.length
  frame : ∃ status, s.report.overall = some status ∧
    s.events = .runStarted plan.nodes.length plan.stages.length ::
      plan.stages.flatMap (·.chapter s.events) ++ [.runFinished status]
  told : ∀ node ∈ plan.nodes, ∃ record, s.report.record? node.id = some record ∧
    record.Told node.id (s.events.filter (·.node? = some node.id))

theorem Coherent.chronicle (h : Coherent env plan limit past s) (hl : Logged plan begun s)
    (hphase : s.phase = .finished)
    (hnumbered : plan.stages.map Stage.index = List.range plan.stages.length) :
    Chronicle plan s where
  numbered := hnumbered
  frame := by
    have hbegun : begun = plan.stages := by
      rw [hl.stages, h.finished hphase, List.append_nil]
    have hframe := hl.frame
    rw [opening, closing, hphase, hbegun] at hframe
    exact ⟨_, h.overall_of_finished hphase, hframe⟩
  told node hnode := by
    obtain ⟨record, hrecord, htold⟩ := (h.settled_of_finished hphase node hnode).told
    exact ⟨record, hrecord, hl.nodes node hnode ▸ htold⟩

/-- However the tasks of a run take turns, and whenever it is cancelled, the observer has been told
in the end what the report says. -/
theorem events_faithful {g : Graph} (hg : g.Reachable) {plan : Plan} (hplan : g.plan = .ok plan)
    {env : RunSetting} (henv : env.Quiet) {limit : Option Nat} (hlimit : limit ≠ some 0)
    {cancelled : Bool} {moves : List Move} {s : RunState}
    (hrun : (RunState.initial env.runId plan limit cancelled).after? env moves = some s)
    (hover : s.Over env) : s.phase = .finished ∧ Chronicle plan s := by
  have hp := (Graph.plannedAs_of_plan hg hplan).ordered
  obtain ⟨past, h⟩ := Coherent.run hp henv hrun
  obtain ⟨begun, hl⟩ := Logged.run hp henv hrun
  have hphase := h.finished_of_over hlimit hover
  exact ⟨hphase, h.chronicle hl hphase (Graph.numbered_of_plan hg.wellKept.nodup_nodeIds hplan)⟩

/-- The call of one node fails and the run is cancelled while the other one in the middle waits, so
neither that one nor the last one starts. -/
theorem events_faithful_diamond : ∃ s,
    (RunState.initial "a" Graph.diamondPlan (some 1) false).after? (oneFails "a")
        (diamondMoves [.launch ⟨2⟩, .cancel, .settle ⟨2⟩, .launch ⟨3⟩]) = some s ∧
      Chronicle Graph.diamondPlan s ∧ s.events.map Event.name =
        ["run_started", "stage_started", "node_started", "node_succeeded", "stage_started",
          "node_started", "node_failed", "node_skipped", "stage_started", "node_skipped",
          "run_finished"] := by
  have hend : ((RunState.initial "a" Graph.diamondPlan (some 1) false).after? (oneFails "a")
      (diamondMoves [.launch ⟨2⟩, .cancel, .settle ⟨2⟩, .launch ⟨3⟩])).map
        (fun s => (s.phase, s.events.map Event.name)) = some (.finished,
          ["run_started", "stage_started", "node_started", "node_succeeded", "stage_started",
            "node_started", "node_failed", "node_skipped", "stage_started", "node_skipped",
            "run_finished"]) := by
    rw [initial_diamondPlan]
    rfl
  obtain ⟨s, hrun, hend⟩ := Option.map_eq_some_iff.mp hend
  obtain ⟨hphase, hnames⟩ := Prod.mk.inj hend
  have hordered := (Graph.plannedAs_of_plan Graph.diamond_reachable Graph.plan_diamond).ordered
  have hquiet : (oneFails "a").Quiet := fun _ => rfl
  obtain ⟨past, hcoherent⟩ := Coherent.run hordered hquiet hrun
  have hchronicle := events_faithful Graph.diamond_reachable Graph.plan_diamond hquiet (by decide)
    hrun (hcoherent.over_of_finished hphase)
  exact ⟨s, hrun, hchronicle.2, hnames⟩

end RunState

end Dataflow
