import Dataflow.Proofs.Resolution

/-! # What planning answers

Planning a graph without defects cannot run into a node or an output that is not there. So it fails
just when some input has neither a link nor a parameter, with all such inputs, and gives the stages
with every input resolved otherwise.
-/

namespace Dataflow

namespace Graph

/-- An input has neither a link nor a parameter. -/
def Lacks (g : Graph) (node : Node) (input : Nat) (socket : Socket) : Prop :=
  (∀ link ∈ g.links, link.slot ≠ (node.id, UInt64.ofNat input)) ∧
    node.parameters.contains socket.name = false

instance (g : Graph) (node : Node) (input : Nat) (socket : Socket) :
    Decidable (g.Lacks node input socket) :=
  inferInstanceAs (Decidable (_ ∧ _))

/-- The names of the inputs of a node that have neither a link nor a parameter, in their order. -/
def lacking (g : Graph) (node : Node) : List String :=
  (node.inputs.zipIdx.filter fun entry => g.Lacks node entry.2 entry.1).map (·.1.name)

/-- What is missing at the node of an id, if anything is. -/
def gaps? (g : Graph) (id : NodeId) : Option MissingInputs :=
  (g.node? id).bind fun node =>
    if g.lacking node = [] then none else some ⟨node.id, g.lacking node⟩

/-- Some input of a node has neither a link nor a parameter. -/
def Incomplete (g : Graph) (node : Node) : Prop :=
  ∃ i socket, node.inputs[i]? = some socket ∧ g.Lacks node i socket

variable {g : Graph}

/-! ### One input -/

theorem outputSocket?_eq_some_iff (hg : g.nodeIds.Nodup) {id : NodeId} {output : UInt64}
    {socket : Socket} : g.outputSocket? id output = some socket ↔
      ∃ node ∈ g.nodes, node.id = id ∧ node.outputs[output.toNat]? = some socket := by
  simp only [outputSocket?, Option.bind_eq_some_iff, node?_eq_some_iff hg, and_assoc]

/-- The source of an input can always be told, and it is missing just when the input lacks one. -/
theorem exists_inputSource?_eq (hg : g.nodeIds.Nodup) (hvalid : g.Valid) (node : Node)
    (socket : Socket) (input : Nat) :
    ∃ source, g.inputSource? node socket input = .ok source ∧
      (source.isNone ↔ g.Lacks node input socket) := by
  unfold inputSource?
  cases hlink : g.incomingLink? node.id (UInt64.ofNat input) with
  | none =>
      refine ⟨_, rfl, ?_⟩
      rw [Lacks, ← incomingLink?_eq_none_iff]
      simp [hlink, KeyMap.contains]
  | some link =>
      have hmem := List.mem_of_find?_eq_some hlink
      obtain ⟨feeder, hfeeder, hid, hlt⟩ := (hvalid.ends link hmem).1
      have houtput := (outputSocket?_eq_some_iff hg).mpr
        ⟨feeder, hfeeder, hid, List.getElem?_eq_getElem hlt⟩
      simp only [houtput]
      refine ⟨_, rfl, iff_of_false (by simp) ?_⟩
      rintro ⟨hnone, -⟩
      exact hnone link hmem (by simpa using List.find?_some hlink)

/-! ### One node -/

theorem exists_inputSources_eq (hg : g.nodeIds.Nodup) (hvalid : g.Valid) (node : Node) (input : Nat)
    (sockets : List Socket) :
    ∃ sources, g.inputSources node input sockets = .ok sources ∧
      sources.filterMap (fun (name, source) => if source.isNone then some name else none) =
        ((sockets.zipIdx input).filter fun entry => g.Lacks node entry.2 entry.1).map
          (·.1.name) := by
  induction sockets generalizing input with
  | nil => exact ⟨[], rfl, rfl⟩
  | cons socket sockets ih =>
      obtain ⟨source, hsource, hlacks⟩ := exists_inputSource?_eq hg hvalid node socket input
      obtain ⟨sources, hsources, hnames⟩ := ih (input + 1)
      refine ⟨(socket.name, source) :: sources, ?_, ?_⟩
      · simp only [inputSources, bind_eq_ok_iff, pure_eq_ok_iff]
        exact ⟨source, hsource, sources, hsources, rfl⟩
      · rw [List.zipIdx_cons, List.filter_cons, List.filterMap_cons]
        by_cases h : g.Lacks node input socket
        · simp only [h, hlacks.mpr h, hnames, decide_true, if_true, List.map_cons]
        · have hsome : ¬ source.isNone := fun hnone => h (hlacks.mp hnone)
          simp only [h, hsome, hnames, decide_false, if_false, Bool.false_eq_true]

/-- A node is planned unless it lacks an input, and then all that it lacks is reported. -/
theorem exists_planNode_eq (hg : g.nodeIds.Nodup) (hvalid : g.Valid) (node : Node) :
    ∃ planned, g.planNode node = .ok planned ∧
      if g.lacking node = [] then ∃ p, planned = .ok p
      else planned = .error ⟨node.id, g.lacking node⟩ := by
  obtain ⟨sources, hsources, hnames⟩ := exists_inputSources_eq hg hvalid node 0 node.inputs
  unfold planNode lacking
  rw [hsources]
  simp only [bind, Except.bind, hnames, List.isEmpty_iff]
  split
  · exact ⟨_, rfl, _, rfl⟩
  · exact ⟨_, rfl, rfl⟩

theorem mem_lacking_iff {node : Node} {name : String} : name ∈ g.lacking node ↔
    ∃ i socket, node.inputs[i]? = some socket ∧ g.Lacks node i socket ∧ socket.name = name := by
  simp only [lacking, List.mem_map, List.mem_filter, List.mem_zipIdx_iff_getElem?, Prod.exists,
    decide_eq_true_eq]
  constructor
  · rintro ⟨socket, i, ⟨hget, hlacks⟩, hname⟩
    exact ⟨i, socket, hget, hlacks, hname⟩
  · rintro ⟨i, socket, hget, hlacks, hname⟩
    exact ⟨socket, i, ⟨hget, hlacks⟩, hname⟩

theorem lacking_ne_nil_iff {node : Node} : g.lacking node ≠ [] ↔ g.Incomplete node := by
  rw [Ne, List.eq_nil_iff_forall_not_mem, not_forall_not]
  constructor
  · rintro ⟨name, hname⟩
    obtain ⟨i, socket, hget, hlacks, -⟩ := mem_lacking_iff.mp hname
    exact ⟨i, socket, hget, hlacks⟩
  · rintro ⟨i, socket, hget, hlacks⟩
    exact ⟨socket.name, mem_lacking_iff.mpr ⟨i, socket, hget, hlacks, rfl⟩⟩

/-! ### All nodes -/

theorem gaps?_eq_some_iff (hg : g.nodeIds.Nodup) {id : NodeId} {m : MissingInputs} :
    g.gaps? id = some m ↔ ∃ node ∈ g.nodes, node.id = id ∧ g.lacking node ≠ [] ∧
      m = ⟨id, g.lacking node⟩ := by
  simp only [gaps?, Option.bind_eq_some_iff, node?_eq_some_iff hg, and_assoc]
  refine exists_congr fun node => and_congr_right fun _ => and_congr_right ?_
  rintro rfl
  by_cases h : g.lacking node = [] <;> simp [h, eq_comm]

theorem exists_planStage_eq (hg : g.nodeIds.Nodup) (hvalid : g.Valid) {ids : List NodeId}
    (hids : ∀ id ∈ ids, id ∈ g.nodeIds) :
    ∃ nodes, g.planStage ids = .ok (nodes, ids.filterMap g.gaps?) := by
  induction ids with
  | nil => exact ⟨[], rfl⟩
  | cons id ids ih =>
      obtain ⟨node, hnode⟩ := Option.ne_none_iff_exists'.mp
        (mt node?_eq_none_iff.mp (not_not_intro (hids id List.mem_cons_self)))
      obtain ⟨nodes, hnodes⟩ := ih fun other hother => hids other (List.mem_cons_of_mem _ hother)
      obtain ⟨planned, hplanned, hcase⟩ := exists_planNode_eq hg hvalid node
      have hgaps : g.gaps? id =
          if g.lacking node = [] then none else some ⟨node.id, g.lacking node⟩ := by
        rw [gaps?, hnode, Option.bind_some]
      unfold planStage
      rw [hnode]
      simp only [hplanned, hnodes, bind, Except.bind, List.filterMap_cons, hgaps]
      split at hcase
      next hnone =>
        obtain ⟨p, rfl⟩ := hcase
        simp only [hnone, if_true]
        exact ⟨_, rfl⟩
      next hsome =>
        subst hcase
        simp only [hsome, if_false]
        exact ⟨_, rfl⟩

theorem exists_planStages_eq (hg : g.nodeIds.Nodup) (hvalid : g.Valid) (index : Nat)
    {stages : List (List NodeId)} (hids : ∀ id ∈ stages.flatten, id ∈ g.nodeIds) :
    ∃ planned, g.planStages index stages = .ok (planned, stages.flatten.filterMap g.gaps?) ∧
      planned.map Stage.index = List.range' index stages.length := by
  induction stages generalizing index with
  | nil => exact ⟨[], rfl, rfl⟩
  | cons ids stages ih =>
      rw [List.flatten_cons] at hids
      obtain ⟨nodes, hnodes⟩ := exists_planStage_eq hg hvalid
        fun id hid => hids id (List.mem_append_left _ hid)
      obtain ⟨planned, hplanned, hindices⟩ := ih (index + 1)
        fun id hid => hids id (List.mem_append_right _ hid)
      refine ⟨⟨index, nodes⟩ :: planned, ?_, ?_⟩
      · rw [List.flatten_cons, List.filterMap_append]
        simp only [planStages, bind_eq_ok_iff]
        exact ⟨_, hnodes, _, hplanned, rfl⟩
      · simp [hindices, List.range'_succ]

/-- What a graph without defects is answered. -/
theorem exists_plan_eq (hg : g.nodeIds.Nodup) (hvalid : g.Valid) :
    ∃ s, g.staging = .ok s ∧ g.StagedBy s ∧ ∃ stages : List Stage,
      stages.map Stage.index = List.range s.stages.length ∧
        g.plan = if s.stages.flatten.filterMap g.gaps? = [] then .ok ⟨stages⟩
          else .error (.missingInputs (s.stages.flatten.filterMap g.gaps?)) := by
  have hstaged := stagedBy_layering hg hvalid.acyclic
  generalize hs : (⟨g.layering.layers.map g.idsAt⟩ : Staging) = s at hstaged
  have hstaging : g.staging = .ok s := (staging_eq_ok_iff hg).mpr ⟨hvalid, hs.symm⟩
  obtain ⟨stages, hstages, hindices⟩ := exists_planStages_eq hg hvalid 0
    fun id hid => hstaged.perm.mem_iff.mp hid
  refine ⟨s, hstaging, hstaged, stages, by rw [hindices, List.range_eq_range'], ?_⟩
  rw [Graph.plan, hstaging]
  simp only [Except.mapError, bind, Except.bind, hstages, List.isEmpty_iff]
  rfl

theorem numbered_of_plan (hg : g.nodeIds.Nodup) {plan : Plan} (h : g.plan = .ok plan) :
    plan.stages.map Stage.index = List.range plan.stages.length := by
  obtain ⟨hstaging, -⟩ := plan_eq_ok hg h
  obtain ⟨s, hs, -, stages, hindices, hplan⟩ :=
    exists_plan_eq hg ((staging_eq_ok_iff hg).mp hstaging).1
  rw [hplan] at h
  split at h
  next =>
    cases h
    obtain rfl := Except.ok.inj (hs.symm.trans hstaging)
    rwa [List.length_map] at hindices
  next => cases h

/-! ### Answers -/

/-- Inputs that are missing are reported with their nodes in the order of the stages, each node once
and with all inputs that it lacks. -/
structure ReportsMissing (g : Graph) (s : Staging) (missing : List MissingInputs) : Prop where
  nodup : (missing.map MissingInputs.node).Nodup
  sublist : (missing.map MissingInputs.node).Sublist s.stages.flatten
  mem_iff : ∀ id, id ∈ missing.map MissingInputs.node ↔
    ∃ node ∈ g.nodes, node.id = id ∧ g.Incomplete node
  names : ∀ m ∈ missing, ∃ node ∈ g.nodes, node.id = m.node ∧ m.names = g.lacking node

/-- A planned node has the inputs of its node in their order, each with the link to it as its
source, or with a parameter where there is no link. -/
structure Supplied (g : Graph) (node : Node) (planned : PlannedNode) : Prop where
  id_eq : planned.id = node.id
  functionRef_eq : planned.functionRef = node.functionRef
  outputNames_eq : planned.outputNames = node.outputs.map Socket.name
  length_inputs : planned.inputs.length = node.inputs.length
  linked : ∀ i socket, node.inputs[i]? = some socket →
    ∀ link ∈ g.links, link.slot = (node.id, UInt64.ofNat i) →
      ∃ feeder ∈ g.nodes, feeder.id = link.source ∧ ∃ output,
        feeder.outputs[link.output.toNat]? = some output ∧
          planned.inputs[i]? =
            some ⟨socket.name, .fromLink link.source link.output output.name⟩
  unlinked : ∀ i socket, node.inputs[i]? = some socket →
    (∀ link ∈ g.links, link.slot ≠ (node.id, UInt64.ofNat i)) →
      ∃ value, node.parameters.get? socket.name = some value ∧
        planned.inputs[i]? = some ⟨socket.name, .fromParameter value⟩

/-- A plan has the stages of the graph, numbered from zero, and their nodes are supplied. -/
structure Follows (g : Graph) (s : Staging) (plan : Plan) : Prop where
  stages : plan.stages.map Stage.nodeIds = s.stages
  numbered : plan.stages.map Stage.index = List.range s.stages.length
  supplied : ∀ planned ∈ plan.nodes, ∃ node ∈ g.nodes, g.Supplied node planned

theorem Resolves.supplied (hg : g.nodeIds.Nodup) (hvalid : g.Valid) {node : Node}
    {planned : PlannedNode} (h : g.Resolves node planned) : g.Supplied node planned where
  id_eq := h.id_eq
  functionRef_eq := h.functionRef_eq
  outputNames_eq := h.outputNames_eq
  length_inputs := h.length_inputs
  linked i socket hsocket link hlink hslot := by
    obtain ⟨source, hget, hsource⟩ := h.input i socket hsocket
    obtain ⟨name, rfl⟩ := inputSource?_of_link hvalid.writers hlink hslot hsource
    obtain ⟨-, output, houtput, rfl⟩ := inputSource?_eq_fromLink hsource
    obtain ⟨feeder, hfeeder, hid, hfound⟩ := (outputSocket?_eq_some_iff hg).mp houtput
    exact ⟨feeder, hfeeder, hid, output, hfound, hget⟩
  unlinked i socket hsocket hnone := by
    obtain ⟨source, hget, hsource⟩ := h.input i socket hsocket
    rw [inputSource?, incomingLink?_eq_none_iff.mpr hnone] at hsource
    simp only [Except.ok.injEq, Option.map_eq_some_iff] at hsource
    obtain ⟨value, hvalue, rfl⟩ := hsource
    exact ⟨value, hvalue, hget⟩

theorem StagedBy.reportsMissing (hg : g.nodeIds.Nodup) {s : Staging} (hs : g.StagedBy s) :
    g.ReportsMissing s (s.stages.flatten.filterMap g.gaps?) := by
  have hnode : ∀ {id m}, g.gaps? id = some m → m.node = id := by
    intro id m hm
    obtain ⟨node, -, -, -, rfl⟩ := (gaps?_eq_some_iff hg).mp hm
    rfl
  have hsublist : ∀ ids : List NodeId,
      ((ids.filterMap g.gaps?).map MissingInputs.node).Sublist ids := by
    intro ids
    induction ids with
    | nil => exact .refl _
    | cons id ids ih =>
        rw [List.filterMap_cons]
        cases hgap : g.gaps? id with
        | none => exact ih.cons id
        | some m => exact hnode hgap ▸ ih.cons_cons m.node
  refine ⟨hs.nodup.sublist (hsublist _), hsublist _, fun id => ?_, fun m hm => ?_⟩
  · simp only [List.mem_map, List.mem_filterMap]
    constructor
    · rintro ⟨m, ⟨other, -, hgap⟩, rfl⟩
      obtain ⟨node, hmem, hid, hlacking, rfl⟩ := (gaps?_eq_some_iff hg).mp hgap
      exact ⟨node, hmem, hid, lacking_ne_nil_iff.mp hlacking⟩
    · rintro ⟨node, hmem, rfl, hincomplete⟩
      have hlacking := lacking_ne_nil_iff.mpr hincomplete
      exact ⟨⟨node.id, g.lacking node⟩, ⟨node.id, hs.perm.mem_iff.mpr (List.mem_map_of_mem hmem),
        (gaps?_eq_some_iff hg).mpr ⟨node, hmem, rfl, hlacking, rfl⟩⟩, rfl⟩
  · obtain ⟨id, -, hgap⟩ := List.mem_filterMap.mp hm
    obtain ⟨node, hmem, hid, -, rfl⟩ := (gaps?_eq_some_iff hg).mp hgap
    exact ⟨node, hmem, hid, rfl⟩

theorem filterMap_gaps?_eq_nil_iff (hg : g.nodeIds.Nodup) {s : Staging} (hs : g.StagedBy s) :
    s.stages.flatten.filterMap g.gaps? = [] ↔ ¬ ∃ node ∈ g.nodes, g.Incomplete node := by
  have hmem := (hs.reportsMissing hg).mem_iff
  rw [← List.map_eq_nil_iff (f := MissingInputs.node), List.eq_nil_iff_forall_not_mem]
  constructor
  · rintro hnone ⟨node, hnode, hincomplete⟩
    exact hnone node.id ((hmem _).mpr ⟨node, hnode, rfl, hincomplete⟩)
  · intro hnone id hid
    obtain ⟨node, hnode, -, hincomplete⟩ := (hmem id).mp hid
    exact hnone ⟨node, hnode, hincomplete⟩

theorem plan_eq_structural_iff (hg : g.nodeIds.Nodup) {defects : List Defect} :
    g.plan = .error (.structural defects) ↔ defects = g.validate ∧ defects ≠ [] := by
  by_cases hvalidate : g.validate = []
  · obtain ⟨s, -, -, stages, -, hplan⟩ := exists_plan_eq hg ((validate_eq_nil_iff hg).mp hvalidate)
    refine iff_of_false ?_ ?_
    · rw [hplan]
      split <;> simp
    · rintro ⟨rfl, hne⟩
      exact hne hvalidate
  · have hstaging : g.staging = .error g.validate := staging_eq_error_iff.mpr ⟨hvalidate, rfl⟩
    have hplan : g.plan = .error (.structural g.validate) := by
      rw [Graph.plan, hstaging]
      rfl
    rw [hplan, Except.error.injEq, PlanError.structural.injEq]
    constructor
    · rintro rfl
      exact ⟨rfl, hvalidate⟩
    · rintro ⟨rfl, -⟩
      rfl

/-- A graph with defects is answered with all of them. Else the answer is a plan that follows the
graph, or all missing inputs if there are any. No plan runs into a node that is not there. -/
theorem plan_exact {g : Graph} (hg : g.Reachable) :
    (∀ defects, g.plan = .error (.structural defects) ↔ defects = g.validate ∧ defects ≠ []) ∧
      (g.validate = [] → ∃ s, g.staging = .ok s ∧
        ((∃ missing, g.plan = .error (.missingInputs missing)) ↔
          ∃ node ∈ g.nodes, g.Incomplete node) ∧
        (∀ missing, g.plan = .error (.missingInputs missing) → g.ReportsMissing s missing) ∧
        ((¬ ∃ node ∈ g.nodes, g.Incomplete node) → ∃ plan, g.plan = .ok plan ∧ g.Follows s plan)) ∧
      ∀ id, g.plan ≠ .error (.unknownNode id) := by
  have hnodup := hg.wellKept.nodup_nodeIds
  refine ⟨fun defects => plan_eq_structural_iff hnodup, fun hvalidate => ?_, fun id hunknown => ?_⟩
  · have hvalid := (validate_eq_nil_iff hnodup).mp hvalidate
    obtain ⟨s, hstaging, hstaged, stages, hindices, hplan⟩ := exists_plan_eq hnodup hvalid
    have hnil := filterMap_gaps?_eq_nil_iff hnodup hstaged
    refine ⟨s, hstaging, ?_, fun missing hmissing => ?_, fun hcomplete => ?_⟩
    · rw [hplan]
      split
      next hnone => exact iff_of_false (by simp) (hnil.mp hnone)
      next hsome => exact iff_of_true ⟨_, rfl⟩ (not_not.mp (mt hnil.mpr hsome))
    · rw [hplan] at hmissing
      split at hmissing
      next => cases hmissing
      next =>
        cases hmissing
        exact hstaged.reportsMissing hnodup
    · rw [if_pos (hnil.mpr hcomplete)] at hplan
      obtain ⟨hstages, hresolved⟩ := plan_eq_ok hnodup hplan
      refine ⟨⟨stages⟩, hplan, ?_, hindices, fun planned hplanned => ?_⟩
      · rw [hstaging, Except.ok.injEq] at hstages
        rw [hstages]
      · obtain ⟨node, hnode, hresolves⟩ := hresolved planned hplanned
        exact ⟨node, hnode, hresolves.supplied hnodup hvalid⟩
  · by_cases hvalidate : g.validate = []
    · obtain ⟨s, -, -, stages, -, hplan⟩ :=
        exists_plan_eq hnodup ((validate_eq_nil_iff hnodup).mp hvalidate)
      rw [hplan] at hunknown
      split at hunknown <;> cases hunknown
    · rw [(plan_eq_structural_iff hnodup).mpr ⟨rfl, hvalidate⟩] at hunknown
      cases hunknown

/-- Two nodes, and a link to one of the two inputs of the second. -/
def halfLinked : Graph :=
  ((empty.withNode []).withNode ["a", "b"]).withLink ⟨1⟩ ⟨2⟩ 0

theorem halfLinked_reachable : halfLinked.Reachable := by
  refine Reachable.withLink ?_ (by decide)
  iterate 2 refine Reachable.withNode ?_ (by decide)
  exact .empty

theorem halfLinked_plan_exact : ∃ missing, halfLinked.plan = .error (.missingInputs missing) ∧
    halfLinked.ReportsMissing ⟨[[⟨1⟩], [⟨2⟩]]⟩ missing := by
  have hvalidate : halfLinked.validate = [] := by cbv
  have hstaging : halfLinked.staging = .ok ⟨[[⟨1⟩], [⟨2⟩]]⟩ := by cbv
  obtain ⟨s, hs, hmissing, hreports, -⟩ := (plan_exact halfLinked_reachable).2.1 hvalidate
  obtain rfl : (⟨[[⟨1⟩], [⟨2⟩]]⟩ : Staging) = s := by
    rw [← Except.ok.injEq (ε := List Defect), ← hstaging, hs]
  obtain ⟨missing, hplan⟩ := hmissing.mpr
    ⟨_, List.mem_cons_of_mem _ List.mem_cons_self, 1, ⟨"b", none⟩, rfl, by decide⟩
  exact ⟨missing, hplan, hreports missing hplan⟩

end Graph

end Dataflow
