import Dataflow.Proofs.Resolution

/-! # Links and planned inputs correspond

What a planned node reads over links is listed with the place of the input. In the plan of a graph
this list holds every link once and nothing else, so runs, which follow planned inputs, and stages,
which follow links, see the same dependencies.
-/

namespace Dataflow

/-- An input that is fed by an output, both given by their places. -/
structure Dependency where
  source : NodeId
  output : UInt64
  target : NodeId
  input : Nat
  deriving DecidableEq

namespace Dependency

/-- The input of a dependency as links name it. -/
def slot (d : Dependency) : NodeId × UInt64 :=
  (d.target, UInt64.ofNat d.input)

end Dependency

/-- The dependency that a link stands for. -/
def Link.dependency (link : Link) : Dependency :=
  ⟨link.source, link.output, link.target, link.input.toNat⟩

/-- The dependency of a planned input on the place of an input of a node, if it reads from a
link. -/
def PlannedInput.dependency? (input : PlannedInput) (target : NodeId) (place : Nat) :
    Option Dependency :=
  match input.source with
  | .fromLink source output _ => some ⟨source, output, target, place⟩
  | .fromParameter _ => none

/-- The inputs of a planned node that read from links, in their order. -/
def PlannedNode.dependencies (node : PlannedNode) : List Dependency :=
  node.inputs.zipIdx.filterMap fun (input, place) => input.dependency? node.id place

/-- The inputs of a plan that read from links, in the order of execution. -/
def Plan.dependencies (p : Plan) : List Dependency :=
  p.nodes.flatMap PlannedNode.dependencies

theorem PlannedInput.dependency?_eq_some_iff {input : PlannedInput} {target : NodeId} {place : Nat}
    {d : Dependency} : input.dependency? target place = some d ↔
      d.target = target ∧ d.input = place ∧
        ∃ name, input.source = .fromLink d.source d.output name := by
  obtain ⟨source, output, target', place'⟩ := d
  cases h : input.source with
  | fromLink source' output' name =>
      simp only [dependency?, h, Option.some.injEq, Dependency.mk.injEq, InputSource.fromLink.injEq]
      constructor
      · rintro ⟨rfl, rfl, rfl, rfl⟩
        exact ⟨rfl, rfl, name, rfl, rfl, rfl⟩
      · rintro ⟨rfl, rfl, name, rfl, rfl, rfl⟩
        exact ⟨rfl, rfl, rfl, rfl⟩
  | fromParameter value => simp [dependency?, h]

theorem PlannedNode.mem_dependencies_iff {node : PlannedNode} {d : Dependency} :
    d ∈ node.dependencies ↔ d.target = node.id ∧ ∃ input, node.inputs[d.input]? = some input ∧
      ∃ name, input.source = .fromLink d.source d.output name := by
  simp only [dependencies, List.mem_filterMap, List.mem_zipIdx_iff_getElem?, Prod.exists,
    PlannedInput.dependency?_eq_some_iff]
  constructor
  · rintro ⟨input, place, hinput, htarget, rfl, name, hsource⟩
    exact ⟨htarget, input, hinput, name, hsource⟩
  · rintro ⟨htarget, input, hinput, name, hsource⟩
    exact ⟨input, d.input, hinput, htarget, rfl, name, hsource⟩

/-- A node lists every place at most once. -/
theorem PlannedNode.nodup_dependencies (node : PlannedNode) : node.dependencies.Nodup := by
  have hplaces : node.inputs.zipIdx.Pairwise fun a b => a.2 ≠ b.2 := by
    apply List.pairwise_map.mp
    rw [List.zipIdx_map_snd]
    exact List.nodup_range'
  refine hplaces.filterMap _ fun a a' hne d hd d' hd' heq => hne ?_
  obtain ⟨-, hplace, -⟩ := PlannedInput.dependency?_eq_some_iff.mp hd
  obtain ⟨-, hplace', -⟩ := PlannedInput.dependency?_eq_some_iff.mp hd'
  rw [← hplace, ← hplace', heq]

theorem Plan.nodup_dependencies {p : Plan} (hp : p.nodeIds.Nodup) : p.dependencies.Nodup := by
  refine List.nodup_flatMap.mpr ⟨fun node _ => node.nodup_dependencies, ?_⟩
  refine (List.pairwise_map.mp hp).imp fun hne d hd hd' => hne ?_
  rw [← (PlannedNode.mem_dependencies_iff.mp hd).1, (PlannedNode.mem_dependencies_iff.mp hd').1]

theorem Plan.mem_dependencies_iff {p : Plan} {d : Dependency} :
    d ∈ p.dependencies ↔ ∃ node ∈ p.nodes, d ∈ node.dependencies :=
  List.mem_flatMap

namespace Graph

variable {g : Graph}

/-- No node has more inputs than links can name. -/
def Addressable (g : Graph) : Prop :=
  ∀ node ∈ g.nodes, node.inputs.length ≤ UInt64.size

instance (g : Graph) : Decidable g.Addressable :=
  inferInstanceAs (Decidable (∀ node ∈ g.nodes, _))

theorem mem_feeders_iff {id feeder : NodeId} :
    feeder ∈ g.feeders id ↔ ∃ link ∈ g.links, link.target = id ∧ link.source = feeder := by
  simp [feeders, incomingLinks, and_assoc]

/-- A link is read at the input where it ends. -/
theorem Resolves.exists_input_of_link {node : Node} {planned : PlannedNode}
    (h : g.Resolves node planned) (hg : g.nodeIds.Nodup) (hvalid : g.Valid) (hnode : node ∈ g.nodes)
    {link : Link} (hlink : link ∈ g.links) (htarget : link.target = node.id) :
    ∃ input, planned.inputs[link.input.toNat]? = some input ∧
      ∃ name, input.source = .fromLink link.source link.output name := by
  obtain ⟨-, target, hmem, hid, hlt⟩ := hvalid.ends link hlink
  obtain rfl := List.inj_on_of_nodup_map hg hmem hnode (hid.trans htarget)
  obtain ⟨source, hget, hresolved⟩ :=
    h.input link.input.toNat _ (List.getElem?_eq_getElem hlt)
  have hslot : link.slot = (target.id, UInt64.ofNat link.input.toNat) := by
    rw [UInt64.ofNat_toNat, ← htarget]
    rfl
  obtain ⟨name, rfl⟩ := inputSource?_of_link hvalid.writers hlink hslot hresolved
  exact ⟨_, hget, name, rfl⟩

/-- An input that reads from a link is the one where the link ends. -/
theorem Resolves.exists_link_of_dependency {node : Node} {planned : PlannedNode}
    (h : g.Resolves node planned) (hvalid : g.Valid) (hsmall : node.inputs.length ≤ UInt64.size)
    {d : Dependency} (hd : d ∈ planned.dependencies) : ∃ link ∈ g.links, link.dependency = d := by
  obtain ⟨htarget, input, hinput, name, hsource⟩ := PlannedNode.mem_dependencies_iff.mp hd
  obtain ⟨hlt, -⟩ := List.getElem?_eq_some_iff.mp hinput
  rw [h.length_inputs] at hlt
  obtain ⟨socket, hresolved⟩ := h.inputSource?_of_getElem? hinput
  rw [hsource] at hresolved
  obtain ⟨⟨link, hlink, hslot, hfrom⟩, -⟩ := inputSource?_eq_fromLink hresolved
  obtain ⟨name', heq⟩ := inputSource?_of_link hvalid.writers hlink hslot hresolved
  obtain ⟨hends, hplace⟩ := Prod.mk.inj hslot
  obtain ⟨-, houtput, -⟩ := InputSource.fromLink.inj heq
  refine ⟨link, hlink, ?_⟩
  have hinput : link.input.toNat = d.input := by
    rw [hplace, UInt64.toNat_ofNat_of_lt' (Nat.lt_of_lt_of_le hlt hsmall)]
  rw [Link.dependency, hfrom, ← houtput, hends, hinput, ← h.id_eq, ← htarget]

/-- The dependencies of a plan are the links of the graph, each once. -/
theorem PlannedAs.dependencies_perm {plan : Plan} (h : g.PlannedAs plan) (hvalid : g.Valid)
    (hsmall : g.Addressable) : plan.dependencies.Perm (g.links.map Link.dependency) := by
  have hlinks : (g.links.map Link.dependency).Nodup := by
    refine List.Nodup.of_map Dependency.slot ?_
    have hslot : Dependency.slot ∘ Link.dependency = Link.slot := by
      funext link
      simp [Dependency.slot, Link.dependency, Link.slot]
    rw [List.map_map, hslot]
    exact hvalid.writers
  refine (List.perm_ext_iff_of_nodup (Plan.nodup_dependencies h.ordered.nodup) hlinks).mpr ?_
  intro d
  rw [Plan.mem_dependencies_iff, List.mem_map]
  constructor
  · rintro ⟨planned, hplanned, hd⟩
    obtain ⟨node, hnode, hresolves⟩ := h.resolved planned hplanned
    exact hresolves.exists_link_of_dependency hvalid (hsmall node hnode) hd
  · rintro ⟨link, hlink, rfl⟩
    obtain ⟨-, node, hnode, hid, -⟩ := hvalid.ends link hlink
    obtain ⟨planned, hplanned, hresolves⟩ := h.exists_resolves hnode
    have hinput := hresolves.exists_input_of_link h.nodup_nodeIds hvalid hnode hlink hid.symm
    exact ⟨planned, hplanned, PlannedNode.mem_dependencies_iff.mpr
      ⟨hid.symm.trans hresolves.id_eq.symm, hinput⟩⟩

/-- What a planned node reads from is in an earlier stage. -/
theorem PlannedAs.exists_earlier_stage {plan : Plan} (h : g.PlannedAs plan) {j : Nat}
    {stage : Stage} (hstage : plan.stages[j]? = some stage) {planned : PlannedNode}
    (hplanned : planned ∈ stage.nodes) {id : NodeId} (hid : id ∈ planned.feeders) :
    ∃ i < j, ∃ earlier, plan.stages[i]? = some earlier ∧ id ∈ earlier.nodeIds := by
  obtain ⟨hlt, rfl⟩ := List.getElem?_eq_some_iff.mp hstage
  have hsplit : plan.stages = plan.stages.take j ++ plan.stages[j] :: plan.stages.drop (j + 1) := by
    rw [List.getElem_cons_drop, List.take_append_drop]
  obtain ⟨feeder, hfeeder, rfl⟩ :=
    List.mem_map.mp (h.ordered.earlier _ _ _ hsplit planned hplanned id hid)
  obtain ⟨earlier, hearlier, hmem⟩ := List.mem_flatMap.mp hfeeder
  obtain ⟨i, hi, hget⟩ := List.mem_take_iff_getElem.mp hearlier
  have hbefore : i < j ∧ i < plan.stages.length := by omega
  exact ⟨i, hbefore.1, earlier, List.getElem?_eq_some_iff.mpr ⟨hbefore.2, hget⟩,
    List.mem_map_of_mem hmem⟩

section

variable {plan : Plan} (hperm : plan.dependencies.Perm (g.links.map Link.dependency))

include hperm

/-- A link is read from at the place where it ends. -/
theorem exists_input_of_dependencies {link : Link} (hlink : link ∈ g.links) :
    ∃ planned ∈ plan.nodes, planned.id = link.target ∧
      ∃ input, planned.inputs[link.input.toNat]? = some input ∧
        ∃ name, input.source = .fromLink link.source link.output name := by
  obtain ⟨planned, hplanned, hd⟩ := Plan.mem_dependencies_iff.mp
    (hperm.mem_iff.mpr (List.mem_map_of_mem hlink))
  obtain ⟨hid, hinput⟩ := PlannedNode.mem_dependencies_iff.mp hd
  exact ⟨planned, hplanned, hid.symm, hinput⟩

/-- An input that reads from a link stands for no other link. -/
theorem existsUnique_link_of_dependencies (hdistinct : plan.dependencies.Nodup)
    {planned : PlannedNode} (hplanned : planned ∈ plan.nodes) {place : Nat} {input : PlannedInput}
    (hinput : planned.inputs[place]? = some input) {source : NodeId} {output : UInt64}
    {name : String} (hsource : input.source = .fromLink source output name) :
    ∃! link, link ∈ g.links ∧ link.dependency = ⟨source, output, planned.id, place⟩ := by
  have hd : (⟨source, output, planned.id, place⟩ : Dependency) ∈ plan.dependencies :=
    Plan.mem_dependencies_iff.mpr ⟨planned, hplanned,
      PlannedNode.mem_dependencies_iff.mpr ⟨rfl, input, hinput, name, hsource⟩⟩
  obtain ⟨link, hlink, heq⟩ := List.mem_map.mp (hperm.mem_iff.mp hd)
  refine ⟨link, ⟨hlink, heq⟩, fun other hother => ?_⟩
  exact List.inj_on_of_nodup_map (hperm.nodup_iff.mp hdistinct) hother.1 hlink
    (hother.2.trans heq.symm)

end

/-- A planned node reads from the nodes that feed it. -/
theorem PlannedAs.mem_feeders_iff {plan : Plan} (h : g.PlannedAs plan) (hvalid : g.Valid)
    {planned : PlannedNode} (hplanned : planned ∈ plan.nodes) {id : NodeId} :
    id ∈ planned.feeders ↔ id ∈ g.feeders planned.id := by
  rw [h.feeders planned hplanned, Graph.mem_feeders_iff]
  constructor
  · rintro ⟨-, -, link, hlink, hsource, htarget⟩
    exact ⟨link, hlink, htarget, hsource⟩
  · rintro ⟨link, hlink, htarget, rfl⟩
    exact htarget ▸ hvalid.feeds hlink

/-- A plan loses no link and invents none: its inputs that read from links are the links of the
graph, each once and at the input where the link ends. So a planned node reads from the nodes that
feed it in the graph, and they are in earlier stages. -/
theorem plan_dependencies_exact {g : Graph} (hg : g.Reachable) (hsmall : g.Addressable)
    {plan : Plan} (h : g.plan = .ok plan) :
    plan.dependencies.Perm (g.links.map Link.dependency) ∧ plan.dependencies.Nodup ∧
      (∀ link ∈ g.links, ∃ planned ∈ plan.nodes, planned.id = link.target ∧
        ∃ input, planned.inputs[link.input.toNat]? = some input ∧
          ∃ name, input.source = .fromLink link.source link.output name) ∧
      (∀ planned ∈ plan.nodes, ∀ place input, planned.inputs[place]? = some input →
        ∀ source output name, input.source = .fromLink source output name →
          ∃! link, link ∈ g.links ∧ link.dependency = ⟨source, output, planned.id, place⟩) ∧
      (plan.nodes.map PlannedNode.id).Perm g.nodeIds ∧
      (∀ planned ∈ plan.nodes, ∀ id, id ∈ planned.feeders ↔ id ∈ g.feeders planned.id) ∧
      ∀ (j : Nat) (stage : Stage), plan.stages[j]? = some stage → ∀ planned ∈ stage.nodes,
        ∀ id ∈ planned.feeders,
          ∃ i < j, ∃ earlier, plan.stages[i]? = some earlier ∧ id ∈ earlier.nodeIds := by
  have hplanned := plannedAs_of_plan hg h
  have hnodup := hg.wellKept.nodup_nodeIds
  obtain ⟨hstaging, -⟩ := plan_eq_ok hnodup h
  obtain ⟨hvalid, -⟩ := (staging_eq_ok_iff hnodup).mp hstaging
  have hperm := hplanned.dependencies_perm hvalid hsmall
  have hdistinct := Plan.nodup_dependencies hplanned.ordered.nodup
  refine ⟨hperm, hdistinct, fun link hlink => exists_input_of_dependencies hperm hlink, ?_,
    hplanned.perm, fun planned hmem id => hplanned.mem_feeders_iff hvalid hmem, ?_⟩
  · intro planned hmem place input hinput source output name hsource
    exact existsUnique_link_of_dependencies hperm hdistinct hmem hinput hsource
  · intro j stage hstage planned hmem id hid
    exact hplanned.exists_earlier_stage hstage hmem hid

theorem diamond_dependencies_exact : diamondPlan.dependencies.Perm
    [⟨⟨1⟩, 0, ⟨2⟩, 0⟩, ⟨⟨1⟩, 0, ⟨3⟩, 0⟩, ⟨⟨2⟩, 0, ⟨4⟩, 0⟩, ⟨⟨3⟩, 0, ⟨4⟩, 1⟩] :=
  (plan_dependencies_exact diamond_reachable (by decide) plan_diamond).1

end Graph

end Dataflow
