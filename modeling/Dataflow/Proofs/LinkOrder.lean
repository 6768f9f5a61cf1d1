import Dataflow.Proofs.Planning

/-! # The order of links carries no meaning

Links are gone through in their order by validation, by layering and by planning. What is found does
not depend on it: who feeds whom is a matter of which links there are, and an input with one writer
has the same one wherever its link stands.
-/

namespace Dataflow

/-- What kind of thing is wrong. -/
inductive DefectKind where
  | danglingLink
  | multipleWriters
  | cycle
  deriving DecidableEq

namespace Defect

def kind : Defect → DefectKind
  | .danglingLink _ _ _ => .danglingLink
  | .multipleWriters _ _ _ => .multipleWriters
  | .cycle _ => .cycle

/-- The defects of one kind in their order. -/
def ofKind (defects : List Defect) (kind : DefectKind) : List Defect :=
  defects.filter (·.kind = kind)

theorem ofKind_append (defects defects' : List Defect) (kind : DefectKind) :
    ofKind (defects ++ defects') kind = ofKind defects kind ++ ofKind defects' kind :=
  List.filter_append ..

theorem ofKind_of_forall {defects : List Defect} {kind : DefectKind}
    (h : ∀ defect ∈ defects, defect.kind = kind) (other : DefectKind) :
    ofKind defects other = if kind = other then defects else [] := by
  split
  next heq => exact List.filter_eq_self.mpr fun defect hmem => by simp [h defect hmem, heq]
  next hne => exact List.filter_eq_nil_iff.mpr fun defect hmem => by simp [h defect hmem, hne]

/-- The same input is written by the same links, which may come in another order. -/
inductive SameContest : Defect → Defect → Prop
  | intro {node : NodeId} {input : UInt64} {links links' : List LinkId} (h : links.Perm links') :
      SameContest (.multipleWriters node input links) (.multipleWriters node input links')

/-- Two lists of defects agree up to the order in which links are gone through. Dangling ends and
contested inputs may come in another order, and the writers of an input as well. -/
structure SameUpToOrder (defects defects' : List Defect) : Prop where
  dangling : (ofKind defects .danglingLink).Perm (ofKind defects' .danglingLink)
  contested : ∃ contests, List.Forall₂ SameContest (ofKind defects .multipleWriters) contests ∧
    contests.Perm (ofKind defects' .multipleWriters)
  cycles : ofKind defects .cycle = ofKind defects' .cycle

end Defect

namespace Graph

/-- Two graphs have the same nodes in the same order, and the same links in some order. -/
structure Relinked (g g' : Graph) : Prop where
  nodes : g'.nodes = g.nodes
  links : g'.links.Perm g.links

variable {g g' : Graph}

/-! ### Defects by their kinds -/

theorem kind_of_mem_danglingEnds {link : Link} {defect : Defect}
    (h : defect ∈ g.danglingEnds link) : defect.kind = .danglingLink := by
  simp only [danglingEnds, List.mem_append, Option.mem_toList, Option.map_eq_some_iff] at h
  obtain ⟨reason, -, rfl⟩ | ⟨reason, -, rfl⟩ := h <;> rfl

theorem kind_of_mem_contestedInputs {defect : Defect} (h : defect ∈ g.contestedInputs) :
    defect.kind = .multipleWriters := by
  rw [contestedInputs_eq] at h
  obtain ⟨slot, -, hslot⟩ := List.mem_filterMap.mp h
  split at hslot
  · cases hslot
    rfl
  · cases hslot

theorem kind_of_mem_cycleDefects {defect : Defect} (h : defect ∈ g.cycleDefects) :
    defect.kind = .cycle := by
  unfold cycleDefects at h
  split at h
  · cases h
  · obtain rfl := List.mem_singleton.mp h
    rfl

theorem ofKind_validate (g : Graph) (kind : DefectKind) :
    Defect.ofKind g.validate kind = match kind with
      | .danglingLink => g.links.flatMap g.danglingEnds
      | .multipleWriters => g.contestedInputs
      | .cycle => g.cycleDefects := by
  have hdangling : ∀ defect ∈ g.links.flatMap g.danglingEnds, defect.kind = .danglingLink := by
    intro defect hmem
    obtain ⟨link, -, hmem⟩ := List.mem_flatMap.mp hmem
    exact kind_of_mem_danglingEnds hmem
  rw [validate, Defect.ofKind_append, Defect.ofKind_append, Defect.ofKind_of_forall hdangling,
    Defect.ofKind_of_forall fun _ => kind_of_mem_contestedInputs,
    Defect.ofKind_of_forall fun _ => kind_of_mem_cycleDefects]
  cases kind <;> simp

/-! ### One staging -/

/-- A stage has the nodes of its depth. -/
theorem StagedBy.mem_iff {s : Staging} (hs : g.StagedBy s) {i : Nat} {ids : List NodeId}
    (hids : s.stages[i]? = some ids) {id : NodeId} :
    id ∈ ids ↔ id ∈ g.nodeIds ∧ IsGreatest {n | StepsTo g.Feeds n id} i := by
  constructor
  · intro hid
    exact ⟨(hs.stages ids (List.mem_of_getElem? hids)).2.subset hid, hs.depth i ids hids id hid⟩
  · rintro ⟨hid, hdepth⟩
    obtain ⟨j, ids', hids', hid'⟩ := hs.exists_stage hid
    obtain rfl := (hs.depth j ids' hids' id hid').unique hdepth
    obtain rfl := Option.some.inj (hids.symm.trans hids')
    exact hid'

theorem StagedBy.getElem?_of_getElem? {s s' : Staging} (hg : g.nodeIds.Nodup) (hs : g.StagedBy s)
    (hs' : g.StagedBy s') {i : Nat} {ids : List NodeId} (hids : s.stages[i]? = some ids) :
    s'.stages[i]? = some ids := by
  obtain ⟨hne, hsublist⟩ := hs.stages ids (List.mem_of_getElem? hids)
  -- Some node has this depth, so the other staging has a stage of this number as well.
  obtain ⟨id, hid⟩ := List.exists_mem_of_ne_nil ids hne
  obtain ⟨j, ids', hids', hid'⟩ := hs'.exists_stage (hsublist.subset hid)
  obtain rfl := (hs'.depth j ids' hids' id hid').unique (hs.depth i ids hids id hid)
  obtain ⟨-, hsublist'⟩ := hs'.stages ids' (List.mem_of_getElem? hids')
  have hmem : ∀ id, id ∈ ids ↔ id ∈ ids' := by
    intro id
    rw [hs.mem_iff hids, hs'.mem_iff hids']
  have hperm := (List.perm_ext_iff_of_nodup (hg.sublist hsublist) (hg.sublist hsublist')).mpr hmem
  rw [hids', (hg.perm_iff_eq_of_sublist hsublist hsublist').mp hperm]

/-- There is only one way to stage a graph. -/
theorem StagedBy.unique {s s' : Staging} (hg : g.nodeIds.Nodup) (hs : g.StagedBy s)
    (hs' : g.StagedBy s') : s = s' := by
  have hstages : s.stages = s'.stages := by
    refine List.ext_getElem? fun i => Option.ext fun ids => ?_
    exact ⟨hs.getElem?_of_getElem? hg hs', hs'.getElem?_of_getElem? hg hs⟩
  cases s
  cases s'
  exact congrArg Staging.mk hstages

/-! ### Planning -/

theorem inputSources_congr (hsource : g'.inputSource? = g.inputSource?) (node : Node) (input : Nat)
    (sockets : List Socket) :
    g'.inputSources node input sockets = g.inputSources node input sockets := by
  induction sockets generalizing input with
  | nil => rfl
  | cons socket sockets ih => rw [inputSources, inputSources, hsource, ih]

theorem planNode_congr (hsource : g'.inputSource? = g.inputSource?) (node : Node) :
    g'.planNode node = g.planNode node := by
  rw [planNode, planNode, inputSources_congr hsource]

theorem planStage_congr (hnode : ∀ id, g'.node? id = g.node? id)
    (hsource : g'.inputSource? = g.inputSource?) (ids : List NodeId) :
    g'.planStage ids = g.planStage ids := by
  induction ids with
  | nil => rfl
  | cons id ids ih =>
      rw [planStage, planStage, hnode]
      cases g.node? id with
      | none => rfl
      | some node => simp only [planNode_congr hsource, ih]

/-- Planning sees no more of the links than where every input comes from. -/
theorem planStages_congr (hnode : ∀ id, g'.node? id = g.node? id)
    (hsource : g'.inputSource? = g.inputSource?) (index : Nat) (stages : List (List NodeId)) :
    g'.planStages index stages = g.planStages index stages := by
  induction stages generalizing index with
  | nil => rfl
  | cons ids stages ih =>
      rw [planStages, planStages, planStage_congr hnode hsource]
      simp only [ih]

/-! ### Two orders -/

namespace Relinked

theorem symm (h : Relinked g g') : Relinked g' g :=
  ⟨h.nodes.symm, h.links.symm⟩

theorem nodeIds_eq (h : Relinked g g') : g'.nodeIds = g.nodeIds := by
  rw [nodeIds, h.nodes, nodeIds]

theorem node?_eq (h : Relinked g g') (id : NodeId) : g'.node? id = g.node? id := by
  rw [node?, h.nodes, node?]

theorem feeds_eq (h : Relinked g g') : g'.Feeds = g.Feeds := by
  funext a b
  simp only [Feeds, h.nodeIds_eq, h.links.mem_iff]

/-! ### Defects of relinked graphs -/

theorem danglingEnds_eq (h : Relinked g g') : g'.danglingEnds = g.danglingEnds := by
  funext link
  simp only [danglingEnds, dangling?, h.node?_eq]

theorem dangling_perm (h : Relinked g g') :
    (g'.links.flatMap g'.danglingEnds).Perm (g.links.flatMap g.danglingEnds) := by
  rw [h.danglingEnds_eq]
  exact h.links.flatMap_right _

theorem writers_perm (h : Relinked g g') (slot : NodeId × UInt64) :
    (g'.writers slot).Perm (g.writers slot) :=
  (h.links.filter _).map _

theorem slots_perm (h : Relinked g g') :
    (g'.links.map Link.slot).eraseDups.Perm (g.links.map Link.slot).eraseDups := by
  refine (List.perm_ext_iff_of_nodup (nodup_eraseDups _) (nodup_eraseDups _)).mpr fun slot => ?_
  rw [List.mem_eraseDups, List.mem_eraseDups]
  exact (h.links.map Link.slot).mem_iff

theorem contested_same (h : Relinked g g') :
    ∃ contests, List.Forall₂ Defect.SameContest g'.contestedInputs contests ∧
      contests.Perm g.contestedInputs := by
  rw [contestedInputs_eq, contestedInputs_eq]
  refine ⟨_, ?_, h.slots_perm.filterMap _⟩
  refine List.rel_filterMap (R := Eq) ?_ (List.forall₂_eq_eq_eq ▸ rfl)
  rintro slot _ rfl
  have hwriters := h.writers_perm slot
  simp only [hwriters.length_eq]
  split
  · exact .some ⟨hwriters⟩
  · exact .none

theorem cyclicNodes_eq (h : Relinked g g') (hg : g.nodeIds.Nodup) :
    g'.cyclicNodes = g.cyclicNodes := by
  have hg' : g'.nodeIds.Nodup := h.nodeIds_eq ▸ hg
  have hsublist' : g'.cyclicNodes.Sublist g.nodeIds := h.nodeIds_eq ▸ g'.cyclicNodes_sublist
  refine (hg.perm_iff_eq_of_sublist hsublist' g.cyclicNodes_sublist).mp ?_
  refine (List.perm_ext_iff_of_nodup (hg.sublist hsublist')
    (hg.sublist g.cyclicNodes_sublist)).mpr fun id => ?_
  rw [mem_cyclicNodes_iff hg', mem_cyclicNodes_iff hg, h.feeds_eq]

theorem cycleDefects_eq (h : Relinked g g') (hg : g.nodeIds.Nodup) :
    g'.cycleDefects = g.cycleDefects := by
  rw [cycleDefects, h.cyclicNodes_eq hg, cycleDefects]

theorem validate_same (h : Relinked g g') (hg : g.nodeIds.Nodup) :
    Defect.SameUpToOrder g'.validate g.validate where
  dangling := by
    rw [ofKind_validate, ofKind_validate]
    exact h.dangling_perm
  contested := by
    rw [ofKind_validate, ofKind_validate]
    exact h.contested_same
  cycles := by
    rw [ofKind_validate, ofKind_validate]
    exact h.cycleDefects_eq hg

theorem valid_iff (h : Relinked g g') : g'.Valid ↔ g.Valid := by
  have hone {g g' : Graph} (h : Relinked g g') (hg : g.Valid) : g'.Valid := by
    refine ⟨fun link hlink => ?_, ?_, ?_⟩
    · simp only [HasOutput, HasInput, h.nodes]
      exact hg.ends link (h.links.mem_iff.mp hlink)
    · exact (h.links.map Link.slot).nodup_iff.mpr hg.writers
    · rw [h.feeds_eq]
      exact hg.acyclic
  exact ⟨hone h.symm, hone h⟩

/-! ### Plans -/

theorem stagedBy_iff (h : Relinked g g') {s : Staging} : g'.StagedBy s ↔ g.StagedBy s := by
  constructor <;> rintro ⟨hnodup, hperm, hstages, hdepth⟩
  · rw [h.feeds_eq] at hdepth
    rw [h.nodeIds_eq] at hperm hstages
    exact ⟨hnodup, hperm, hstages, hdepth⟩
  · rw [← h.feeds_eq] at hdepth
    rw [← h.nodeIds_eq] at hperm hstages
    exact ⟨hnodup, hperm, hstages, hdepth⟩

theorem staging_eq (h : Relinked g g') (hg : g.nodeIds.Nodup) (hvalid : g.Valid) :
    g'.staging = g.staging := by
  have hg' : g'.nodeIds.Nodup := h.nodeIds_eq ▸ hg
  have hvalid' := h.valid_iff.mpr hvalid
  have hstaged := stagedBy_layering hg hvalid.acyclic
  have hstaged' := h.stagedBy_iff.mp (stagedBy_layering hg' hvalid'.acyclic)
  rw [(staging_eq_ok_iff hg).mpr ⟨hvalid, rfl⟩]
  exact (staging_eq_ok_iff hg').mpr ⟨hvalid', hstaged.unique hg hstaged'⟩

theorem incomingLink?_eq (h : Relinked g g') (hwriters : (g.links.map Link.slot).Nodup)
    (id : NodeId) (input : UInt64) : g'.incomingLink? id input = g.incomingLink? id input := by
  have hwriters' := (h.links.map Link.slot).nodup_iff.mpr hwriters
  ext link
  rw [incomingLink?_eq_some_iff hwriters', incomingLink?_eq_some_iff hwriters, h.links.mem_iff]

theorem inputSource?_eq (h : Relinked g g') (hwriters : (g.links.map Link.slot).Nodup) :
    g'.inputSource? = g.inputSource? := by
  funext node socket input
  simp only [inputSource?, h.incomingLink?_eq hwriters, outputSocket?, h.node?_eq]

theorem plan_eq (h : Relinked g g') (hg : g.nodeIds.Nodup) (hvalid : g.Valid) :
    g'.plan = g.plan := by
  rw [Graph.plan, Graph.plan, h.staging_eq hg hvalid]
  simp only [planStages_congr h.node?_eq (h.inputSource?_eq hvalid.writers)]

end Relinked

/-- Two graphs with the same nodes, and with the same links in whatever order, have the same plan or
the same missing inputs. Otherwise both have the same defects up to the order in which links are
gone through, and in particular the same cycles. -/
theorem plan_link_order {g g' : Graph} (hg : g.Reachable) (hnodes : g'.nodes = g.nodes)
    (hlinks : g'.links.Perm g.links) :
    (∀ plan, g.plan = .ok plan ↔ g'.plan = .ok plan) ∧
      (∀ missing, g.plan = .error (.missingInputs missing) ↔
        g'.plan = .error (.missingInputs missing)) ∧
      ∀ defects, g.plan = .error (.structural defects) →
        ∃ defects', g'.plan = .error (.structural defects') ∧
          Defect.SameUpToOrder defects defects' := by
  have h : Relinked g g' := ⟨hnodes, hlinks⟩
  have hnodup := hg.wellKept.nodup_nodeIds
  have hnodup' : g'.nodeIds.Nodup := h.nodeIds_eq ▸ hnodup
  by_cases hvalidate : g.validate = []
  · have hplan := h.plan_eq hnodup ((validate_eq_nil_iff hnodup).mp hvalidate)
    refine ⟨fun plan => by rw [hplan], fun missing => by rw [hplan], fun defects hdefects => ?_⟩
    obtain ⟨rfl, hne⟩ := (plan_eq_structural_iff hnodup).mp hdefects
    exact absurd hvalidate hne
  · have hplan := (plan_eq_structural_iff hnodup).mpr ⟨rfl, hvalidate⟩
    have hvalidate' : g'.validate ≠ [] := by
      rwa [Ne, validate_eq_nil_iff hnodup', h.valid_iff, ← validate_eq_nil_iff hnodup]
    have hplan' := (plan_eq_structural_iff hnodup').mpr ⟨rfl, hvalidate'⟩
    refine ⟨fun plan => by simp [hplan, hplan'], fun missing => by simp [hplan, hplan'],
      fun defects hdefects => ⟨g'.validate, hplan', ?_⟩⟩
    obtain ⟨rfl, -⟩ := (plan_eq_structural_iff hnodup).mp hdefects
    exact h.symm.validate_same hnodup'

/-- The graph with its links in the opposite order. -/
def reversed (g : Graph) : Graph :=
  { g with links := g.links.reverse }

/-- The plan of the diamond and the nodes on and between the cycles of another graph are found from
the last link to the first as well. -/
theorem plan_link_order_reversed : diamond.reversed.plan = .ok diamondPlan ∧
    ∃ defects, loops.reversed.plan = .error (.structural defects) ∧
      Defect.ofKind defects .cycle = [.cycle [⟨1⟩, ⟨2⟩, ⟨3⟩]] := by
  have hloops : loops.plan = .error (.structural [.cycle [⟨1⟩, ⟨2⟩, ⟨3⟩]]) := by cbv
  have hnodes (g : Graph) : g.reversed.nodes = g.nodes := rfl
  have hlinks (g : Graph) : g.reversed.links.Perm g.links := List.reverse_perm _
  obtain ⟨hplan, -, -⟩ := plan_link_order diamond_reachable (hnodes diamond) (hlinks diamond)
  obtain ⟨-, -, hdefects⟩ := plan_link_order loops_reachable (hnodes loops) (hlinks loops)
  obtain ⟨defects, hdefects, hsame⟩ := hdefects _ hloops
  exact ⟨(hplan _).mp plan_diamond, defects, hdefects, hsame.cycles.symm⟩

end Graph

end Dataflow
