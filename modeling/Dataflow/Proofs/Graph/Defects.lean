import Dataflow.Proofs.Graph.Validity

/-! # The list of defects

Whatever is wrong with a graph, its defects are found all at once and each of them once. Ends that
dangle come in the order of the links, with what is wrong with them; inputs with several writers in
the order of the first one, with all of them; and a cycle comes last.
-/

namespace Dataflow

open Relation

namespace LinkEnd

/-- The node that a link names at an end. -/
def node : LinkEnd → Link → NodeId
  | .source, link => link.source
  | .target, link => link.target

/-- The place of the socket that a link names at an end. -/
def index : LinkEnd → Link → UInt64
  | .source, link => link.output
  | .target, link => link.input

/-- The sockets of a node for an end. -/
def sockets : LinkEnd → Node → List Socket
  | .source, node => node.outputs
  | .target, node => node.inputs

end LinkEnd

namespace Graph

/-- What is wrong with an end of a link. -/
inductive Dangles (g : Graph) (link : Link) (linkEnd : LinkEnd) : DanglingReason → Prop
  | missing (hnode : linkEnd.node link ∉ g.nodeIds) :
      Dangles g link linkEnd (.missingNode (linkEnd.node link))
  | outOfRange {node : Node} (hnode : node ∈ g.nodes) (hid : node.id = linkEnd.node link)
      (hrange : (linkEnd.sockets node).length ≤ (linkEnd.index link).toNat) :
      Dangles g link linkEnd
        (.socketOutOfRange (linkEnd.node link) (linkEnd.index link) (linkEnd.sockets node).length)

variable {g : Graph}

/-! ### Dangling ends -/

/-- What is found at an end of a link. -/
def danglingEnd? (g : Graph) (link : Link) (linkEnd : LinkEnd) : Option DanglingReason :=
  g.dangling? (fun node => (linkEnd.sockets node).length) (linkEnd.node link) (linkEnd.index link)

theorem danglingEnd?_eq_some_iff (hg : g.nodeIds.Nodup) {link : Link} {linkEnd : LinkEnd}
    {reason : DanglingReason} :
    g.danglingEnd? link linkEnd = some reason ↔ g.Dangles link linkEnd reason := by
  unfold danglingEnd? dangling?
  cases hnode : g.node? (linkEnd.node link) with
  | none =>
      have hmissing := node?_eq_none_iff.mp hnode
      constructor
      · intro h
        obtain rfl := Option.some.inj h
        exact .missing hmissing
      · intro h
        cases h with
        | missing => rfl
        | outOfRange hmem hid =>
            rw [← hid] at hmissing
            exact absurd (List.mem_map_of_mem hmem) hmissing
  | some node =>
      obtain ⟨hmem, hid⟩ := (node?_eq_some_iff hg).mp hnode
      constructor
      · intro h
        dsimp only at h
        split at h
        · cases h
        next hrange =>
          obtain rfl := Option.some.inj h
          exact .outOfRange hmem hid (Nat.le_of_not_lt hrange)
      · intro h
        cases h with
        | missing hmissing =>
            rw [← hid] at hmissing
            exact absurd (List.mem_map_of_mem hmem) hmissing
        | @outOfRange other hother hotherId hrange =>
            obtain rfl := List.inj_on_of_nodup_map hg hmem hother (hid.trans hotherId.symm)
            exact if_neg (Nat.not_lt.mpr hrange)

theorem danglingEnds_eq (g : Graph) (link : Link) :
    g.danglingEnds link = [LinkEnd.source, .target].filterMap fun linkEnd =>
      (g.danglingEnd? link linkEnd).map (.danglingLink link.id linkEnd) := by
  change ((g.danglingEnd? link .source).map _).toList ++
    ((g.danglingEnd? link .target).map _).toList = _
  cases hsource : g.danglingEnd? link .source <;> cases htarget : g.danglingEnd? link .target <;>
    simp [hsource, htarget]

theorem mem_danglingEnds_iff {link : Link} {defect : Defect} :
    defect ∈ g.danglingEnds link ↔ ∃ linkEnd reason, g.danglingEnd? link linkEnd = some reason ∧
      .danglingLink link.id linkEnd reason = defect := by
  rw [danglingEnds_eq, List.mem_filterMap]
  constructor
  · rintro ⟨linkEnd, -, h⟩
    obtain ⟨reason, hreason, rfl⟩ := Option.map_eq_some_iff.mp h
    exact ⟨linkEnd, reason, hreason, rfl⟩
  · rintro ⟨linkEnd, reason, hreason, rfl⟩
    exact ⟨linkEnd, by cases linkEnd <;> simp, Option.map_eq_some_iff.mpr ⟨reason, hreason, rfl⟩⟩

theorem nodup_danglingEnds (g : Graph) (link : Link) : (g.danglingEnds link).Nodup := by
  rw [danglingEnds_eq]
  refine List.Nodup.filterMap ?_ (by decide)
  intro linkEnd linkEnd' defect h h'
  obtain ⟨reason, -, rfl⟩ := Option.map_eq_some_iff.mp h
  obtain ⟨reason', -, heq⟩ := Option.map_eq_some_iff.mp h'
  cases heq
  rfl

/-- No end is reported twice, since no two links have the same id. -/
theorem nodup_flatMap_danglingEnds (hg : g.linkIds.Nodup) :
    (g.links.flatMap g.danglingEnds).Nodup := by
  refine List.nodup_flatMap.mpr ⟨fun link _ => g.nodup_danglingEnds link, ?_⟩
  refine (List.pairwise_map.mp hg).imp fun hne defect h h' => ?_
  obtain ⟨linkEnd, reason, -, rfl⟩ := mem_danglingEnds_iff.mp h
  obtain ⟨linkEnd', reason', -, heq⟩ := mem_danglingEnds_iff.mp h'
  exact hne (Defect.danglingLink.inj heq).1.symm

/-! ### Contested inputs -/

/-- The inputs with several writers, in the order of the first link to each. -/
def contestedSlots (g : Graph) : List (NodeId × UInt64) :=
  (g.links.map Link.slot).eraseDups.filter fun slot => 1 < (g.writers slot).length

theorem contestedInputs_eq_map (g : Graph) :
    g.contestedInputs = g.contestedSlots.map fun slot =>
      .multipleWriters slot.1 slot.2 (g.writers slot) := by
  rw [contestedInputs_eq, contestedSlots]
  generalize (g.links.map Link.slot).eraseDups = slots
  rw [← List.filterMap_eq_map, List.filterMap_filter]
  simp

theorem mem_contestedSlots_iff {slot : NodeId × UInt64} :
    slot ∈ g.contestedSlots ↔ 2 ≤ g.links.countP (·.slot = slot) := by
  have hcount : (g.writers slot).length = g.links.countP (·.slot = slot) := by
    rw [writers, List.length_map, List.countP_eq_length_filter]
  rw [contestedSlots, List.mem_filter, List.mem_eraseDups, decide_eq_true_iff, hcount]
  refine ⟨fun h => h.2, fun h => ⟨?_, h⟩⟩
  obtain ⟨link, hlink, hslot⟩ := List.countP_pos_iff.mp (Nat.zero_lt_of_lt h)
  exact List.mem_map.mpr ⟨link, hlink, of_decide_eq_true hslot⟩

theorem pairwise_contestedSlots (g : Graph) :
    g.contestedSlots.Pairwise fun slot slot' =>
      (g.links.map Link.slot).idxOf slot < (g.links.map Link.slot).idxOf slot' :=
  (pairwise_idxOf_eraseDups _).filter _

theorem nodup_contestedInputs (g : Graph) : g.contestedInputs.Nodup := by
  rw [contestedInputs_eq_map]
  refine ((nodup_eraseDups _).filter _).map fun slot slot' heq => ?_
  obtain ⟨hnode, hinput, -⟩ := Defect.multipleWriters.inj heq
  exact Prod.ext hnode hinput

/-! ### All defects -/

/-- There is one report of cycles if there is a cycle, and none otherwise. -/
theorem cycleDefects_cases (hg : g.nodeIds.Nodup) :
    (g.cycleDefects = [] ∧ ∀ id, ¬ TransGen g.Feeds id id) ∨
      ∃ ids, g.cycleDefects = [.cycle ids] ∧ ∃ id, TransGen g.Feeds id id := by
  have hnone := cyclicNodes_eq_nil_iff hg
  by_cases hnil : g.cyclicNodes = []
  · exact .inl ⟨by simp [cycleDefects, hnil], hnone.mp hnil⟩
  · refine .inr ⟨g.cyclicNodes, by simp [cycleDefects, hnil], ?_⟩
    by_contra hacyclic
    exact hnil (hnone.mpr fun id hcycle => hacyclic ⟨id, hcycle⟩)

/-- Nothing is reported twice, whatever is wrong. -/
theorem nodup_validate (hg : g.WellKept) : g.validate.Nodup := by
  rw [validate, List.nodup_append, List.nodup_append]
  refine ⟨⟨nodup_flatMap_danglingEnds hg.nodup_linkIds, g.nodup_contestedInputs, ?_⟩, ?_, ?_⟩
  · intro defect hdangling other hcontested
    obtain ⟨link, -, hdangling⟩ := List.mem_flatMap.mp hdangling
    obtain ⟨linkEnd, reason, -, rfl⟩ := mem_danglingEnds_iff.mp hdangling
    rw [contestedInputs_eq_map] at hcontested
    obtain ⟨slot, -, rfl⟩ := List.mem_map.mp hcontested
    simp
  · unfold cycleDefects
    split <;> simp
  · intro defect hdefect other hcycle
    obtain ⟨hnil, -⟩ | ⟨ids, hids, -⟩ := cycleDefects_cases hg.nodup_nodeIds
    · rw [hnil] at hcycle
      cases hcycle
    · obtain rfl := List.mem_singleton.mp (hids ▸ hcycle)
      rintro rfl
      rcases List.mem_append.mp hdefect with hdangling | hcontested
      · obtain ⟨link, -, hdangling⟩ := List.mem_flatMap.mp hdangling
        exact cycle_not_mem_danglingEnds hdangling
      · exact cycle_not_mem_contestedInputs hcontested

/-- The ends that dangle are in the list, and what is wrong with them. -/
theorem danglingLink_mem_validate_iff (hg : g.nodeIds.Nodup) {id : LinkId} {linkEnd : LinkEnd}
    {reason : DanglingReason} :
    .danglingLink id linkEnd reason ∈ g.validate ↔
      ∃ link ∈ g.links, link.id = id ∧ g.Dangles link linkEnd reason := by
  have hcontested : .danglingLink id linkEnd reason ∉ g.contestedInputs := by
    simp [contestedInputs_eq_map]
  have hcycle : .danglingLink id linkEnd reason ∉ g.cycleDefects := by
    unfold cycleDefects
    split <;> simp
  rw [validate, List.mem_append, List.mem_append, or_iff_left hcycle, or_iff_left hcontested,
    List.mem_flatMap]
  refine exists_congr fun link => and_congr_right fun _ => ?_
  rw [mem_danglingEnds_iff, ← danglingEnd?_eq_some_iff hg]
  constructor
  · rintro ⟨linkEnd, reason, hreason, heq⟩
    cases heq
    exact ⟨rfl, hreason⟩
  · rintro ⟨rfl, hreason⟩
    exact ⟨linkEnd, reason, hreason, rfl⟩

/-- Every defect is in the list once, and the list is in a fixed order. For every link its two ends
come one after the other, each if it dangles and with what is wrong with it. Every input that at
least two links write to follows, whether it exists or not, by its first link and with all its links
in their order. If there is a cycle, one report of it is the last. -/
theorem validate_exact (hg : g.Reachable) :
    ∃ (reason? : Link → LinkEnd → Option DanglingReason) (slots : List (NodeId × UInt64))
      (cycles : List Defect),
      g.validate =
          (g.links.flatMap fun link => [LinkEnd.source, .target].filterMap fun linkEnd =>
            (reason? link linkEnd).map (.danglingLink link.id linkEnd)) ++
          (slots.map fun slot => .multipleWriters slot.1 slot.2
            ((g.links.filter (·.slot = slot)).map Link.id)) ++
          cycles ∧
        (∀ link linkEnd reason,
          reason? link linkEnd = some reason ↔ g.Dangles link linkEnd reason) ∧
        (∀ slot, slot ∈ slots ↔ 2 ≤ g.links.countP (·.slot = slot)) ∧
        (slots.Pairwise fun slot slot' =>
          (g.links.map Link.slot).idxOf slot < (g.links.map Link.slot).idxOf slot') ∧
        ((cycles = [] ∧ ∀ id, ¬ TransGen g.Feeds id id) ∨
          ∃ ids, cycles = [.cycle ids] ∧ ∃ id, TransGen g.Feeds id id) ∧
        g.validate.Nodup := by
  have hkept := hg.wellKept
  refine ⟨g.danglingEnd?, g.contestedSlots, g.cycleDefects, ?_, ?_, ?_, g.pairwise_contestedSlots,
    cycleDefects_cases hkept.nodup_nodeIds, nodup_validate hkept⟩
  · rw [validate, contestedInputs_eq_map, funext g.danglingEnds_eq]
    rfl
  · intro link linkEnd reason
    exact danglingEnd?_eq_some_iff hkept.nodup_nodeIds
  · intro slot
    exact mem_contestedSlots_iff

/-- Two nodes that feed each other, with a second link to one input, a link from an output that does
not exist, and two links to an input of a node that does not exist. -/
def tangled : Graph :=
  let nodes := (empty.withNode ["a"]).withNode ["a", "b"]
  let links := ((nodes.withLink ⟨1⟩ ⟨2⟩ 0).withLink ⟨2⟩ ⟨1⟩ 0).withLink ⟨1⟩ ⟨2⟩ 0
  (((links.connect ⟨1⟩ 5 ⟨2⟩ 1).2.withLink ⟨2⟩ ⟨9⟩ 0).withLink ⟨1⟩ ⟨9⟩ 0)

theorem tangled_reachable : tangled.Reachable := by
  iterate 2 refine Reachable.withLink ?_ (by decide)
  refine Reachable.edited ?_ (.connect _ _ _ _ _ (by decide))
  iterate 3 refine Reachable.withLink ?_ (by decide)
  iterate 2 refine Reachable.withNode ?_ (by decide)
  exact .empty

theorem validate_tangled : tangled.validate =
    [.danglingLink ⟨4⟩ .source (.socketOutOfRange ⟨1⟩ 5 1),
      .danglingLink ⟨5⟩ .target (.missingNode ⟨9⟩), .danglingLink ⟨6⟩ .target (.missingNode ⟨9⟩),
      .multipleWriters ⟨2⟩ 0 [⟨1⟩, ⟨3⟩], .multipleWriters ⟨9⟩ 0 [⟨5⟩, ⟨6⟩],
      .cycle [⟨1⟩, ⟨2⟩]] := by
  cbv

theorem validate_exact_tangled :
    tangled.validate.Nodup ∧ ∃ id, TransGen tangled.Feeds id id := by
  obtain ⟨reason?, slots, cycles, hvalidate, -, -, -, hcycles, hnodup⟩ :=
    validate_exact tangled_reachable
  refine ⟨hnodup, ?_⟩
  obtain ⟨rfl, -⟩ | ⟨ids, -, hcycle⟩ := hcycles
  · have hmem : .cycle [⟨1⟩, ⟨2⟩] ∈ tangled.validate := by simp [validate_tangled]
    rw [hvalidate] at hmem
    simp at hmem
  · exact hcycle

end Graph

end Dataflow
