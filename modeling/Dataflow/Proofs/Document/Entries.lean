import Dataflow.Document.Format
import Dataflow.Proofs.Json.Readers
import Dataflow.Proofs.Json.Records

/-! # Reading documents back

Whatever is written of a document is read back, in whatever order its fields stand, as long as the
values of its nodes nest no deeper than their source allows.
-/

namespace Dataflow.Document

open Json (Reader Field Fields Source Scan Arrangement)
open Json.Fields (Tuple.cons Tuple.nil)

variable {source : Source} (arrangement : Arrangement)

theorem FunctionEntry.reader_apply_toJson (h : source.Admits 1) (entry : FunctionEntry) :
    reader source (.ofJson (arrangement.apply entry.toJson)) = .ok entry := by
  obtain ⟨inner, henter, -⟩ := h.exists_enter
  refine Reader.map_eq_ok_iff.mpr
    ⟨Tuple.cons entry.filePath (Tuple.cons entry.functionName Tuple.nil), ?_, rfl⟩
  refine (Reader.record_apply_object_eq_ok_iff arrangement (by simp) henter).mpr ?_
  simp [Fields.reads_cons_iff, Fields.reads_nil]

theorem SocketEntry.reader_apply_toJson (h : source.Admits 2) (entry : SocketEntry) :
    reader source (.ofJson (arrangement.apply entry.toJson)) = .ok entry := by
  obtain ⟨inner, henter, hinner⟩ := h.exists_enter
  obtain ⟨innermost, hlinks, -⟩ := hinner.exists_enter
  have hids (ids : List UInt64) :
      (Reader.list Reader.uint64).optional inner
        (.ofJson (arrangement.apply (.array (ids.map .ofUInt64)))) = .ok (some ids) := by
    have hlist : Reader.uint64.list inner
        (.ofJson (arrangement.apply (.array (ids.map .ofUInt64)))) = .ok ids :=
      Reader.list_apply_array arrangement hlinks fun id _ => by simp
    rw [Reader.optional_eq_map (by simp [arrangement.apply_array, Scan.ofJson]), hlist]
    rfl
  refine Reader.map_eq_ok_iff.mpr
    ⟨Tuple.cons entry.name (Tuple.cons entry.socketType (Tuple.cons entry.link
      (Tuple.cons entry.links Tuple.nil))), ?_, rfl⟩
  refine (Reader.record_apply_object_eq_ok_iff arrangement ?_ henter).mpr ?_
  · simp only [List.map_append, List.map_cons]
    have hsublist := (((Json.map_fst_field?_sublist "type" .string entry.socketType).cons_cons
      "name").append (Json.map_fst_field?_sublist "link" .ofUInt64 entry.link)).append
      (Json.map_fst_field?_sublist "links" (fun ids => .array (ids.map .ofUInt64)) entry.links)
    exact List.Nodup.sublist hsublist (by decide)
  · simp [Fields.reads_cons_iff, Fields.reads_field?_iff, Field.absentFrom_scans_field?,
      Fields.reads_field?_last_iff, hids]

theorem NodeType.reader_apply_toJson (source : Source) (type : NodeType) :
    reader source (.ofJson (arrangement.apply type.toJson)) = .ok type := by
  rw [NodeType.toJson, arrangement.apply_string]
  cases type <;> rfl

/-- A node is read back just when its source allows the depth of its values. -/
theorem NodeEntry.reader_apply_toJson_eq_ok_iff (h : source.Admits 4)
    {entry entry' : NodeEntry} :
    reader source (.ofJson (arrangement.apply entry.toJson)) = .ok entry' ↔
      source.Admits ((Json.ofMap entry.widgetParameter).depth + 1) ∧ entry' = entry := by
  obtain ⟨inner, henter, hinner⟩ := h.exists_enter
  obtain ⟨innermost, hsockets, hinnermost⟩ := hinner.exists_enter
  have hlist (entries : List SocketEntry) :
      (Reader.list SocketEntry.reader) inner
        (.ofJson (arrangement.apply (.array (entries.map SocketEntry.toJson)))) = .ok entries :=
    Reader.list_apply_array arrangement hsockets fun entry _ =>
      SocketEntry.reader_apply_toJson arrangement hinnermost entry
  have hproperties := FunctionEntry.reader_apply_toJson arrangement
    (hinner.mono (by decide)) entry.properties
  have htype := NodeType.reader_apply_toJson arrangement inner entry.nodeType
  have hmap : (Fields.cons (.withDefault "widgetParameter" (Reader.keyMap Reader.datum) .empty)
      .nil).Reads inner (arrangement.scans (if entry.widgetParameter.isEmpty then []
        else [("widgetParameter", .ofMap entry.widgetParameter)]))
        (Tuple.cons entry'.widgetParameter Tuple.nil) ↔
      inner.Admits (Json.ofMap entry.widgetParameter).depth ∧
        entry'.widgetParameter = entry.widgetParameter := by
    refine Fields.reads_unlessEmpty_iff arrangement (fun hempty => ?_) ?_
    · rw [hempty]
      exact hinner.mono (by decide)
    · rw [arrangement.apply_ofMap]
      exact Reader.keyMap_datum_ofMap_eq_ok_iff
  rw [reader, Reader.map_eq_ok_iff_of_inverse (g := fun entry => Tuple.cons entry.id
    (Tuple.cons entry.nodeType (Tuple.cons entry.properties (Tuple.cons entry.inputs
      (Tuple.cons entry.outputs (Tuple.cons entry.widgetParameter Tuple.nil))))))
    (fun _ => rfl) (fun _ => rfl)]
  refine (Reader.record_apply_object_eq_ok_iff arrangement ?_ henter).trans ?_
  · split <;> simp
  · refine Iff.trans (b := entry.id = entry'.id ∧ entry.nodeType = entry'.nodeType ∧
      entry.properties = entry'.properties ∧ entry.inputs = entry'.inputs ∧
      entry.outputs = entry'.outputs ∧ inner.Admits (Json.ofMap entry.widgetParameter).depth ∧
      entry'.widgetParameter = entry.widgetParameter)
      (by simp [Fields.reads_cons_iff, hlist, hproperties, htype, hmap,
        Field.absentFrom_scans_unless]) ?_
    rw [Source.admits_succ_of_enter henter]
    constructor
    · rintro ⟨hid, htype, hproperties, hinputs, houtputs, hadmits, hvalues⟩
      cases entry'
      cases hid; cases htype; cases hproperties; cases hinputs; cases houtputs; cases hvalues
      exact ⟨hadmits, rfl⟩
    · rintro ⟨hadmits, rfl⟩
      exact ⟨rfl, rfl, rfl, rfl, rfl, hadmits, rfl⟩

theorem LinkEntry.typeOf_ofOption (linkType : Option String) :
    typeOf (Json.ofOption .string linkType) = linkType := by
  cases linkType <;> rfl

theorem LinkEntry.ordered_toJson (entry : LinkEntry) : entry.toJson.Ordered := by
  refine Json.Ordered.array fun item hitem => ?_
  simp only [List.mem_cons, List.not_mem_nil, or_false] at hitem
  rcases hitem with rfl | rfl | rfl | rfl | rfl | rfl
  case inr.inr.inr.inr.inr => cases entry.linkType <;> rfl
  all_goals rfl

theorem LinkEntry.depth_toJson (entry : LinkEntry) : entry.toJson.depth = 1 := by
  have htype : (Json.ofOption .string entry.linkType).depth = 0 := by
    cases entry.linkType <;> rfl
  simp [LinkEntry.toJson, Json.depth, Json.depthOfItems, Json.ofUInt64, htype]

theorem LinkEntry.reader_apply_toJson (h : source.Admits 1) (entry : LinkEntry) :
    reader source (.ofJson (arrangement.apply entry.toJson)) = .ok entry := by
  rw [arrangement.apply_of_ordered _ entry.ordered_toJson]
  have hvalue := Json.toJson_ofJson_eq_ok_iff.mpr ⟨entry.depth_toJson ▸ h, rfl⟩
  refine Reader.oneOf_eq_ok_of_first hvalue ?_
  have htype : Reader.json .buffer (.ofJson (Json.ofOption .string entry.linkType)) =
      .ok (Json.ofOption .string entry.linkType) := by
    cases entry.linkType <;> rfl
  refine Reader.map_eq_ok_iff.mpr ⟨Tuple.cons entry.id (Tuple.cons entry.source (Tuple.cons
    entry.output (Tuple.cons entry.target (Tuple.cons entry.input (Tuple.cons
      (Json.ofOption .string entry.linkType) Tuple.nil))))), Reader.tuple_array rfl ?_, ?_⟩
  · exact Fields.readItems_cons (Reader.uint64_ofUInt64 _) <|
      Fields.readItems_cons (Reader.uint64_ofUInt64 _) <|
      Fields.readItems_cons (Reader.index_ofUInt64 _) <|
      Fields.readItems_cons (Reader.uint64_ofUInt64 _) <|
      Fields.readItems_cons (Reader.index_ofUInt64 _) <|
      Fields.readItems_cons htype rfl
  · exact congrArg (LinkEntry.mk _ _ _ _ _) (typeOf_ofOption _)

/-- The links of a document are read back. -/
theorem LinkEntry.listReader_apply_toJson (h : source.Admits 2) (entries : List LinkEntry) :
    listReader source
      (.ofJson (arrangement.apply (.array (entries.map LinkEntry.toJson)))) = .ok entries := by
  have hordered : (Json.array (entries.map LinkEntry.toJson)).Ordered :=
    Json.Ordered.array (List.forall_mem_map.mpr fun entry _ => entry.ordered_toJson)
  have hdepth : (Json.array (entries.map LinkEntry.toJson)).depth ≤ 2 := by
    refine Nat.succ_le_succ (Json.depthOfItems_le_iff.mpr (List.forall_mem_map.mpr ?_))
    exact fun entry _ => Nat.le_of_eq entry.depth_toJson
  have hvalue := Json.toJson_ofJson_eq_ok_iff.mpr ⟨h.mono hdepth, rfl⟩
  have hbuffer : Source.buffer.Admits 1 := trivial
  have hlist : Reader.list reader .buffer
      (.ofJson (arrangement.apply (.array (entries.map LinkEntry.toJson)))) = .ok entries :=
    Reader.list_apply_array arrangement rfl fun entry _ =>
      LinkEntry.reader_apply_toJson arrangement hbuffer entry
  rw [arrangement.apply_of_ordered _ hordered] at hlist ⊢
  refine Reader.map_eq_ok_iff.mpr ⟨some entries, ?_, rfl⟩
  rw [Reader.optional_eq_map (by simp [Scan.ofJson]), Reader.oneOf_eq_ok_of_first hvalue hlist]
  rfl

/-- A document is read back just when its source allows the depth of its values. -/
theorem reader_apply_toJson_eq_ok_iff (h : source.Admits 6) {d d' : Document} :
    reader source (.ofJson (arrangement.apply d.toJson)) = .ok d' ↔
      (∀ node ∈ d.nodes, source.Admits ((Json.ofMap node.widgetParameter).depth + 3)) ∧
        d' = d := by
  obtain ⟨inner, henter, hinner⟩ := h.exists_enter
  obtain ⟨innermost, hnodes, hinnermost⟩ := hinner.exists_enter
  have hlinks := LinkEntry.listReader_apply_toJson arrangement (hinner.mono (by decide)) d.links
  have hlist : (Reader.list NodeEntry.reader) inner
      (.ofJson (arrangement.apply (.array (d.nodes.map NodeEntry.toJson)))) = .ok d'.nodes ↔
        (∀ node ∈ d.nodes, innermost.Admits ((Json.ofMap node.widgetParameter).depth + 1)) ∧
          d'.nodes = d.nodes :=
    Reader.list_apply_array_eq_ok_iff arrangement hnodes fun _ _ _ =>
      NodeEntry.reader_apply_toJson_eq_ok_iff arrangement hinnermost
  rw [reader, Reader.map_eq_ok_iff_of_inverse (g := fun d => Tuple.cons d.lastNodeId
    (Tuple.cons d.lastLinkId (Tuple.cons d.nodes (Tuple.cons d.links Tuple.nil))))
    (fun _ => rfl) (fun _ => rfl)]
  refine (Reader.record_apply_object_eq_ok_iff arrangement ?_ henter).trans ?_
  · simp only [List.map_append, List.map_cons, List.map_nil]
    have hsublist := ((Json.map_fst_field?_sublist "last_node_id" .ofUInt64 d.lastNodeId).append
      (Json.map_fst_field?_sublist "last_link_id" .ofUInt64 d.lastLinkId)).append
      (List.Sublist.refl ["nodes", "links"])
    exact List.Nodup.sublist hsublist (by decide)
  · refine Iff.trans (b := d'.lastNodeId = d.lastNodeId ∧ d'.lastLinkId = d.lastLinkId ∧
      ((∀ node ∈ d.nodes, innermost.Admits ((Json.ofMap node.widgetParameter).depth + 1)) ∧
        d'.nodes = d.nodes) ∧ d.links = d'.links)
      (by simp [Fields.reads_cons_iff, Fields.reads_field?_iff, Field.absentFrom_scans_field?,
        hlist, hlinks, Fields.reads_nil]) ?_
    simp only [Source.admits_succ_of_enter henter, Source.admits_succ_of_enter hnodes]
    constructor
    · rintro ⟨hlastNode, hlastLink, ⟨hadmits, hnodes⟩, hlinks⟩
      cases d'
      cases hlastNode; cases hlastLink; cases hnodes; cases hlinks
      exact ⟨hadmits, rfl⟩
    · rintro ⟨hadmits, rfl⟩
      exact ⟨rfl, rfl, ⟨hadmits, rfl⟩, rfl⟩

end Dataflow.Document
