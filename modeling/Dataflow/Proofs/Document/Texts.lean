import Dataflow.Proofs.Document.Entries
import Dataflow.Proofs.Json.Words

/-! # Documents as texts

What is read from a text nests no deeper than a text allows. So a document that came from a text is
read back from the text that is written of it, in whatever form its links and fields stood before.
Only the fractions among its values may be read back as others.
-/

namespace Dataflow.Document

open Json (Reader Field Fields Source Scan Arrangement)

/-! ### The numbers of a document -/

theorem SocketEntry.readsBack_toJson (socket : SocketEntry) : socket.toJson.ReadsBack := by
  simp [toJson, Json.readsBack_object_iff, Json.readsBack_array_iff, Json.field?, or_imp,
    forall_and]

theorem LinkEntry.readsBack_toJson (link : LinkEntry) : link.toJson.ReadsBack := by
  have htype : (Json.ofOption .string link.linkType).ReadsBack := by
    cases link.linkType <;> simp [Json.ofOption]
  simp [toJson, Json.readsBack_array_iff, htype]

theorem NodeEntry.readsBack_toJson {node : NodeEntry}
    (h : (Json.ofMap node.widgetParameter).ReadsBack) : node.toJson.ReadsBack := by
  have hproperties : node.properties.toJson.ReadsBack := by
    simp [FunctionEntry.toJson, Json.readsBack_object_iff]
  have htype : node.nodeType.toJson.ReadsBack := Json.readsBack_string _
  have hsockets (sockets : List SocketEntry) :
      (Json.array (sockets.map SocketEntry.toJson)).ReadsBack :=
    Json.readsBack_array_iff.mpr
      (List.forall_mem_map.mpr fun socket _ => socket.readsBack_toJson)
  rw [toJson, Json.readsBack_object_iff]
  split <;> simp [hproperties, htype, hsockets, h]

/-- The numbers of a document are the numbers of its values, ids and places. -/
theorem readsBack_toJson {d : Document}
    (h : ∀ node ∈ d.nodes, (Json.ofMap node.widgetParameter).ReadsBack) : d.toJson.ReadsBack := by
  have hnodes : (Json.array (d.nodes.map NodeEntry.toJson)).ReadsBack :=
    Json.readsBack_array_iff.mpr
      (List.forall_mem_map.mpr fun node hnode => NodeEntry.readsBack_toJson (h node hnode))
  have hlinks : (Json.array (d.links.map LinkEntry.toJson)).ReadsBack :=
    Json.readsBack_array_iff.mpr
      (List.forall_mem_map.mpr fun link _ => link.readsBack_toJson)
  simp [toJson, Json.readsBack_object_iff, Json.field?, or_imp, forall_and, hnodes, hlinks]

/-! ### Reading what is written -/

/-- A document whose numbers are read back is read back from its text just when the values of every
node nest at most 124 containers: the object of the values stands in three more. -/
theorem ofText_text_eq_ok_iff {d d' : Document}
    (hnumbers : ∀ node ∈ d.nodes, (Json.ofMap node.widgetParameter).ReadsBack) :
    ofText d.text = .ok d' ↔
      (∀ node ∈ d.nodes, (Json.ofMap node.widgetParameter).depth ≤ 124) ∧ d' = d := by
  have hroom : Source.document.Admits 6 := Source.document_admits_iff.mpr (by decide)
  have hread : ofText d.text = reader .document (.ofJson (Arrangement.asWritten.apply d.toJson)) :=
    Json.readText_render reader .indented (readsBack_toJson hnumbers)
  rw [hread, reader_apply_toJson_eq_ok_iff _ hroom]
  refine and_congr_left fun _ => forall₂_congr fun node _ => ?_
  exact Source.document_admits_iff.trans (Nat.add_le_add_iff_right (k := 124))

/-! ### What is read -/

theorem FunctionEntry.admits {source : Source} {s : Scan} {entry : FunctionEntry}
    (h : reader source s = .ok entry) : source.Admits 1 := by
  obtain ⟨values, hrecord, -⟩ := Reader.map_eq_ok_iff.mp h
  obtain ⟨inner, henter, -⟩ := Reader.yields_of_record hrecord
  exact (Source.admits_succ_of_enter henter).mpr inner.admits_zero

theorem NodeEntry.admits {source : Source} {s : Scan} {node : NodeEntry}
    (h : reader source s = .ok node) :
    source.Admits ((Json.ofMap node.widgetParameter).depth + 1) := by
  obtain ⟨⟨id, nodeType, properties, inputs, outputs, values, ⟨⟩⟩, hrecord, rfl⟩ :=
    Reader.map_eq_ok_iff.mp h
  obtain ⟨inner, henter, -, -, hproperties, -, -, hvalues, -⟩ := Reader.yields_of_record hrecord
  rw [Source.admits_succ_of_enter henter]
  rcases hvalues with ⟨s, hread⟩ | hnone
  · exact Reader.admits_of_keyMap_datum hread
  · -- The object that is left out would nest no deeper than the properties do.
    obtain rfl : KeyMap.empty = values := Option.some.inj hnone
    rcases hproperties with ⟨s, hread⟩ | hnone
    · exact FunctionEntry.admits hread
    · cases hnone

/-- The values of a document that is read from a text nest at most 124 containers. -/
theorem depth_le_of_ofText {text : String} {d : Document} (h : ofText text = .ok d)
    {node : NodeEntry} (hnode : node ∈ d.nodes) :
    (Json.ofMap node.widgetParameter).depth ≤ 124 := by
  obtain ⟨s, hread⟩ := Reader.eq_ok_of_readText h
  obtain ⟨⟨lastNodeId, lastLinkId, nodes, links, ⟨⟩⟩, hrecord, rfl⟩ :=
    Reader.map_eq_ok_iff.mp hread
  obtain ⟨inner, henter, -, -, hnodes, -⟩ := Reader.yields_of_record hrecord
  rcases hnodes with ⟨s, hlist⟩ | hnone
  · obtain ⟨innermost, hinner, hall⟩ := Reader.exists_of_mem_list hlist
    obtain ⟨item, hitem⟩ := hall node hnode
    have hadmits := NodeEntry.admits hitem
    rw [← Source.admits_succ_of_enter hinner, ← Source.admits_succ_of_enter henter,
      Source.document_admits_iff] at hadmits
    omega
  · obtain rfl : [] = nodes := Option.some.inj hnone
    cases hnode

/-! ### Documents that came from a text -/

/-- No value of a node holds a fraction. -/
def FloatFree (d : Document) : Prop :=
  ∀ node ∈ d.nodes, ∀ value ∈ node.widgetParameter.values, value.json.FloatFree

theorem FloatFree.readsBack {d : Document} (h : d.FloatFree) {node : NodeEntry}
    (hnode : node ∈ d.nodes) : (Json.ofMap node.widgetParameter).ReadsBack :=
  Json.readsBack_ofMap_iff.mpr fun value hvalue => (h node hnode value hvalue).readsBack

/-- A document that came from a text, in whatever form, is read back from the text that is written
of it, which is written again of what is read back. -/
theorem text_stable_of_ofText {text : String} {d : Document} (h : ofText text = .ok d)
    (hfloat : d.FloatFree) :
    ∃ again, ofText d.text = .ok again ∧ again = d ∧ again.text = d.text := by
  have hread : ofText d.text = .ok d :=
    (ofText_text_eq_ok_iff fun _ hnode => hfloat.readsBack hnode).mpr
      ⟨fun _ hnode => depth_le_of_ofText h hnode, rfl⟩
  exact ⟨d, hread, rfl, rfl⟩

/-- A document in another form than the one that is written: its first node is an array, the fields
of the second one stand in another order, and so do those of its links, in two spellings. -/
def looseJson : Json :=
  .object
    [("links", .array
        [.array [.ofNat 3, .ofNat 1, .ofNat 0, .ofNat 2, .ofNat 0],
          .object
            [("origin_id", .ofNat 1), ("id", .ofNat 2), ("type", .array [.ofNat 5]),
              ("target_id", .ofNat 2), ("sourceOutputIndex", .ofNat 0),
              ("target_slot", .ofNat 1)]]),
      ("nodes", .array
        [.array [.ofNat 1, .string "python/load", .array [.string "a.py", .string "f"]],
          .object
            [("widgetParameter", .object
                [("y", .array [.object [("q", .number (.negative 6)), ("p", .null)]]),
                  ("x", .string "\"")]),
              ("id", .ofNat 2), ("type", .object [("python/function", .null)]),
              ("properties", .object
                [("functionName", .string "g"), ("filePath", .string "a.py")])]]),
      ("last_node_id", .null)]

/-- The same document as it is read. -/
def looseDocument : Document where
  lastNodeId := none
  lastLinkId := none
  nodes :=
    [⟨1, .load, ⟨"a.py", "f"⟩, [], [], .empty⟩,
      ⟨2, .function, ⟨"a.py", "g"⟩, [], [], .ofList
        [("x", .string "\""),
          ("y", .of (.array [.object [("p", .null), ("q", .number (.negative 6))]]))]⟩]
  links := [⟨3, 1, 0, 2, 0, none⟩, ⟨2, 1, 0, 2, 1, some "[5]"⟩]

theorem ofText_looseJson : ofText looseJson.compact = .ok looseDocument := by
  have hfloat : looseJson.FloatFree := by
    unfold Json.FloatFree
    decide
  have hread : ofText looseJson.compact = reader .document (.ofJson looseJson) :=
    Json.readText_render reader .compact hfloat.readsBack
  rw [hread]
  rfl

theorem looseDocument_floatFree : looseDocument.FloatFree := by
  unfold FloatFree Json.FloatFree
  decide

theorem text_stable_of_looseJson :
    ofText looseJson.compact = .ok looseDocument ∧ looseDocument.FloatFree ∧
      ∃ again, ofText looseDocument.text = .ok again ∧ again = looseDocument ∧
        again.text = looseDocument.text :=
  ⟨ofText_looseJson, looseDocument_floatFree,
    text_stable_of_ofText ofText_looseJson looseDocument_floatFree⟩

end Dataflow.Document
