import Dataflow.Proofs.Document.Spellings
import Dataflow.Proofs.Text.ByteOrder

/-! # Links under keys

The links of a document may stand in an object, under keys that mean nothing but the order of links
that share an id. The object is put in order by its keys, and then by the ids of its links; the
second sort leaves links of one id where the first has put them. So every link is there once, and
where ids differ the keys leave no trace.
-/

namespace Dataflow.Document

open Json (Reader Field Fields Source valuesUnder without)
open Json.Fields (Tuple.cons Tuple.nil)

/-- A sort leaves those in their order that it does not tell apart. -/
theorem filter_mergeSort {α : Type} {le : α → α → Bool} {p : α → Bool} {as : List α}
    (htrans : ∀ a b c, le a b = true → le b c = true → le a c = true)
    (htotal : ∀ a b, (le a b || le b a) = true)
    (hp : ∀ a b, p a = true → p b = true → le a b = true) :
    (as.mergeSort le).filter p = as.filter p := by
  have hpairwise : (as.filter p).Pairwise fun a b => le a b = true :=
    List.pairwise_of_forall_mem_list fun a ha b hb =>
      hp a b (List.mem_filter.mp ha).2 (List.mem_filter.mp hb).2
  have hsublist : ((as.filter p).filter p).Sublist ((as.mergeSort le).filter p) :=
    (List.sublist_mergeSort htrans htotal hpairwise List.filter_sublist).filter p
  rw [List.filter_filter] at hsublist
  simp only [Bool.and_self] at hsublist
  exact (hsublist.eq_of_length ((List.mergeSort_perm as le).filter p).length_eq.symm).symm

namespace LinkEntry

/-- The fields of an object are links. -/
def AreLinks (written : List (String × Json)) (entries : List (String × LinkEntry)) : Prop :=
  List.Forall₂ (fun field entry => field.1 = entry.1 ∧ reader.readValue field.2 = .ok entry.2)
    written entries

/-- An object has links under distinct keys, and nests no deeper than its source allows. -/
structure Keyed (source : Source) (written : List (String × Json))
    (entries : List (String × LinkEntry)) : Prop where
  keys : (written.map Prod.fst).Nodup
  links : AreLinks written entries
  depth : source.Admits (Json.object written).depth

/-- A link comes before another: it has the lower id, or the same id and the lower key. -/
def Precedes (a b : String × LinkEntry) : Prop :=
  a.2.id < b.2.id ∨ (a.2.id = b.2.id ∧ Text.bytes a.1 < Text.bytes b.1)

theorem precedes_iff {a b : String × LinkEntry} :
    Precedes a b ↔ a.2.id < b.2.id ∨ (a.2.id = b.2.id ∧ a.1 < b.1) := by
  rw [Precedes, Text.lt_iff_bytes_lt]

instance decidablePrecedes : DecidableRel Precedes :=
  fun _ _ => decidable_of_iff _ precedes_iff.symm

theorem Precedes.asymm {a b : String × LinkEntry} (h : Precedes a b) : ¬ Precedes b a := by
  rw [precedes_iff] at h ⊢
  rcases h with hlt | ⟨heq, hlt⟩ <;> rintro (hlt' | ⟨heq', hlt'⟩)
  · exact UInt64.lt_irrefl _ (UInt64.lt_trans hlt hlt')
  · exact UInt64.lt_irrefl _ (heq' ▸ hlt)
  · exact UInt64.lt_irrefl _ (heq ▸ hlt')
  · exact String.lt_irrefl _ (String.lt_trans hlt hlt')

/-- Entries in ascending order of the ids of their links. -/
def entriesById (entries : List (String × LinkEntry)) : List (String × LinkEntry) :=
  entries.mergeSort fun a b => decide (a.2.id ≤ b.2.id)

theorem byId_map_snd (entries : List (String × LinkEntry)) :
    byId (entries.map Prod.snd) = (entriesById entries).map Prod.snd := by
  rw [byId, entriesById, List.map_mergeSort]
  exact fun _ _ _ _ => rfl

theorem entriesById_perm (entries : List (String × LinkEntry)) :
    (entriesById entries).Perm entries :=
  List.mergeSort_perm _ _

/-- Links of one id stay in the order of their keys. -/
theorem pairwise_precedes_entriesById {entries : List (String × LinkEntry)}
    (h : entries.Pairwise fun a b => a.1 < b.1) : (entriesById entries).Pairwise Precedes := by
  have htrans (a b c : String × LinkEntry) (hab : decide (a.2.id ≤ b.2.id) = true)
      (hbc : decide (b.2.id ≤ c.2.id) = true) : decide (a.2.id ≤ c.2.id) = true :=
    decide_eq_true (UInt64.le_trans (of_decide_eq_true hab) (of_decide_eq_true hbc))
  have htotal (a b : String × LinkEntry) :
      (decide (a.2.id ≤ b.2.id) || decide (b.2.id ≤ a.2.id)) = true := by
    simpa using UInt64.le_total a.2.id b.2.id
  refine List.pairwise_iff_forall_sublist.mpr fun {a b} hsublist => ?_
  have hle : a.2.id ≤ b.2.id := of_decide_eq_true
    (List.pairwise_iff_forall_sublist.mp (List.pairwise_mergeSort htrans htotal entries) hsublist)
  by_cases hid : a.2.id = b.2.id
  · have hsame : [a, b].Sublist entries := by
      have hfiltered := hsublist.filter fun entry => decide (entry.2.id = b.2.id)
      have hboth : [a, b].filter (fun entry => decide (entry.2.id = b.2.id)) = [a, b] := by
        simp [hid]
      rw [entriesById, filter_mergeSort htrans htotal (by simp +contextual), hboth] at hfiltered
      exact hfiltered.trans List.filter_sublist
    exact precedes_iff.mpr (.inr ⟨hid, List.pairwise_iff_forall_sublist.mp h hsame⟩)
  · exact .inl (UInt64.lt_of_le_of_ne hle hid)

section

variable {source : Source} {value : Json} {link : LinkEntry} {links : List LinkEntry}
  {items : List Json} {written : List (String × Json)} {entries : List (String × LinkEntry)}

/-- A link is read wherever it is read in memory and its source allows its depth. -/
theorem reader_eq_ok_iff_readValue :
    reader source (.ofJson value) = .ok link ↔
      source.Admits value.depth ∧ reader.readValue value = .ok link := by
  have hvalue : Source.value.Admits value.depth := trivial
  rw [Reader.readValue, reader_eq_ok_iff, reader_eq_ok_iff, and_iff_right hvalue]

theorem reader_buffer_eq_ok_iff :
    reader .buffer (.ofJson value) = .ok link ↔ reader.readValue value = .ok link :=
  reader_eq_ok_iff_readValue.trans (and_iff_right trivial)

/-- What is not null is read by the form that decides. -/
theorem listReader_eq_ok_iff {r : Reader (List LinkEntry)} (hnull : value ≠ .null)
    (hmem : r ∈ [Reader.list reader, (Reader.keyMap reader).map fun links => byId links.values])
    (hforms : ∀ form ∈ [Reader.list reader,
      (Reader.keyMap reader).map fun links => byId links.values], ∀ links,
      form .buffer (.ofJson value) = .ok links → r .buffer (.ofJson value) = .ok links) :
    listReader source (.ofJson value) = .ok links ↔
      source.Admits value.depth ∧ r .buffer (.ofJson value) = .ok links := by
  have hscan : Json.Scan.ofJson value ≠ .scalar .null := by
    cases value <;> simp [Json.Scan.ofJson] at hnull ⊢
  have hread (links : List LinkEntry) :
      Reader.oneOf "RawLinks" _ source (.ofJson value) = .ok links ↔ _ :=
    Reader.oneOf_eq_ok_iff_of_mem hmem hforms
  rw [listReader, Reader.map_eq_ok_iff, Reader.optional_eq_map hscan]
  simp only [map_eq_ok_iff, hread, Json.toJson_ofJson_eq_ok_iff, exists_and_left, exists_eq,
    and_true]
  constructor
  · rintro ⟨_, ⟨read, hread, rfl⟩, rfl⟩
    exact hread
  · intro hread
    exact ⟨some links, ⟨links, hread, rfl⟩, rfl⟩

theorem listReader_array_eq_ok_iff :
    listReader source (.ofJson (.array items)) = .ok links ↔
      source.Admits (Json.array items).depth ∧
        List.Forall₂ (fun item link => reader.readValue item = .ok link) items links := by
  have hkeyMap (m : KeyMap LinkEntry) :
      Reader.keyMap reader .buffer (.ofJson (.array items)) ≠ .ok m :=
    Reader.wrongType_ne_ok
  have hnull : Json.array items ≠ .null := nofun
  rw [listReader_eq_ok_iff (r := Reader.list reader) hnull (by simp)
    (by simp [Reader.map_eq_ok_iff, hkeyMap]), Reader.list_array_eq_ok_iff rfl]
  simp only [reader_buffer_eq_ok_iff]

theorem listReader_object_eq_ok_iff :
    listReader source (.ofJson (.object written)) = .ok links ↔
      source.Admits (Json.object written).depth ∧
        ∃ entries, AreLinks written entries ∧ byId (KeyMap.ofList entries).values = links := by
  have hlist (links : List LinkEntry) :
      Reader.list reader .buffer (.ofJson (.object written)) ≠ .ok links :=
    Reader.wrongType_ne_ok
  have hnull : Json.object written ≠ .null := nofun
  rw [listReader_eq_ok_iff (r := (Reader.keyMap reader).map fun links => byId links.values) hnull
    (by simp) (by simp [hlist]), Reader.map_eq_ok_iff]
  have henter : Source.buffer.enter = .ok .buffer := rfl
  simp only [Reader.keyMap_object_eq_ok_iff henter, reader_buffer_eq_ok_iff]
  refine and_congr_right fun _ => ?_
  constructor
  · rintro ⟨_, ⟨entries, hentries, rfl⟩, hlinks⟩
    exact ⟨entries, hentries, hlinks⟩
  · rintro ⟨entries, hentries, hlinks⟩
    exact ⟨_, ⟨entries, hentries, rfl⟩, hlinks⟩

theorem listReader_null : listReader source (.ofJson .null) = .ok [] :=
  rfl

theorem AreLinks.keys_eq (h : AreLinks written entries) :
    written.map Prod.fst = entries.map Prod.fst := by
  induction h with
  | nil => rfl
  | cons hfield _ ih => rw [List.map_cons, List.map_cons, hfield.1, ih]

theorem AreLinks.exists_link (h : AreLinks written entries) {field : String × Json}
    (hfield : field ∈ written) : ∃ link, reader.readValue field.2 = .ok link := by
  induction h with
  | nil => cases hfield
  | cons hhead _ ih =>
      rcases List.mem_cons.mp hfield with rfl | hfield
      · exact ⟨_, hhead.2⟩
      · exact ih hfield

/-- Links under distinct keys are read in the order of their ids, and of their keys where they share
an id. -/
theorem Keyed.exists_sorted (h : Keyed source written entries) :
    ∃ sorted : List (String × LinkEntry), sorted.Perm entries ∧ sorted.Pairwise Precedes ∧
      listReader source (.ofJson (.object written)) = .ok (sorted.map Prod.snd) := by
  refine ⟨entriesById (KeyMap.ofList entries).entries, ?_, ?_, ?_⟩
  · exact (entriesById_perm _).trans (KeyMap.ofList_perm (h.links.keys_eq ▸ h.keys))
  · exact pairwise_precedes_entriesById (KeyMap.ofList entries).ascending
  · exact listReader_object_eq_ok_iff.mpr ⟨h.depth, entries, h.links, byId_map_snd _⟩

/-- Where no two links share an id, the keys do not show. -/
theorem pairwise_id_lt {sorted : List (String × LinkEntry)} (h : sorted.Pairwise Precedes)
    (hids : (sorted.map (·.2.id)).Nodup) :
    (sorted.map Prod.snd).Pairwise fun a b => a.id < b.id := by
  refine List.pairwise_map.mpr (h.imp₂ ?_ (List.pairwise_map.mp hids))
  rintro a b (hlt | ⟨heq, -⟩) hne
  · exact hlt
  · exact absurd heq hne

/-- Links in ascending order of their ids are determined by which they are. -/
theorem eq_of_perm_of_pairwise_id_lt {links links' : List LinkEntry} (h : links.Perm links')
    (hlinks : links.Pairwise fun a b => a.id < b.id)
    (hlinks' : links'.Pairwise fun a b => a.id < b.id) : links = links' :=
  h.eq_of_pairwise (fun _ _ _ _ hab hba => absurd (UInt64.lt_trans hab hba) (UInt64.lt_irrefl _))
    hlinks hlinks'

/-- Where no two links share an id, an object is read as the links in ascending order of their
ids. -/
theorem Keyed.listReader_eq (h : Keyed source written entries)
    (hperm : links.Perm (entries.map Prod.snd)) (hlinks : links.Pairwise fun a b => a.id < b.id) :
    listReader source (.ofJson (.object written)) = .ok links := by
  obtain ⟨sorted, hsorted, hpairwise, hread⟩ := h.exists_sorted
  have hpermSorted : links.Perm (sorted.map Prod.snd) := hperm.trans (hsorted.map _).symm
  have hids : (sorted.map (·.2.id)).Nodup := by
    have hnodup : (links.map (·.id)).Nodup :=
      List.pairwise_map.mpr (hlinks.imp UInt64.ne_of_lt)
    simpa [Function.comp_def] using (hpermSorted.map (·.id)).nodup_iff.mp hnodup
  rw [hread, eq_of_perm_of_pairwise_id_lt hpermSorted hlinks (pairwise_id_lt hpairwise hids)]

end

end LinkEntry

section

variable {source inner : Source} {written : List (String × Json)} {items : List Json}
  {d : Document}

/-- The field of the links in an object. -/
def linksField : Json.Field (List LinkEntry) :=
  .withDefault "links" LinkEntry.listReader []

/-- A document is read from an object field by field. -/
theorem reader_object_eq_ok_iff (henter : source.enter = .ok inner) :
    reader source (.ofJson (.object written)) = .ok d ↔
      (Field.optional "last_node_id" Reader.uint64).Finds inner written d.lastNodeId ∧
        (Field.optional "last_link_id" Reader.uint64).Finds inner written d.lastLinkId ∧
        (Field.withDefault "nodes" (Reader.list NodeEntry.reader) []).Finds inner written d.nodes ∧
        linksField.Finds inner written d.links := by
  rw [reader, Reader.map_eq_ok_iff_of_inverse (g := fun d => Tuple.cons d.lastNodeId
    (Tuple.cons d.lastLinkId (Tuple.cons d.nodes (Tuple.cons d.links Tuple.nil))))
    (fun _ => rfl) (fun _ => rfl)]
  refine (Reader.record_object_eq_ok_iff (by decide) henter).trans ?_
  simp only [Fields.finds_cons_iff, Fields.finds_nil, and_true, linksField]

/-- The links of a document are what their field holds, and the rest is read without them. -/
theorem reader_object_eq_ok_iff_links (henter : source.enter = .ok inner) :
    reader source (.ofJson (.object written)) = .ok d ↔
      linksField.Finds inner written d.links ∧
        reader source (.ofJson (.object (without ["links"] written))) =
          .ok { d with links := [] } := by
  have hnone : linksField.Finds inner (without ["links"] written) [] :=
    .inr ⟨Json.valuesUnder_without_self _ _, rfl⟩
  rw [reader_object_eq_ok_iff henter, reader_object_eq_ok_iff henter,
    Field.finds_without_iff (by decide), Field.finds_without_iff (by decide),
    Field.finds_without_iff (by decide)]
  tauto

/-- An array that ends before its links has none. -/
theorem links_of_reader_array (hlength : items.length < 4)
    (h : reader source (.ofJson (.array items)) = .ok d) : d.links = [] := by
  obtain ⟨⟨lastNodeId, lastLinkId, nodes, links, ⟨⟩⟩, hread, rfl⟩ := Reader.map_eq_ok_iff.mp h
  obtain ⟨inner, henter, -⟩ := Reader.yields_of_record hread
  have htakes := (Reader.record_array_eq_ok_iff henter).mp hread
  have hlinks : linksField.fallback = .always links := by
    match items, hlength, htakes with
    | [], _, ⟨_, _, _, hlinks, _⟩ => exact hlinks
    | [_], _, ⟨_, _, _, hlinks, _⟩ => exact hlinks
    | [_, _], _, ⟨_, _, _, hlinks, _⟩ => exact hlinks
    | [_, _, _], _, ⟨_, _, _, hlinks, _⟩ => exact hlinks
  exact (Json.Fallback.always.inj hlinks).symm

end

/-- An object whose values are links under distinct keys is read as all of them, in ascending order
of their ids and, where they share an id, in byte order of their keys. Where no two of them share an
id, neither the keys nor the order of the fields shows, and an array of the same links in ascending
order of their ids is read as the same. One value that is no link spoils the object. No links are
read from null, and a document without the field has none. -/
theorem keyed_links_exact (source : Source) :
    (∀ (written : List (String × Json)) (entries : List (String × LinkEntry)),
      LinkEntry.Keyed source written entries →
        (∃ sorted : List (String × LinkEntry), sorted.Perm entries ∧
          sorted.Pairwise LinkEntry.Precedes ∧
          LinkEntry.listReader source (.ofJson (.object written)) = .ok (sorted.map Prod.snd)) ∧
        ((entries.map (·.2.id)).Nodup →
          (∀ (written' : List (String × Json)) (entries' : List (String × LinkEntry)),
            LinkEntry.Keyed source written' entries' →
              (entries'.map Prod.snd).Perm (entries.map Prod.snd) →
                LinkEntry.listReader source (.ofJson (.object written')) =
                  LinkEntry.listReader source (.ofJson (.object written))) ∧
          ∀ (items : List Json) (links : List LinkEntry),
            List.Forall₂ (fun item link => LinkEntry.reader.readValue item = .ok link)
              items links → source.Admits (Json.array items).depth →
              links.Perm (entries.map Prod.snd) → links.Pairwise (fun a b => a.id < b.id) →
                LinkEntry.listReader source (.ofJson (.array items)) =
                  LinkEntry.listReader source (.ofJson (.object written)))) ∧
      (∀ (written : List (String × Json)) (links : List LinkEntry),
        (∃ field ∈ written, ∀ link, LinkEntry.reader.readValue field.2 ≠ .ok link) →
          LinkEntry.listReader source (.ofJson (.object written)) ≠ .ok links) ∧
      LinkEntry.listReader source (.ofJson .null) = .ok [] ∧
      (∀ (inner : Source) (written : List (String × Json)) (d : Document),
        source.enter = .ok inner →
          (reader source (.ofJson (.object written)) = .ok d ↔
            ((∃ value, valuesUnder ["links"] written = [value] ∧
                LinkEntry.listReader inner (.ofJson value) = .ok d.links) ∨
              (valuesUnder ["links"] written = [] ∧ [] = d.links)) ∧
            reader source (.ofJson (.object (without ["links"] written))) =
              .ok { d with links := [] })) ∧
      ∀ (items : List Json) (d : Document), items.length < 4 →
        reader source (.ofJson (.array items)) = .ok d → d.links = [] := by
  refine ⟨?_, ?_, LinkEntry.listReader_null, ?_, ?_⟩
  · intro written entries hkeyed
    obtain ⟨sorted, hsorted, hpairwise, hread⟩ := hkeyed.exists_sorted
    refine ⟨⟨sorted, hsorted, hpairwise, hread⟩, fun hids => ?_⟩
    have hperm : (sorted.map Prod.snd).Perm (entries.map Prod.snd) := hsorted.map _
    have hascending := LinkEntry.pairwise_id_lt hpairwise ((hsorted.map _).nodup_iff.mpr hids)
    constructor
    · intro written' entries' hkeyed' hperm'
      rw [hread]
      exact hkeyed'.listReader_eq (hperm.trans hperm'.symm) hascending
    · intro items links hitems hadmits hperm' hlinks
      rw [hread, LinkEntry.eq_of_perm_of_pairwise_id_lt (hperm.trans hperm'.symm) hascending hlinks]
      exact LinkEntry.listReader_array_eq_ok_iff.mpr ⟨hadmits, hitems⟩
  · rintro written links ⟨field, hfield, hunreadable⟩ hread
    obtain ⟨-, entries, hentries, -⟩ := LinkEntry.listReader_object_eq_ok_iff.mp hread
    obtain ⟨link, hlink⟩ := hentries.exists_link hfield
    exact hunreadable link hlink
  · intro inner written d henter
    rw [reader_object_eq_ok_iff_links henter, linksField, Field.finds_withDefault_iff]
  · intro items d hlength hread
    exact links_of_reader_array hlength hread

namespace LinkEntry

theorem readValue_toJson (link : LinkEntry) : reader.readValue link.toJson = .ok link :=
  have hvalue : Source.value.Admits 1 := trivial
  reader_apply_toJson .asWritten hvalue link

/-- Two links, and a third one that shares the id of the second. -/
def low : LinkEntry := ⟨3, 1, 0, 2, 0, none⟩

def high : LinkEntry := ⟨4, 1, 0, 2, 1, none⟩

def twin : LinkEntry := ⟨4, 5, 0, 2, 2, some "list"⟩

end LinkEntry

open LinkEntry (low high twin readValue_toJson listReader) in
/-- The links that share an id come in the order of their keys, of which `10` is lower than `9`. Two
links with ids of their own are read as the same under other keys, in another order, and from an
array. -/
theorem keyed_links_exact_twins :
    listReader .value
        (.ofJson (.object [("9", high.toJson), ("b", low.toJson), ("10", twin.toJson)])) =
        .ok [low, twin, high] ∧
      listReader .value (.ofJson (.object [("x", low.toJson), ("y", high.toJson)])) =
        listReader .value (.ofJson (.object [("4", high.toJson), ("3", low.toJson)])) ∧
      listReader .value (.ofJson (.array [low.toJson, high.toJson])) =
        listReader .value (.ofJson (.object [("4", high.toJson), ("3", low.toJson)])) ∧
      (∀ links, listReader .value
        (.ofJson (.object [("4", high.toJson), ("3", .null)])) ≠ .ok links) ∧
      (∃ d, ofJson (.object [("nodes", .array [])]) = .ok d ∧ d.links = []) ∧
      ∃ d, ofJson (.array [.null, .null]) = .ok d ∧ d.links = [] := by
  obtain ⟨hkeyed, hspoiled, -, hfield, hshort⟩ := keyed_links_exact .value
  have hlinks (written) (entries) (hkeys : (List.map Prod.fst written).Nodup)
      (hentries : LinkEntry.AreLinks written entries) :
      LinkEntry.Keyed .value written entries :=
    ⟨hkeys, hentries, trivial⟩
  obtain ⟨⟨sorted, hperm, hpairwise, hread⟩, -⟩ := hkeyed _ _ <| hlinks
    [("9", high.toJson), ("b", low.toJson), ("10", twin.toJson)]
    [("9", high), ("b", low), ("10", twin)] (by decide)
    (by simp [LinkEntry.AreLinks, readValue_toJson])
  obtain ⟨-, hdistinct⟩ := hkeyed _ _ <| hlinks [("4", high.toJson), ("3", low.toJson)]
    [("4", high), ("3", low)] (by decide) (by simp [LinkEntry.AreLinks, readValue_toJson])
  obtain ⟨hkeys, harray⟩ := hdistinct (by decide)
  have hbare : ofJson (.object [("nodes", .array [])]) = .ok .empty := rfl
  have hshorter : ofJson (.array [.null, .null]) = .ok .empty := rfl
  refine ⟨?_, ?_, ?_, fun links => ?_, ⟨_, hbare, ?_⟩, ⟨_, hshorter, ?_⟩⟩
  · have horder : [("b", low), ("10", twin), ("9", high)].Pairwise LinkEntry.Precedes := by
      decide
    have hsorted : sorted = [("b", low), ("10", twin), ("9", high)] :=
      (hperm.trans (by decide)).eq_of_pairwise (fun _ _ _ _ hab hba => absurd hba hab.asymm)
        hpairwise horder
    rw [hread, hsorted]
    rfl
  · refine hkeys _ [("x", low), ("y", high)] (hlinks _ _ (by decide) ?_) (.swap _ _ _)
    simp [LinkEntry.AreLinks, readValue_toJson]
  · exact harray _ [low, high] (by simp [readValue_toJson]) trivial (.swap _ _ _) (by decide)
  · refine hspoiled _ links ⟨("3", .null), by simp, fun link hread => ?_⟩
    cases hread
  · obtain ⟨⟨value, hvalue, -⟩ | ⟨-, hlinks⟩, -⟩ :=
      (hfield .value [("nodes", .array [])] .empty rfl).mp hbare
    · simp at hvalue
    · exact hlinks.symm
  · exact hshort [.null, .null] .empty (by decide) hshorter

end Dataflow.Document
