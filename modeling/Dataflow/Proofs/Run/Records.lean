import Dataflow.Proofs.Resolution
import Dataflow.Run.State

/-! # Records of nodes

A change to the record of one node leaves the records of all others alone. What a node is called
with depends on the records of its feeders only, and it can be called once all of them have
succeeded with the outputs that it reads. Of several inputs of one name the last one counts.
-/

namespace Dataflow

/-! ### Answers -/

/-- The call of a node has ended with outputs or with a failure. -/
def NodeRecord.answer (outcome : Except NodeFailure Values) (r : NodeRecord) : NodeRecord :=
  match outcome with
  | .ok outputs => r.succeed outputs
  | .error failure => r.fail failure

theorem Response.outcome_eq_ok_iff {names : List String} {response : Response} {values : Values} :
    response.outcome names = .ok values ↔
      response = .outputs values ∧ ∀ name ∈ names, values.contains name = true := by
  cases response with
  | outputs found =>
      simp only [outcome]
      split
      next name hname =>
        have hmissing : found.contains name = false := by simpa using List.find?_some hname
        refine iff_of_false (by simp) ?_
        rintro ⟨hfound, hall⟩
        cases hfound
        rw [hall name (List.mem_of_find?_eq_some hname)] at hmissing
        cases hmissing
      next hnone =>
        have hall : ∀ name ∈ names, found.contains name = true := by
          simpa using List.find?_eq_none.mp hnone
        constructor
        · intro h
          cases h
          exact ⟨rfl, hall⟩
        · rintro ⟨h, -⟩
          cases h
          rfl
  | error e => simp [outcome]
  | panic message => simp [outcome]

theorem NodeRecord.status_answer (outcome : Except NodeFailure Values) (r : NodeRecord) :
    (r.answer outcome).status = match outcome with
      | .ok _ => .succeeded
      | .error _ => .failed := by
  cases outcome <;> rfl

theorem NodeRecord.status_answer_ne_skipped (outcome : Except NodeFailure Values) (r : NodeRecord) :
    (r.answer outcome).status ≠ .skipped := by
  rw [status_answer]
  cases outcome <;> simp

theorem Response.exists_outcome_eq_error_iff {names : List String} {response : Response} :
    (∃ failure, response.outcome names = .error failure) ↔
      (∃ e, response = .error e) ∨ (∃ message, response = .panic message) ∨
        ∃ values, response = .outputs values ∧ ∃ name ∈ names, values.contains name = false := by
  cases response with
  | outputs found =>
      cases houtcome : (Response.outputs found).outcome names with
      | ok values =>
          obtain ⟨-, hall⟩ := outcome_eq_ok_iff.mp houtcome
          refine iff_of_false (by simp) ?_
          rintro (⟨e, he⟩ | ⟨message, hmessage⟩ | ⟨values, hvalues, name, hname, hmissing⟩)
          · cases he
          · cases hmessage
          · cases hvalues
            cases (outcome_eq_ok_iff.mp houtcome).1
            rw [hall name hname] at hmissing
            cases hmissing
      | error failure =>
          refine iff_of_true ⟨failure, rfl⟩ (.inr (.inr ⟨found, rfl, ?_⟩))
          by_contra hnone
          push Not at hnone
          have hok := outcome_eq_ok_iff.mpr ⟨rfl, fun name hname => by simpa using hnone name hname⟩
          rw [houtcome] at hok
          cases hok
  | error e => simp [outcome]
  | panic message => simp [outcome]

theorem Response.outcome_ne_cancelled (names : List String) (response : Response) :
    response.outcome names ≠ .error .cancelledBeforeStart := by
  cases response with
  | outputs values =>
      simp only [outcome]
      split <;> simp
  | error e => simp [outcome]
  | panic message => simp [outcome]

theorem Response.outcome_eq_missing {before after : List String} {name : String} {values : Values}
    (hbefore : ∀ b ∈ before, values.contains b = true) (hname : values.contains name = false) :
    (Response.outputs values).outcome (before ++ name :: after) = .error (.missingOutput name) := by
  have hfind : (before ++ name :: after).find? (!values.contains ·) = some name := by
    rw [List.find?_append, List.find?_eq_none.mpr (by simpa using hbefore)]
    simp [hname]
  simp only [outcome, hfind]

namespace Report

/-! ### Changing records -/

/-- The ids of the records in their order. -/
def ids (r : Report) : List NodeId :=
  r.records.map Prod.fst

theorem status?_of_record? {r : Report} {id : NodeId} {record : NodeRecord}
    (h : r.record? id = some record) : r.status? id = some record.status := by
  rw [status?, h, Option.map_some]

theorem isSettled_of_record? {r : Report} {id : NodeId} {record : NodeRecord}
    (h : r.record? id = some record) : r.isSettled id = record.status.isTerminal := by
  rw [isSettled, status?_of_record? h, Option.any_some]

/-- Records that are changed in their places are found where they were. -/
theorem record?_of_map {r r' : Report} {f : NodeId × NodeRecord → NodeId × NodeRecord}
    (hrecords : r'.records = r.records.map f) (hkey : ∀ entry, (f entry).1 = entry.1)
    (id : NodeId) : r'.record? id = (r.record? id).map fun record => (f (id, record)).2 := by
  simp only [record?, hrecords, List.find?_map, Function.comp_def, hkey, Option.map_map]
  refine Option.map_congr fun entry hentry => ?_
  have hid : entry.1 = id := by simpa using List.find?_some hentry
  rw [← hid]

theorem ids_of_map {r r' : Report} {f : NodeId × NodeRecord → NodeId × NodeRecord}
    (hrecords : r'.records = r.records.map f) (hkey : ∀ entry, (f entry).1 = entry.1) :
    r'.ids = r.ids := by
  rw [ids, ids, hrecords, List.map_map]
  exact List.map_congr_left fun entry _ => hkey entry

theorem fst_update_entry (id : NodeId) (change : NodeRecord → NodeRecord)
    (entry : NodeId × NodeRecord) :
    (if entry.1 = id then (id, change entry.2) else entry).1 = entry.1 := by
  split
  next h => exact h.symm
  next => rfl

theorem exists_record?_of_mem {r : Report} {id : NodeId} (hid : id ∈ r.ids) :
    ∃ record, r.record? id = some record := by
  cases hrecord : r.record? id with
  | some record => exact ⟨record, rfl⟩
  | none =>
      obtain ⟨entry, hentry, rfl⟩ := List.mem_map.mp hid
      simp only [record?, Option.map_eq_none_iff] at hrecord
      exact absurd (List.find?_eq_none.mp hrecord entry hentry) (by simp)

theorem find?_insertRecord {id : NodeId} {record : NodeRecord}
    {records : List (NodeId × NodeRecord)} (h : ∀ entry ∈ records, entry.1 ≠ id) (other : NodeId) :
    (insertRecord id record records).find? (·.1 = other) =
      if other = id then some (id, record) else records.find? (·.1 = other) := by
  induction records with
  | nil => by_cases hid : other = id <;> simp [insertRecord, hid, eq_comm]
  | cons entry rest ih =>
      obtain ⟨hentry, hrest⟩ := List.forall_mem_cons.mp h
      rw [insertRecord]
      split
      · by_cases hid : other = id <;> simp [hid, eq_comm]
      · rw [List.find?_cons, ih hrest, List.find?_cons]
        by_cases hid : other = id
        · simp [hid, hentry]
        · simp [hid]

theorem any_fst_eq_iff {r : Report} {id : NodeId} :
    r.records.any (·.1 = id) = true ↔ id ∈ r.ids := by
  simp [ids]

/-- A node that has a record keeps its place, and the records stay those of the same nodes. -/
theorem records_update {r : Report} {id : NodeId} (hid : id ∈ r.ids)
    (change : NodeRecord → NodeRecord) : (r.update id change).records =
      r.records.map fun entry => if entry.1 = id then (id, change entry.2) else entry := by
  rw [update, if_pos (any_fst_eq_iff.mpr hid)]

theorem record?_update (r : Report) (id other : NodeId) (change : NodeRecord → NodeRecord) :
    (r.update id change).record? other =
      if other = id then some (change ((r.record? id).getD .initial)) else r.record? other := by
  by_cases hmem : id ∈ r.ids
  · rw [record?_of_map (records_update hmem change) (fst_update_entry id change)]
    by_cases h : other = id
    · obtain ⟨record, hrecord⟩ := exists_record?_of_mem hmem
      simp [h, hrecord]
    · simp [h]
  · have habsent : ∀ entry ∈ r.records, entry.1 ≠ id := fun entry hentry heq =>
      hmem (List.mem_map.mpr ⟨entry, hentry, heq⟩)
    have hnone : r.record? id = none := by
      rw [record?, List.find?_eq_none.mpr (by simpa using habsent), Option.map_none]
    rw [record?, update, if_neg (mt any_fst_eq_iff.mp hmem)]
    dsimp only
    rw [find?_insertRecord habsent, hnone]
    split
    · rfl
    · rfl

theorem record?_update_self (r : Report) (id : NodeId) (change : NodeRecord → NodeRecord) :
    (r.update id change).record? id = some (change ((r.record? id).getD .initial)) := by
  rw [record?_update, if_pos rfl]

theorem record?_update_of_record? {r : Report} {id : NodeId} {record : NodeRecord}
    (h : r.record? id = some record) (change : NodeRecord → NodeRecord) :
    (r.update id change).record? id = some (change record) := by
  rw [record?_update_self, h, Option.getD_some]

theorem record?_update_of_ne (r : Report) {id other : NodeId} (h : other ≠ id)
    (change : NodeRecord → NodeRecord) : (r.update id change).record? other = r.record? other := by
  rw [record?_update, if_neg h]

theorem mem_ids_of_record? {r : Report} {id : NodeId} {record : NodeRecord}
    (h : r.record? id = some record) : id ∈ r.ids := by
  obtain ⟨entry, hfind, -⟩ := Option.map_eq_some_iff.mp h
  have hid : entry.1 = id := by simpa using List.find?_some hfind
  exact hid ▸ List.mem_map_of_mem (List.mem_of_find?_eq_some hfind)

/-- No record is lost. -/
theorem mem_ids_update {r : Report} {id other : NodeId} (h : other ∈ r.ids)
    (change : NodeRecord → NodeRecord) : other ∈ (r.update id change).ids := by
  obtain ⟨record, hrecord⟩ := exists_record?_of_mem h
  by_cases hid : other = id
  · exact hid ▸ mem_ids_of_record? (record?_update_self ..)
  · exact mem_ids_of_record? ((record?_update_of_ne r hid change).trans hrecord)

theorem ids_update {r : Report} {id : NodeId} (hid : id ∈ r.ids)
    (change : NodeRecord → NodeRecord) : (r.update id change).ids = r.ids :=
  ids_of_map (records_update hid change) (fst_update_entry id change)

theorem fst_failUnsettled_entry (failure : NodeFailure) (entry : NodeId × NodeRecord) :
    (if entry.2.status.isTerminal then entry else (entry.1, entry.2.fail failure)).1 = entry.1 := by
  split <;> rfl

theorem record?_failUnsettled (r : Report) (failure : NodeFailure) (id : NodeId) :
    (r.failUnsettled failure).record? id = (r.record? id).map fun record =>
      if record.status.isTerminal then record else record.fail failure := by
  rw [record?_of_map (r := r) rfl (fst_failUnsettled_entry failure)]
  refine Option.map_congr fun record _ => ?_
  split <;> rfl

theorem ids_failUnsettled (r : Report) (failure : NodeFailure) :
    (r.failUnsettled failure).ids = r.ids :=
  ids_of_map rfl (fst_failUnsettled_entry failure)

/-! ### Outputs and inputs in the records -/

/-- The inputs in the record of a node. -/
def inputs? (r : Report) (id : NodeId) : Option Values :=
  (r.record? id).map NodeRecord.inputs

theorem outputs?_of_record? {r : Report} {id : NodeId} {record : NodeRecord}
    (h : r.record? id = some record) (hstatus : record.status ≠ .succeeded) :
    r.outputs? id = none := by
  simp [outputs?, h, hstatus]

theorem outputs?_of_not_isSettled {r : Report} {id : NodeId} (h : r.isSettled id = false) :
    r.outputs? id = none := by
  cases hrecord : r.record? id with
  | none => simp [outputs?, hrecord]
  | some record =>
      refine outputs?_of_record? hrecord fun hstatus => ?_
      rw [isSettled_of_record? hrecord, hstatus] at h
      cases h

theorem outputs?_update_of_ne (r : Report) {id other : NodeId} (h : other ≠ id)
    (change : NodeRecord → NodeRecord) :
    (r.update id change).outputs? other = r.outputs? other := by
  rw [outputs?, outputs?, record?_update_of_ne r h]

theorem outputs?_update_eq_some {r : Report} {id other : NodeId} {values : Values}
    {change : NodeRecord → NodeRecord} (hnone : r.outputs? id = none)
    (hvalues : r.outputs? other = some values) :
    (r.update id change).outputs? other = some values := by
  have hne : other ≠ id := by
    rintro rfl
    rw [hnone] at hvalues
    cases hvalues
  rw [outputs?_update_of_ne r hne, hvalues]

/-- A node without outputs gets some only when it is made to succeed. -/
theorem outputs?_update_eq_none {r : Report} {id other : NodeId} {change : NodeRecord → NodeRecord}
    (h : r.outputs? other = none)
    (hchange : other = id → ∀ record, (change record).status ≠ .succeeded) :
    (r.update id change).outputs? other = none := by
  by_cases hid : other = id
  · subst hid
    exact outputs?_of_record? (record?_update_self ..) (hchange rfl _)
  · rw [outputs?_update_of_ne r hid, h]

theorem inputs?_update {r : Report} {id other : NodeId} {change : NodeRecord → NodeRecord}
    (hother : other ∈ r.ids)
    (hchange : other = id → ∀ record, (change record).inputs = record.inputs) :
    (r.update id change).inputs? other = r.inputs? other := by
  by_cases heq : other = id
  · subst heq
    obtain ⟨record, hrecord⟩ := exists_record?_of_mem hother
    simp [inputs?, record?_update_self, hrecord, hchange rfl record]
  · rw [inputs?, inputs?, record?_update_of_ne r heq]

theorem outputs?_failUnsettled (r : Report) (failure : NodeFailure) (id : NodeId) :
    (r.failUnsettled failure).outputs? id = r.outputs? id := by
  rw [outputs?, outputs?, record?_failUnsettled, Option.bind_map]
  refine Option.bind_congr fun record _ => ?_
  simp only [Function.comp_apply]
  split
  next => rfl
  next hterminal =>
    have hstatus : record.status ≠ .succeeded := by
      intro heq
      rw [heq] at hterminal
      exact hterminal rfl
    simp [NodeRecord.fail, hstatus]

theorem inputs?_failUnsettled (r : Report) (failure : NodeFailure) (id : NodeId) :
    (r.failUnsettled failure).inputs? id = r.inputs? id := by
  rw [inputs?, inputs?, record?_failUnsettled, Option.map_map]
  refine Option.map_congr fun record _ => ?_
  simp only [Function.comp_apply]
  split <;> rfl

/-! ### The first records -/

theorem ids_initial_perm (runId : String) (ids : List NodeId) :
    (Report.initial runId ids).ids.Perm ids := by
  simp only [Report.ids, Report.initial, List.map_map, Function.comp_def, List.map_id']
  exact List.mergeSort_perm _ _

theorem record?_initial (runId : String) {ids : List NodeId} {id : NodeId} (hid : id ∈ ids) :
    (Report.initial runId ids).record? id = some .initial := by
  have hmem : id ∈ ids.mergeSort fun a b => decide (a.value ≤ b.value) := List.mem_mergeSort.mpr hid
  simp only [record?, Report.initial, List.find?_map, Function.comp_def, Option.map_map]
  cases hfind : (ids.mergeSort fun a b => decide (a.value ≤ b.value)).find? (· = id) with
  | none => exact absurd (List.find?_eq_none.mp hfind id hmem) (by simp)
  | some found => rfl

/-! ### All records -/

theorem record?_eq_some_iff {r : Report} (hr : r.ids.Nodup) {id : NodeId} {record : NodeRecord} :
    r.record? id = some record ↔ (id, record) ∈ r.records := by
  constructor
  · intro h
    simp only [record?, Option.map_eq_some_iff] at h
    obtain ⟨entry, hfind, rfl⟩ := h
    have hid : entry.1 = id := by simpa using List.find?_some hfind
    exact hid ▸ List.mem_of_find?_eq_some hfind
  · intro hmem
    obtain ⟨found, hfound⟩ := exists_record?_of_mem (List.mem_map_of_mem (f := Prod.fst) hmem)
    simp only [record?, Option.map_eq_some_iff] at hfound
    obtain ⟨entry, hfind, rfl⟩ := hfound
    have hid : entry.1 = id := by simpa using List.find?_some hfind
    have hentry := List.inj_on_of_nodup_map hr (List.mem_of_find?_eq_some hfind) hmem hid
    simp [record?, hfind, hentry]

/-- The overall status in terms of look-ups. -/
theorem conclusion_eq {r : Report} (hr : r.ids.Nodup) {ids : List NodeId}
    (hids : ∀ id, id ∈ r.ids ↔ id ∈ ids) : r.conclusion =
      if ∃ id ∈ ids, (r.record? id).bind NodeRecord.failure = some .cancelledBeforeStart then
        .aborted
      else if ∀ id ∈ ids, r.status? id = some .succeeded then .completed
      else .completedWithErrors := by
  have hcancelled : r.records.any (·.2.failure = some .cancelledBeforeStart) = true ↔
      ∃ id ∈ ids, (r.record? id).bind NodeRecord.failure = some .cancelledBeforeStart := by
    simp only [List.any_eq_true, decide_eq_true_eq]
    constructor
    · rintro ⟨⟨id, record⟩, hentry, hfailure⟩
      refine ⟨id, (hids id).mp (List.mem_map_of_mem hentry), ?_⟩
      rwa [(record?_eq_some_iff hr).mpr hentry]
    · rintro ⟨id, hid, hfailure⟩
      obtain ⟨record, hrecord⟩ := exists_record?_of_mem ((hids id).mpr hid)
      rw [hrecord] at hfailure
      exact ⟨(id, record), (record?_eq_some_iff hr).mp hrecord, hfailure⟩
  have hsucceeded : r.records.all (·.2.status = .succeeded) = true ↔
      ∀ id ∈ ids, r.status? id = some .succeeded := by
    simp only [List.all_eq_true, decide_eq_true_eq]
    constructor
    · intro hall id hid
      obtain ⟨record, hrecord⟩ := exists_record?_of_mem ((hids id).mpr hid)
      rw [status?_of_record? hrecord, hall _ ((record?_eq_some_iff hr).mp hrecord)]
    · rintro hall ⟨id, record⟩ hentry
      have hstatus := hall id ((hids id).mp (List.mem_map_of_mem hentry))
      rwa [status?_of_record? ((record?_eq_some_iff hr).mpr hentry), Option.some.injEq] at hstatus
  simp only [conclusion, hcancelled, hsucceeded]

/-- The records of a report are known from its ids and look-ups. -/
theorem records_eq_of_record?_eq {r r' : Report} (hids : r.ids = r'.ids) (hr : r.ids.Nodup)
    (h : ∀ id ∈ r.ids, r.record? id = r'.record? id) : r.records = r'.records := by
  have hrecords : ∀ s : Report, s.ids.Nodup →
      s.records = s.ids.map fun id => (id, (s.record? id).getD .initial) := by
    intro s hs
    rw [ids, List.map_map]
    refine (List.map_id _).symm.trans (List.map_congr_left fun entry hentry => ?_)
    have hrecord := (record?_eq_some_iff hs).mpr (show (entry.1, entry.2) ∈ s.records from hentry)
    simp [hrecord]
  rw [hrecords r hr, hrecords r' (hids ▸ hr), ← hids]
  exact List.map_congr_left fun id hid => by rw [h id hid]

/-! ### Inputs of a call -/

theorem inputValue_congr {r r' : Report} {source : InputSource}
    (h : ∀ id output name, source = .fromLink id output name → r.record? id = r'.record? id) :
    r.inputValue source = r'.inputValue source := by
  cases source with
  | fromLink id output name => simp [inputValue, outputs?, h id output name rfl]
  | fromParameter value => rfl

theorem gather_congr {r r' : Report} {node : PlannedNode}
    (h : ∀ id ∈ node.feeders, r.record? id = r'.record? id) :
    r.gather node.inputs = r'.gather node.inputs := by
  have hvalue : ∀ input ∈ node.inputs, r.inputValue input.source = r'.inputValue input.source := by
    intro input hinput
    apply inputValue_congr
    intro id output name hsource
    exact h id (PlannedNode.mem_feeders_iff.mpr ⟨input, hinput, output, name, hsource⟩)
  exact foldlM_congr fun input hinput values => by rw [hvalue input hinput]

theorem exists_gather_eq_ok_iff {r : Report} {inputs : List PlannedInput} :
    (∃ values, r.gather inputs = .ok values) ↔
      ∀ input ∈ inputs, ∃ value, r.inputValue input.source = .ok value :=
  exists_foldlM_map_eq_ok_iff

theorem inputValue_fromLink_eq_ok_iff {r : Report} {id : NodeId} {output : UInt64} {name : String}
    {value : Datum} : r.inputValue (.fromLink id output name) = .ok value ↔
      ∃ values, r.outputs? id = some values ∧ values.get? name = some value := by
  rw [inputValue, ← Option.bind_eq_some_iff]
  cases (r.outputs? id).bind (·.get? name) <;> simp

/-- An input that has been given is given as long as outputs stay. -/
theorem inputValue_mono {r r' : Report}
    (h : ∀ id values, r.outputs? id = some values → r'.outputs? id = some values)
    {source : InputSource} {value : Datum} (hvalue : r.inputValue source = .ok value) :
    r'.inputValue source = .ok value := by
  cases source with
  | fromParameter found => exact hvalue
  | fromLink id output name =>
      obtain ⟨values, houtputs, hget⟩ := inputValue_fromLink_eq_ok_iff.mp hvalue
      exact inputValue_fromLink_eq_ok_iff.mpr ⟨values, h id values houtputs, hget⟩

theorem gather_mono {r r' : Report}
    (h : ∀ id values, r.outputs? id = some values → r'.outputs? id = some values)
    {inputs : List PlannedInput} {values : Values} (hgather : r.gather inputs = .ok values) :
    r'.gather inputs = .ok values := by
  have hall := exists_gather_eq_ok_iff.mp ⟨values, hgather⟩
  rw [← hgather]
  refine foldlM_congr fun input hinput _ => ?_
  obtain ⟨value, hvalue⟩ := hall input hinput
  rw [hvalue, inputValue_mono h hvalue]

/-- Only a link can fail to provide a value, and its source is the node to blame. -/
theorem inputValue_eq_error {r : Report} {source : InputSource} {id : NodeId}
    (h : r.inputValue source = .error id) : ∃ output name, source = .fromLink id output name := by
  cases source with
  | fromLink feeder output name =>
      rw [inputValue] at h
      split at h
      next => cases h
      next =>
        cases h
        exact ⟨output, name, rfl⟩
  | fromParameter value => cases h

/-- The first input without a value is the one that a node is skipped for. -/
theorem gather_eq_error {r : Report} {inputs : List PlannedInput} {id : NodeId}
    (h : r.gather inputs = .error id) : ∃ before input after, inputs = before ++ input :: after ∧
      (∀ other ∈ before, ∃ value, r.inputValue other.source = .ok value) ∧
        r.inputValue input.source = .error id :=
  foldlM_map_eq_error h

/-- An input leaves the values under all other names alone. -/
theorem get?_of_foldlM_insert {r : Report} {inputs : List PlannedInput} {before after : Values}
    (h : inputs.foldlM (fun values input => (r.inputValue input.source).map
      (values.insert input.name)) before = .ok after) {name : String}
    (hname : ∀ input ∈ inputs, input.name ≠ name) : after.get? name = before.get? name := by
  refine foldlM_preserves (motive := fun values => values.get? name = before.get? name) ?_ h rfl
  intro values input hinput next hnext hvalues
  obtain ⟨value, -, rfl⟩ := map_eq_ok_iff.mp hnext
  rw [KeyMap.get?_insert_of_ne _ (hname input hinput).symm, hvalues]

/-- The last input of a name is the one whose value is given. -/
theorem get?_of_gather {r : Report} {inputs : List PlannedInput} {values : Values}
    (h : r.gather inputs = .ok values) {i : Nat} {input : PlannedInput}
    (hinput : inputs[i]? = some input)
    (hlast : ∀ j other, i < j → inputs[j]? = some other → other.name ≠ input.name) :
    ∃ value, r.inputValue input.source = .ok value ∧ values.get? input.name = some value := by
  obtain ⟨hlt, rfl⟩ := List.getElem?_eq_some_iff.mp hinput
  have hsplit : inputs.take i ++ inputs[i] :: inputs.drop (i + 1) = inputs := by
    rw [List.getElem_cons_drop, List.take_append_drop]
  rw [gather, ← hsplit, List.foldlM_append, bind_eq_ok_iff] at h
  obtain ⟨before, -, h⟩ := h
  rw [List.foldlM_cons, bind_eq_ok_iff] at h
  obtain ⟨middle, hmiddle, hrest⟩ := h
  obtain ⟨value, hvalue, rfl⟩ := map_eq_ok_iff.mp hmiddle
  refine ⟨value, hvalue, ?_⟩
  rw [get?_of_foldlM_insert hrest, KeyMap.get?_insert_self]
  intro other hother
  obtain ⟨j, hj⟩ := List.mem_iff_getElem?.mp hother
  rw [List.getElem?_drop] at hj
  exact hlast (i + 1 + j) other (by omega) hj

/-- The names of the inputs are the keys of their values. -/
theorem mem_keys_of_gather {r : Report} {inputs : List PlannedInput} {values : Values}
    (h : r.gather inputs = .ok values) {name : String} :
    name ∈ values.keys ↔ name ∈ inputs.map PlannedInput.name := by
  rw [KeyMap.mem_keys_iff]
  constructor
  · intro hcontains
    by_contra hnone
    have hnames : ∀ input ∈ inputs, input.name ≠ name := by
      rintro input hinput rfl
      exact hnone (List.mem_map_of_mem hinput)
    rw [KeyMap.contains, get?_of_foldlM_insert h hnames] at hcontains
    cases hcontains
  · intro hname
    obtain ⟨input, hinput, rfl⟩ := List.mem_map.mp hname
    obtain ⟨before, after, rfl⟩ := List.append_of_mem hinput
    rw [gather, List.foldlM_append, bind_eq_ok_iff] at h
    obtain ⟨start, -, h⟩ := h
    rw [List.foldlM_cons, bind_eq_ok_iff] at h
    obtain ⟨middle, hmiddle, hrest⟩ := h
    obtain ⟨value, -, rfl⟩ := map_eq_ok_iff.mp hmiddle
    refine foldlM_preserves (motive := fun values => values.contains input.name = true) ?_ hrest ?_
    · intro values other _ next hnext hvalues
      obtain ⟨found, -, rfl⟩ := map_eq_ok_iff.mp hnext
      rw [KeyMap.contains, KeyMap.get?_insert]
      split
      · rfl
      · exact hvalues
    · rw [KeyMap.contains, KeyMap.get?_insert_self]
      rfl

/-- An output that is declared can be read once its node has succeeded with all it declares. -/
theorem exists_inputValue_eq_ok_iff {r : Report} {id : NodeId} {output : UInt64} {name : String}
    (hname : ∀ values, r.outputs? id = some values → values.contains name = true) :
    (∃ value, r.inputValue (.fromLink id output name) = .ok value) ↔
      r.status? id = some .succeeded := by
  have hstatus : r.status? id = some .succeeded ↔ ∃ values, r.outputs? id = some values := by
    cases hrecord : r.record? id with
    | none => simp [status?, outputs?, hrecord]
    | some record => simp [status?, outputs?, hrecord]
  rw [hstatus]
  simp only [inputValue_fromLink_eq_ok_iff]
  constructor
  · rintro ⟨_, values, hvalues, -⟩
    exact ⟨values, hvalues⟩
  · rintro ⟨values, hvalues⟩
    obtain ⟨value, hvalue⟩ := Option.isSome_iff_exists.mp (hname values hvalues)
    exact ⟨value, values, hvalues, hvalue⟩

/-- An input that reads from a planned node is there just when the node has succeeded, provided that
it has given what it declares. -/
theorem exists_inputValue_iff_of_ordered {r : Report} {plan : Plan} (hp : plan.Ordered)
    {node feeder : PlannedNode} (hnode : node ∈ plan.nodes) (hfeeder : feeder ∈ plan.nodes)
    (hgiven : ∀ values, r.outputs? feeder.id = some values →
      ∀ name ∈ feeder.outputNames, values.contains name = true)
    {input : PlannedInput} (hinput : input ∈ node.inputs) {output : UInt64} {name : String}
    (hsource : input.source = .fromLink feeder.id output name) :
    (∃ value, r.inputValue input.source = .ok value) ↔ r.status? feeder.id = some .succeeded := by
  rw [hsource]
  refine exists_inputValue_eq_ok_iff fun values hvalues => hgiven values hvalues name ?_
  exact hp.declared node hnode input hinput _ output name hsource feeder hfeeder rfl

end Report

end Dataflow
