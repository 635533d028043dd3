import ChangeCapture.Proofs.Debezium.Envelope
import ChangeCapture.Trial.Sample

/-!
# Columns that stay hidden

A topic may drop a column or replace its values by digests.  The column is hidden
if two messages that differ in its values alone lead to events with the same data,
digests aside (`TopicSettings.Conceals`).

Filters and digests go by the names that the source gives.  The row of a delete has
the names of its message key in normal form, so a column whose name is not in normal
form is hidden in all upserts and shown by deletes, unless something else hides or
replaces it (`TopicSettings.conceals_iff`).
-/

namespace ChangeCapture

/-! ## Rows that differ in one column -/

/-- The rows have the same columns, with the same values in all but one. -/
structure Row.DifferIn (column : String) (r r' : Row) : Prop where
  /-- Both have the column, or none of them. -/
  names : r'.contains column = r.contains column
  /-- The other columns are the same. -/
  values : ∀ n, n ≠ column → r'.get? n = r.get? n

namespace Row.DifferIn

variable {column : String} {r r' : Row}

theorem refl (column : String) (r : Row) : DifferIn column r r := ⟨rfl, fun _ _ => rfl⟩

theorem get?_isSome (h : DifferIn column r r') (n : String) :
    (r'.get? n).isSome = (r.get? n).isSome := by
  by_cases same : n = column
  · subst same
    exact h.names
  · rw [h.values n same]

theorem get?_eq_none (h : DifferIn column r r') {n : String} (none : r.get? n = none) :
    r'.get? n = .none := by
  have same := h.get?_isSome n
  rw [none] at same
  exact Option.isNone_iff_eq_none.1 (by simpa using same)

theorem isEmpty_eq (h : DifferIn column r r') : r'.isEmpty = r.isEmpty := by
  rw [Bool.eq_iff_iff, SortedMap.isEmpty_iff, SortedMap.isEmpty_iff]
  refine forall_congr' fun n => ?_
  have same := h.get?_isSome n
  cases hr : r.get? n <;> cases hr' : r'.get? n <;> simp [hr, hr'] at same ⊢

theorem insert (h : DifferIn column r r') {n : String} {v v' : Json}
    (same : n = column ∨ v' = v) : DifferIn column (r.insert n v) (r'.insert n v') := by
  refine ⟨?_, fun n' ne => ?_⟩
  · rw [SortedMap.contains, SortedMap.contains, SortedMap.get?_insert, SortedMap.get?_insert]
    split
    · rfl
    · exact h.names
  · rw [SortedMap.get?_insert, SortedMap.get?_insert]
    split
    · rename_i here
      rw [same.resolve_left fun there => ne (here.trans there)]
    · exact h.values n' ne

end Row.DifferIn

/-! ## Messages that differ in one column -/

namespace Debezium

/-- The fields have the same names, with the same values but for those of one name. -/
def FieldsDifferIn (column : String) : List (String × Json) → List (String × Json) → Prop :=
  List.Forall₂ fun e e' => e'.1 = e.1 ∧ (e.1 = column ∨ e'.2 = e.2)

/-- The message values report rows that differ in one column, and nothing else differs. -/
structure Payload.DifferIn (column : String) (payload payload' : Payload) : Prop where
  /-- The times are the same. -/
  millis : payload'.millis = payload.millis
  /-- The tables are the same. -/
  table : payload'.table = payload.table
  /-- The operations are the same. -/
  operation : payload'.operation = payload.operation
  /-- The rows differ in the column. -/
  after : Option.Rel (Row.DifferIn column) payload.after payload'.after

/-- In the key of a row the column stands under its normal form. -/
theorem differIn_keyColumns {column : String} {fields fields' : List (String × Json)}
    (h : FieldsDifferIn column fields fields') :
    Row.DifferIn (ColumnName.normalize column) (keyColumns fields) (keyColumns fields') := by
  suffices many : ∀ r r' : Row, Row.DifferIn (ColumnName.normalize column) r r' →
      Row.DifferIn (ColumnName.normalize column)
        (r.insertMany ((fields.filter fun e => e.1 != tableField).map
          fun e => (ColumnName.normalize e.1, e.2)))
        (r'.insertMany ((fields'.filter fun e => e.1 != tableField).map
          fun e => (ColumnName.normalize e.1, e.2))) from many _ _ (.refl _ _)
  induction h with
  | nil => exact fun r r' differ => differ
  | @cons e e' rest rest' first _ ih =>
    intro r r' differ
    obtain ⟨name, value⟩ := e
    obtain ⟨name', value'⟩ := e'
    obtain ⟨rfl, same⟩ := first
    rw [List.filter_cons, List.filter_cons]
    split
    · exact ih _ _ (differ.insert (same.imp_left (congrArg ColumnName.normalize)))
    · exact ih r r' differ

/-- The field that names a table is in no key. -/
theorem keyColumns_of_tableField {fields fields' : List (String × Json)}
    (h : FieldsDifferIn tableField fields fields') : keyColumns fields' = keyColumns fields := by
  have same : (fields'.filter fun e => e.1 != tableField) =
      fields.filter fun e => e.1 != tableField := by
    induction h with
    | nil => rfl
    | @cons e e' rest rest' first _ ih =>
      obtain ⟨name, value⟩ := e
      obtain ⟨name', value'⟩ := e'
      obtain ⟨rfl, same⟩ := first
      rw [List.filter_cons, List.filter_cons, ih]
      by_cases here : name' = tableField
      · rw [if_neg (by simp [here]), if_neg (by simp [here])]
      · obtain rfl : value' = value := same.resolve_left here
        rfl
  rw [keyColumns, keyColumns, same]

theorem differIn_convertRow {column : String} {r r' : Row} (h : r.DifferIn column r')
    (fs : List Field) : (convertRow fs r).DifferIn column (convertRow fs r') := by
  refine ⟨?_, fun n ne => ?_⟩
  · rw [SortedMap.contains, SortedMap.contains, get?_convertRow, get?_convertRow,
      Option.isSome_map, Option.isSome_map]
    exact h.names
  · rw [get?_convertRow, get?_convertRow, h.values n ne]

/-- When a change was made, and what it did. -/
theorem changeOf_origin {schema : Option (List Field)} {payload : Payload} {c : Change}
    (h : changeOf schema payload = .ok c) :
    Operation.ofCode? payload.operation = some c.operation ∧ c.time = .ofMillis payload.millis := by
  obtain ⟨operation, code, rfl⟩ := eq_of_changeOf h
  exact ⟨code, rfl⟩

end Debezium

namespace RowEvent

open Debezium (FieldsDifferIn Payload keyColumns changeOf)

/-- The name under which a column of a message stands in the row of a change. -/
def rowName (c : Change) (column : String) : String :=
  if c.isDelete then ColumnName.normalize column else column

/-- Messages that differ in one column report changes that differ in it. -/
theorem differIn_image {column : String} {fields fields' : List (String × Json)}
    {schema : Option (List Debezium.Field)} {payload payload' : Payload} {c c' : Change}
    (keys : FieldsDifferIn column fields fields') (values : payload.DifferIn column payload')
    (h : changeOf schema payload = .ok c) (h' : changeOf schema payload' = .ok c') :
    c'.isDelete = c.isDelete ∧ c'.operation = c.operation ∧ c'.time = c.time ∧
      (image c (keyColumns fields)).DifferIn (rowName c column)
        (image c' (keyColumns fields')) := by
  have deletes : c'.isDelete = c.isDelete := by
    rw [Debezium.isDelete_of_changeOf h, Debezium.isDelete_of_changeOf h']
    have after := values.after
    cases hp : payload.after <;> cases hp' : payload'.after <;> rw [hp, hp'] at after <;>
      cases after
    · rename_i differ
      exact differ.isEmpty_eq
  obtain ⟨code, time⟩ := Debezium.changeOf_origin h
  obtain ⟨code', time'⟩ := Debezium.changeOf_origin h'
  rw [values.operation, code] at code'
  refine ⟨deletes, (Option.some.inj code').symm, by rw [time, time', values.millis], ?_⟩
  unfold image rowName
  rw [deletes]
  split
  · exact Debezium.differIn_keyColumns keys
  · rename_i upserts
    rw [Debezium.isDelete_of_changeOf h] at upserts
    rw [(Debezium.changeOf_parts h).2, (Debezium.changeOf_parts h').2]
    have after := values.after
    cases hp : payload.after <;> cases hp' : payload'.after <;> rw [hp, hp'] at after <;>
      cases after
    · simp [hp] at upserts
    · rename_i row row' differ
      rw [hp, Option.all_some] at upserts
      rw [Option.filter_some_pos (by simpa using upserts),
        Option.filter_some_pos (by simpa [differ.isEmpty_eq] using upserts)]
      exact Debezium.differIn_convertRow differ _

end RowEvent

/-! ## What a topic writes into a row -/

namespace Row

/-- Writes or drops columns, one after the other. -/
def edit (edits : List (String × Option Json)) (r : Row) : Row :=
  edits.foldl (fun r e => e.2.elim (r.erase e.1) (r.insert e.1)) r

theorem edit_append (edits more : List (String × Option Json)) (r : Row) :
    r.edit (edits ++ more) = (r.edit edits).edit more := List.foldl_append ..

/-- One edit writes or drops its column, and leaves the others as they are. -/
theorem get?_edited (r : Row) (e : String × Option Json) (n : String) :
    (e.2.elim (r.erase e.1) (r.insert e.1)).get? n = if n = e.1 then e.2 else r.get? n := by
  obtain ⟨name, value⟩ := e
  cases value with
  | none => exact SortedMap.get?_erase r name n
  | some v => exact SortedMap.get?_insert r name n v

/-- What is written into a column does not depend on what was there. -/
theorem get?_edit_congr {edits : List (String × Option Json)} {r r' : Row} {n : String}
    (h : n ∉ edits.map Prod.fst → r'.get? n = r.get? n) :
    (r'.edit edits).get? n = (r.edit edits).get? n := by
  induction edits generalizing r r' with
  | nil => exact h List.not_mem_nil
  | cons first rest ih =>
    refine ih fun out => ?_
    rw [get?_edited, get?_edited]
    by_cases here : n = first.1
    · rw [if_pos here, if_pos here]
    · rw [if_neg here, if_neg here]
      exact h (by simp [here, out])

theorem get?_edit_of_notMem {edits : List (String × Option Json)} {r : Row} {n : String}
    (out : n ∉ edits.map Prod.fst) : (r.edit edits).get? n = r.get? n := by
  induction edits generalizing r with
  | nil => rfl
  | cons first rest ih =>
    rw [List.map_cons, List.mem_cons, not_or] at out
    refine (ih out.2).trans ?_
    rw [get?_edited, if_neg out.1]

end Row

namespace TopicSettings

open RowEvent (image collectData ofChange systemNames rowName)
open Debezium (FieldsDifferIn Payload keyColumns changeOf tableField)

/-- What a topic writes into the row of a change before the static columns. -/
def systemEdits (s : TopicSettings) (mode : Mode) (c : Change) (now : Instant) :
    List (String × Option Json) :=
  let code := some (Json.string c.operation.code)
  [(SystemColumn.deleted, some (.bool c.isDelete))] ++
    (if s.includeUpdatedAt then [(SystemColumn.updatedAt, some (.string now.toRfc3339))] else []) ++
    (if s.includeDatabaseUpdatedAt then
      [(SystemColumn.databaseUpdatedAt, some (.string c.time.toRfc3339))] else []) ++
    (if s.includeOperation then [(SystemColumn.operation, code)] else []) ++
    match mode with
    | .replication => []
    | .history =>
      [(SystemColumn.operation, code), (SystemColumn.deleted, none),
        (SystemColumn.onlySetDelete, none)]

/-- What a topic writes into the row of a change. -/
def edits (s : TopicSettings) (mode : Mode) (c : Change) (now : Instant) :
    List (String × Option Json) :=
  s.systemEdits mode c now ++ s.staticColumns.map fun x => (x.name, some (.string x.value))

/-- The columns that a topic writes itself, or drops for what it writes. -/
def ownNames (s : TopicSettings) (mode : Mode) : List String :=
  systemNames s ++
    (match mode with
      | .replication => []
      | .history => [SystemColumn.operation, SystemColumn.deleted, SystemColumn.onlySetDelete]) ++
    s.staticNames

theorem names_edits (s : TopicSettings) (mode : Mode) (c : Change) (now : Instant) :
    (s.edits mode c now).map Prod.fst = s.ownNames mode := by
  have static : (s.staticColumns.map fun x => (x.name, some (Json.string x.value))).map Prod.fst =
      s.staticNames := by
    rw [List.map_map]
    rfl
  simp only [edits, ownNames, systemEdits, systemNames]
  rw [List.map_append, static]
  cases s.includeUpdatedAt <;> cases s.includeDatabaseUpdatedAt <;> cases s.includeOperation <;>
    cases mode <;> rfl

theorem collectData_eq_edit (s : TopicSettings) (mode : Mode) (c : Change) (key : Row)
    (now : Instant) :
    collectData s mode c key now = (image c key).edit (s.systemEdits mode c now) := by
  simp only [collectData, baseData, systemEdits, image]
  generalize (if c.isDelete then key else c.after.getD .empty) = row
  cases s.includeUpdatedAt <;> cases s.includeDatabaseUpdatedAt <;> cases s.includeOperation <;>
    cases mode <;> rfl

/-- The data of an event is the row of its change with what the topic writes into it, shaped. -/
theorem data_of_ofChange {s : TopicSettings} {mode : Mode} {now : Instant} {key : Row} {c : Change}
    {e : RowEvent} (h : ofChange s mode now key c = .ok e) :
    e.data = s.shapeData ((image c key).edit (s.edits mode c now)) := by
  obtain ⟨-, -, -, -, data, hdata, shaped⟩ := RowEvent.ofChange_parts h
  obtain ⟨-, -, rfl⟩ := addStatic_eq_ok_iff.1 hdata
  rw [shaped, collectData_eq_edit, edits, Row.edit_append, putStatic, Row.edit, Row.edit,
    List.foldl_map]
  rfl

/-! ## Hidden columns -/

/-- The events of two messages that differ in the values of one column, in the row after the
change and in the key, and are taken in at one time. -/
inductive Twins (s : TopicSettings) (mode : Mode) (column : String) : RowEvent → RowEvent → Prop
  /-- Both messages are read and make an event. -/
  | intro {now : Instant} {fields fields' : List (String × Json)}
      {schema : Option (List Debezium.Field)} {payload payload' : Payload} {c c' : Change}
      {e e' : RowEvent} (keys : FieldsDifferIn column fields fields')
      (values : payload.DifferIn column payload') (reads : changeOf schema payload = .ok c)
      (reads' : changeOf schema payload' = .ok c')
      (makes : ofChange s mode now (keyColumns fields) c = .ok e)
      (makes' : ofChange s mode now (keyColumns fields') c' = .ok e') : Twins s mode column e e'

end TopicSettings

/-- Whether a value is what a digest leaves: null, or the digest of a value. -/
def Json.IsDigest (v : Json) : Prop := ∃ u : Json, v = u.hashed

theorem Json.isDigest_iterate {k : Nat} (some : k ≠ 0) (v : Json) :
    (Json.hashed^[k] v).IsDigest := by
  obtain ⟨j, rfl⟩ := Nat.exists_eq_succ_of_ne_zero some
  exact ⟨_, Function.iterate_succ_apply' ..⟩

theorem Json.iterate_hashed_eq_null {k : Nat} {v : Json} :
    Json.hashed^[k] v = .null ↔ v = .null := by
  induction k with
  | zero => exact Iff.rfl
  | succ k ih =>
    rw [Function.iterate_succ_apply', ← ih]
    cases Json.hashed^[k] v <;> simp [Json.hashed]

theorem Json.not_isDigest_int (i : Int) : ¬ (Json.int i).IsDigest := by
  rintro ⟨u, same⟩
  cases u <;> cases same

/-- The values of two rows are the same, or digests. -/
def Json.AlikeHashed (x x' : Option Json) : Prop :=
  x' = x ∨ ∃ v v', x = some v ∧ x' = some v' ∧ v.IsDigest ∧ v'.IsDigest

namespace TopicSettings

open RowEvent (image collectData ofChange systemNames rowName)
open Debezium (FieldsDifferIn Payload keyColumns changeOf tableField)

/-- What the lists of a topic promise for a column.  Two messages that differ in its values lead
to events with the same data if the column is dropped, and with the same data but for digests if it
is replaced by them. -/
structure Conceals (s : TopicSettings) (mode : Mode) (column : String) : Prop where
  /-- A column that is dropped is absent, and its values make no difference. -/
  dropped : column ∈ s.columnsToExclude → ∀ e e', s.Twins mode column e e' →
    e.data.get? column = none ∧ e'.data = e.data
  /-- A column that is replaced holds a digest, and its values make a difference to digests only. -/
  replaced : column ∈ s.columnsToHash → ∀ e e', s.Twins mode column e e' →
    (∀ v, e.data.get? column = some v → v.IsDigest) ∧
      ∀ n, Json.AlikeHashed (e.data.get? n) (e'.data.get? n)

variable {s : TopicSettings} {mode : Mode} {column : String}

/-- The data of twins may differ where the column stands in the row of the change, if it is shown
there and the topic does not write it. -/
theorem twins_data {e e' : RowEvent} (twins : s.Twins mode column e e') (n : String) :
    e'.data.get? n = e.data.get? n ∨
      (n = column ∨ n = ColumnName.normalize column ∧ column ≠ tableField) ∧ s.keeps n ∧
        n ∉ s.ownNames mode ∧ ∃ u u',
          e.data.get? n = some (Json.hashed^[s.columnsToHash.count n] u) ∧
          e'.data.get? n = some (Json.hashed^[s.columnsToHash.count n] u') := by
  obtain @⟨now, fields, fields', schema, payload, payload', c, c', _, _, keys, values, reads, reads',
    makes, makes'⟩ := twins
  obtain ⟨deletes, operation, time, differ⟩ := RowEvent.differIn_image keys values reads reads'
  have edits : s.edits mode c' now = s.edits mode c now := by
    simp only [TopicSettings.edits, systemEdits, deletes, operation, time]
  rw [data_of_ofChange makes, data_of_ofChange makes', edits, get?_shapeData, get?_shapeData]
  by_cases shown : s.keeps n
  swap
  · exact .inl (by rw [if_neg shown, if_neg shown])
  rw [if_pos shown, if_pos shown]
  by_cases own : n ∈ s.ownNames mode
  · have written : n ∈ (s.edits mode c now).map Prod.fst := by rwa [names_edits]
    exact .inl (by rw [Row.get?_edit_congr fun out => absurd written out])
  have kept : n ∉ (s.edits mode c now).map Prod.fst := by rwa [names_edits]
  rw [Row.get?_edit_of_notMem kept, Row.get?_edit_of_notMem kept]
  by_cases here : n = rowName c column
  swap
  · exact .inl (by rw [differ.values n here])
  cases there : (image c (keyColumns fields)).get? n with
  | none => exact .inl (by rw [differ.get?_eq_none there])
  | some u =>
    obtain ⟨u', there'⟩ :=
      Option.isSome_iff_exists.1 ((differ.get?_isSome n).trans (by rw [there]; rfl))
    have place : (n = column ∨ n = ColumnName.normalize column ∧ column ≠ tableField) ∨ u' = u := by
      unfold rowName at here
      split at here
      · rename_i delete
        by_cases table : column = tableField
        · subst table
          rw [image, if_pos delete] at there
          rw [image, if_pos (by rw [deletes, delete]), Debezium.keyColumns_of_tableField keys,
            there] at there'
          exact .inr (Option.some.inj there').symm
        · exact .inl (.inr ⟨here, table⟩)
      · exact .inl (.inl here)
    rcases place with place | rfl
    · exact .inr ⟨place, shown, own, u, u', rfl, by rw [there']; rfl⟩
    · exact .inl (by rw [there'])

/-- A column is hidden in deletes if it is in no key, or what stands under its normal form is
dropped, written by the topic, or replaced as the lists ask for. -/
def HidesKey (s : TopicSettings) (mode : Mode) (column : String) : Prop :=
  column = tableField ∨ ¬ s.keeps (ColumnName.normalize column) ∨
    ColumnName.normalize column ∈ s.ownNames mode ∨
    column ∉ s.columnsToExclude ∧ ColumnName.normalize column ∈ s.columnsToHash

theorem conceals_of_hidesKey (hides : s.HidesKey mode column) : s.Conceals mode column := by
  constructor
  · intro out e e' twins
    have dropped : ¬ s.keeps column := by simp [keeps, out]
    constructor
    · cases twins with
      | intro _ _ _ _ makes _ =>
        rw [data_of_ofChange makes, get?_shapeData, if_neg dropped]
    · refine SortedMap.ext_get? fun n => ?_
      rcases twins_data twins n with same | ⟨rfl | ⟨rfl, key⟩, shown, own, -⟩
      · exact same
      · exact absurd shown dropped
      · rcases hides with table | hidden | written | ⟨kept, -⟩
        · exact absurd table key
        · exact absurd shown hidden
        · exact absurd written own
        · exact absurd out kept
  · intro listed e e' twins
    constructor
    · intro v hv
      cases twins with
      | intro _ _ _ _ makes _ =>
        rw [data_of_ofChange makes] at hv
        obtain ⟨-, u, -, rfl⟩ := keeps_of_get? hv
        exact Json.isDigest_iterate (Nat.ne_of_gt (List.count_pos_iff.2 listed)) u
    · intro n
      rcases twins_data twins n with same | ⟨place, shown, own, u, u', hu, hu'⟩
      · exact .inl same
      · have hashed : n ∈ s.columnsToHash := by
          rcases place with rfl | ⟨rfl, key⟩
          · exact listed
          · rcases hides with table | hidden | written | ⟨-, hashed⟩
            · exact absurd table key
            · exact absurd shown hidden
            · exact absurd written own
            · exact hashed
        have some := Nat.ne_of_gt (List.count_pos_iff.2 hashed)
        exact .inr ⟨_, _, hu, hu', Json.isDigest_iterate some u, Json.isDigest_iterate some u'⟩

/-! ## Columns that deletes show -/

/-- Whether an event can be made of a change depends on the names in its key only. -/
theorem ofChange_isOk_of_keys {now : Instant} {key key' : Row} {c : Change} {e : RowEvent}
    (same : key'.keys = key.keys) (makes : ofChange s mode now key c = .ok e) :
    ∃ e', ofChange s mode now key' c = .ok e' := by
  have names : s.keyNames key' = s.keyNames key := by
    unfold keyNames
    rw [same]
  obtain ⟨-, -, -, -, data, hdata, -⟩ := RowEvent.ofChange_parts makes
  obtain ⟨free, distinct, -⟩ := addStatic_eq_ok_iff.1 hdata
  have free' : ∀ x ∈ s.staticColumns, (collectData s mode c key' now).get? x.name = none := by
    intro x mem
    have absent := free x mem
    rw [collectData_eq_edit] at absent ⊢
    by_cases written : x.name ∈ (s.systemEdits mode c now).map Prod.fst
    · rwa [Row.get?_edit_congr fun out => absurd written out]
    · rw [Row.get?_edit_of_notMem written] at absent ⊢
      unfold image at absent ⊢
      split
      · rename_i delete
        rw [if_pos delete] at absent
        refine Option.eq_none_iff_forall_ne_some.2 fun v there => ?_
        have listed : x.name ∈ key.keys := same ▸ SortedMap.mem_keys_iff.2 ⟨v, there⟩
        obtain ⟨u, hu⟩ := SortedMap.mem_keys_iff.1 listed
        rw [absent] at hu
        cases hu
      · rename_i upsert
        rwa [if_neg upsert] at absent
  have hdata' := addStatic_eq_ok_iff.2 ⟨free', distinct, rfl⟩
  unfold ofChange at makes ⊢
  rw [names]
  simp only at makes ⊢
  split at makes
  all_goals
    obtain ⟨columns, marked, -⟩ := Outcome.bind_eq_ok.1 makes
    rw [marked, hdata']
    exact ⟨_, rfl⟩

/-- Some delete whose key is the column alone makes an event. -/
def DeletesBy (s : TopicSettings) (mode : Mode) (column : String) : Prop :=
  ∃ now payload c e, payload.after = none ∧ changeOf none payload = .ok c ∧
    ofChange s mode now (keyColumns [(column, .null)]) c = .ok e

/-- What a delete shows of a column that is not hidden in deletes. -/
theorem twins_of_shown (builds : s.DeletesBy mode column) (shown : ¬ s.HidesKey mode column) :
    ∃ e e', s.Twins mode column e e' ∧
      e.data.get? (ColumnName.normalize column) =
        some (Json.hashed^[s.columnsToHash.count (ColumnName.normalize column)] .null) ∧
      e'.data.get? (ColumnName.normalize column) =
        some (Json.hashed^[s.columnsToHash.count (ColumnName.normalize column)] (.int 1)) := by
  obtain ⟨now, payload, c, e, bare, reads, makes⟩ := builds
  simp only [HidesKey, not_or, not_not] at shown
  obtain ⟨key, kept, own, -⟩ := shown
  have delete : c.isDelete = true := by rw [Debezium.isDelete_of_changeOf reads, bare]; rfl
  have one : ∀ v, keyColumns [(column, v)] = .ofList [(ColumnName.normalize column, v)] := by
    intro v
    rw [keyColumns, List.filter_cons_of_pos (by simpa using key)]
    rfl
  have names : (keyColumns [(column, .int 1)]).keys = (keyColumns [(column, .null)]).keys := by
    rw [one, one]
    rfl
  obtain ⟨e', makes'⟩ := ofChange_isOk_of_keys names makes
  have data : ∀ (v : Json) (e : RowEvent),
      ofChange s mode now (keyColumns [(column, v)]) c = .ok e →
        e.data.get? (ColumnName.normalize column) =
          some (Json.hashed^[s.columnsToHash.count (ColumnName.normalize column)] v) := by
    intro v e makes
    have out : ColumnName.normalize column ∉ (s.edits mode c now).map Prod.fst := by
      rwa [names_edits]
    rw [data_of_ofChange makes, get?_shapeData, if_pos kept, Row.get?_edit_of_notMem out, image,
      if_pos delete, one]
    have there : (SortedMap.ofList [(ColumnName.normalize column, v)]).get?
        (ColumnName.normalize column) = some v := SortedMap.get?_insert_self ..
    rw [there]
    rfl
  have differ : FieldsDifferIn column [(column, .null)] [(column, .int 1)] :=
    .cons ⟨rfl, .inl rfl⟩ .nil
  have same : payload.DifferIn column payload := ⟨rfl, rfl, rfl, by rw [bare]; exact .none⟩
  exact ⟨e, e', .intro differ same reads reads makes makes', data _ _ makes, data _ _ makes'⟩

/-- The lists of a topic keep what they promise for a column if and only if it is hidden in
deletes. -/
theorem conceals_iff (filtered : column ∈ s.columnsToHash ∨ column ∈ s.columnsToExclude)
    (builds : s.DeletesBy mode column) : s.Conceals mode column ↔ s.HidesKey mode column := by
  refine ⟨fun conceals => ?_, conceals_of_hidesKey⟩
  by_contra shown
  obtain ⟨e, e', twins, clear, clear'⟩ := twins_of_shown builds shown
  by_cases out : column ∈ s.columnsToExclude
  · have same := (conceals.dropped out e e' twins).2
    rw [same, clear, Json.iterate_hashed_eq_null.2 rfl] at clear'
    cases Json.iterate_hashed_eq_null.1 (Option.some.inj clear').symm
  · have plain : ColumnName.normalize column ∉ s.columnsToHash := by
      intro hashed
      exact shown (.inr (.inr (.inr ⟨out, hashed⟩)))
    rw [List.count_eq_zero.2 plain] at clear clear'
    rcases (conceals.replaced (filtered.resolve_right out) e e' twins).2
      (ColumnName.normalize column) with same | ⟨v, v', -, hv', -, digest⟩
    · rw [clear, clear'] at same
      cases same
    · rw [clear'] at hv'
      obtain rfl := Option.some.inj hv'
      exact Json.not_isDigest_int 1 digest

/-- A topic that replaces a column by digests. -/
def hashing (column : String) : TopicSettings :=
  { Sample.settings "people" with columnsToHash := [column] }

/-- A delete without a row. -/
def sampleDelete : Payload := ⟨none, Sample.millis, "people", Operation.delete.code⟩

theorem conceals_iff_email :
    "email" ∈ (hashing "email").columnsToHash ∧ (hashing "email").DeletesBy .replication "email" ∧
      ((hashing "email").Conceals .replication "email" ↔
        (hashing "email").HidesKey .replication "email") := by
  have builds : (hashing "email").DeletesBy .replication "email" :=
    ⟨⟨0⟩, sampleDelete, _, _, rfl, rfl, rfl⟩
  have listed : "email" ∈ (hashing "email").columnsToHash := List.mem_singleton.2 rfl
  exact ⟨listed, builds, conceals_iff (.inl listed) builds⟩

/-- A column whose digest is asked for by the name that the source gives stands in clear in the
event of a delete. -/
theorem delete_shows_hashed_column :
    (hashing "ID").validate = .ok () ∧ ¬ (hashing "ID").Conceals .replication "ID" ∧
      ∃ c e, changeOf none sampleDelete = .ok c ∧
        ofChange (hashing "ID") .replication ⟨0⟩ (keyColumns [("ID", .int 5)]) c = .ok e ∧
        e.data.get? "id" = some (.int 5) := by
  refine ⟨rfl, fun conceals => ?_, _, _, rfl, rfl, rfl⟩
  have differ : FieldsDifferIn "ID" [("ID", .int 5)] [("ID", .int 6)] := .cons ⟨rfl, .inl rfl⟩ .nil
  have same : sampleDelete.DifferIn "ID" sampleDelete := ⟨rfl, rfl, rfl, .none⟩
  have reads : changeOf none sampleDelete = .ok _ := rfl
  have makes : ∀ i, ofChange (hashing "ID") .replication ⟨0⟩ (keyColumns [("ID", .int i)])
    (Sample.change "people" .delete none) = .ok _ := fun _ => rfl
  have twins := Twins.intro differ same reads reads (makes 5) (makes 6)
  rcases (conceals.replaced (List.mem_singleton.2 rfl) _ _ twins).2 "id" with
    same | ⟨v, v', -, hv', -, digest⟩
  · cases same
  · obtain rfl := Option.some.inj hv'
    exact Json.not_isDigest_int 6 digest

end TopicSettings

end ChangeCapture
