import ChangeCapture.Proofs.RowEvent.Columns
import ChangeCapture.RowEvent.Shaping
import Mathlib.Logic.Function.Iterate

/-!
# What shaping leaves of a change

Digests and filters work column by column (`TopicSettings.get?_shapeData`).  A
column that is not replaced by its digest keeps its value or goes away.  So the
mark of the delete that an event carries tells whether its change deletes the
row (`RowEvent.deleted_of_ofChange`).
-/

namespace ChangeCapture

theorem Outcome.bind_eq_ok {α β : Type} {x : Outcome α} {f : α → Outcome β} {b : β} :
    x >>= f = .ok b ↔ ∃ a, x = .ok a ∧ f a = .ok b := by
  cases x <;> simp [bind, Except.bind]

namespace Row

/-- A column is replaced by its digest as often as it is listed. -/
theorem get?_hashColumns (names : List String) (r : Row) (n : String) :
    (r.hashColumns names).get? n = (r.get? n).map Json.hashed^[names.count n] := by
  simp only [hashColumns]
  induction names generalizing r with
  | nil => simp
  | cons name rest ih =>
    rw [List.foldl_cons, ih, SortedMap.get?_modify]
    by_cases same : n = name
    · subst same
      rw [if_pos rfl, List.count_cons_self, Option.map_map, Function.iterate_succ]
    · rw [if_neg same, List.count_cons_of_ne (Ne.symm same)]

theorem get?_dropColumns (names : List String) (r : Row) (n : String) :
    (r.dropColumns names).get? n = if n ∈ names then none else r.get? n := by
  simp only [dropColumns]
  induction names generalizing r with
  | nil => simp
  | cons name rest ih =>
    rw [List.foldl_cons, ih, SortedMap.get?_erase]
    by_cases same : n = name
    · simp [same]
    · simp [same]

end Row

namespace TopicSettings

/-- Whether the filters keep a column. -/
def keeps (s : TopicSettings) (n : String) : Bool :=
  !s.columnsToExclude.contains n && (s.columnsToInclude.isEmpty || s.keptNames.contains n)

/-- Digests and filters work column by column. -/
theorem get?_shapeData (s : TopicSettings) (data : Row) (n : String) :
    (s.shapeData data).get? n =
      if s.keeps n then (data.get? n).map Json.hashed^[s.columnsToHash.count n] else none := by
  have dropped : ((data.hashColumns s.columnsToHash).dropColumns s.columnsToExclude).get? n =
      if n ∈ s.columnsToExclude then none
      else (data.get? n).map Json.hashed^[s.columnsToHash.count n] := by
    rw [Row.get?_dropColumns, Row.get?_hashColumns]
  simp only [shapeData]
  split
  · rename_i all
    rw [dropped]
    by_cases out : n ∈ s.columnsToExclude <;> simp [keeps, all, out]
  · rename_i some
    rw [Row.keepColumns, SortedMap.get?_filter, dropped]
    by_cases out : n ∈ s.columnsToExclude
    · simp [keeps, out]
    · by_cases listed : n ∈ s.keptNames <;>
        cases data.get? n <;> simp [keeps, some, out, Option.filter, listed]

theorem keeps_of_get? {s : TopicSettings} {data : Row} {n : String} {v : Json}
    (h : (s.shapeData data).get? n = some v) :
    s.keeps n ∧ ∃ u, data.get? n = some u ∧ Json.hashed^[s.columnsToHash.count n] u = v := by
  rw [get?_shapeData] at h
  split at h
  · rename_i kept
    obtain ⟨u, hu, same⟩ := Option.map_eq_some_iff.1 h
    exact ⟨kept, u, hu, same⟩
  · cases h

/-! ## Static columns -/

/-- The data with static columns put into it. -/
def putStatic (data : Row) (columns : List StaticColumn) : Row :=
  columns.foldl (fun r c => r.insert c.name (.string c.value)) data

/-- Static columns can be added if their names are free and distinct. -/
theorem addStatic_eq_ok_iff {data data' : Row} {columns : List StaticColumn} :
    addStatic data columns = .ok data' ↔
      (∀ c ∈ columns, data.get? c.name = none) ∧ (columns.map StaticColumn.name).Nodup ∧
        data' = putStatic data columns := by
  induction columns generalizing data with
  | nil => simp [addStatic, putStatic, eq_comm]
  | cons c rest ih =>
    unfold addStatic
    cases taken : data.get? c.name with
    | some v => simp [SortedMap.contains, taken]
    | none =>
      have free : data.contains c.name = false := by simp [SortedMap.contains, taken]
      have others : (∀ c' ∈ rest, (data.insert c.name (.string c.value)).get? c'.name = none) ↔
          c.name ∉ rest.map StaticColumn.name ∧ ∀ c' ∈ rest, data.get? c'.name = none := by
        simp only [SortedMap.get?_insert, List.mem_map, not_exists, not_and, ← forall_and]
        refine forall_congr' fun c' => ?_
        by_cases same : c'.name = c.name <;> simp [same]
      rw [free, if_neg Bool.false_ne_true, ih, others, List.forall_mem_cons, List.map_cons,
        List.nodup_cons]
      simp only [taken, true_and]
      constructor
      · rintro ⟨⟨fresh, free⟩, distinct, rfl⟩
        exact ⟨free, ⟨fresh, distinct⟩, rfl⟩
      · rintro ⟨free, ⟨fresh, distinct⟩, rfl⟩
        exact ⟨⟨fresh, free⟩, distinct, rfl⟩

theorem mem_keys_putStatic {data : Row} {columns : List StaticColumn} {n : String} :
    n ∈ (putStatic data columns).keys ↔ n ∈ data.keys ∨ n ∈ columns.map StaticColumn.name := by
  induction columns generalizing data with
  | nil => simp [putStatic]
  | cons c rest ih =>
    have step : putStatic data (c :: rest) =
        putStatic (data.insert c.name (.string c.value)) rest := rfl
    rw [step, ih, List.map_cons, List.mem_cons, SortedMap.mem_keys_iff, SortedMap.mem_keys_iff]
    by_cases same : n = c.name
    · simp [same]
    · simp [SortedMap.get?_insert_of_ne _ _ same, same]

/-- A static column holds a text.  All other columns stay as they are. -/
theorem get?_putStatic (data : Row) (columns : List StaticColumn) (n : String) :
    (n ∉ columns.map StaticColumn.name ∧ (putStatic data columns).get? n = data.get? n) ∨
      ∃ c ∈ columns, c.name = n ∧ (putStatic data columns).get? n = some (.string c.value) := by
  induction columns generalizing data with
  | nil => exact .inl ⟨List.not_mem_nil, rfl⟩
  | cons c rest ih =>
    have step : putStatic data (c :: rest) =
        putStatic (data.insert c.name (.string c.value)) rest := rfl
    rw [step, List.map_cons, List.mem_cons]
    rcases ih (data.insert c.name (.string c.value)) with ⟨out, same⟩ | ⟨c', mem, here, same⟩
    · by_cases here : n = c.name
      · subst here
        exact .inr ⟨c, List.mem_cons_self, rfl, by rw [same, SortedMap.get?_insert_self]⟩
      · refine .inl ⟨?_, by rw [same, SortedMap.get?_insert_of_ne _ _ here]⟩
        rintro (same | mem)
        · exact here same
        · exact out mem
    · exact .inr ⟨c', List.mem_cons_of_mem _ mem, here, same⟩

theorem get?_addStatic {data data' : Row} {columns : List StaticColumn}
    (h : addStatic data columns = .ok data') {n : String} {v : Json} (hv : data.get? n = some v) :
    data'.get? n = some v := by
  induction columns generalizing data with
  | nil =>
    obtain rfl := Except.ok.inj h
    exact hv
  | cons c rest ih =>
    unfold addStatic at h
    split at h
    · cases h
    · rename_i free
      refine ih h ?_
      rw [SortedMap.get?_insert_of_ne _ _ ?_, hv]
      rintro rfl
      exact free (by rw [SortedMap.contains, hv]; rfl)

/-! ## Columns that are declared -/

/-- Whether the filters keep a declared column. -/
def announces (s : TopicSettings) (n : String) : Bool :=
  !s.columnsToExclude.contains n &&
    (s.columnsToInclude.isEmpty || (s.columnsToInclude ++ SystemColumn.all).contains n)

theorem find?_static (columns : List StaticColumn) (n : String) :
    (columns.map fun c => Column.new c.name .string).find? (·.name == n) =
      if n ∈ columns.map StaticColumn.name then some (.new n .string) else none := by
  induction columns with
  | nil => rfl
  | cons c rest ih =>
    by_cases same : c.name = n
    · subst same
      simp [Column.new]
    · have other : ((Column.new c.name .string).name == n) = false := beq_false_of_ne same
      rw [List.map_cons, List.find?_cons_of_neg (by rw [other]; exact Bool.false_ne_true), ih]
      simp [Ne.symm same]

/-- The filters keep a declared column as it is or drop it, and static columns are added behind what
is kept. -/
theorem get?_shapeColumns {s : TopicSettings} {n : String} (named : n ≠ "")
    (columns : Option ColumnRegistry) :
    ((s.shapeColumns columns).getD .empty).get? n =
      (if s.announces n then (columns.getD .empty).get? n else none).or
        (if n ∈ s.staticNames then some (.new n .string) else none) := by
  unfold shapeColumns
  split
  · rename_i bare
    simp only [Bool.and_eq_true, Option.isNone_iff_eq_none, List.isEmpty_iff] at bare
    simp [bare.1, bare.2, staticNames, ColumnRegistry.get?, ColumnRegistry.empty]
  · rw [Option.getD_some, ColumnRegistry.get?_addAll _ _ named, find?_static]
    congr 1
    have kept := ColumnRegistry.get?_eraseAll s.columnsToExclude (columns.getD .empty) n
    split
    · rename_i all
      rw [kept]
      by_cases out : n ∈ s.columnsToExclude <;> simp [announces, all, out]
    · rename_i some
      rw [ColumnRegistry.get?_pick _ _ named, kept]
      by_cases out : n ∈ s.columnsToExclude <;> simp [announces, some, out]

/-! ## Primary keys -/

/-- Marking primary keys leaves the other columns as they are. -/
theorem get?_markKeys {names : List String} {r r' : ColumnRegistry}
    (h : markKeys names r = .ok r') {n : String} (other : n ∉ names) : r'.get? n = r.get? n := by
  unfold markKeys at h
  induction names generalizing r with
  | nil =>
    obtain rfl := Except.ok.inj h
    rfl
  | cons name rest ih =>
    rw [List.foldlM_cons] at h
    obtain ⟨r₁, first, h⟩ := Outcome.bind_eq_ok.1 h
    rw [List.mem_cons, not_or] at other
    rw [ih h other.2, ColumnRegistry.get?_mark_of_ne first other.1]

/-- Marking primary keys leaves the kinds of the columns that are there as they are. -/
theorem kind_of_markKeys {names : List String} {r r' : ColumnRegistry}
    (h : markKeys names r = .ok r') {n : String} {c : Column} (hc : r.get? n = some c) :
    ∃ c', r'.get? n = some c' ∧ c'.kind = c.kind := by
  unfold markKeys at h
  induction names generalizing r c with
  | nil =>
    obtain rfl := Except.ok.inj h
    exact ⟨c, hc, rfl⟩
  | cons name rest ih =>
    rw [List.foldlM_cons] at h
    obtain ⟨r₁, first, h⟩ := Outcome.bind_eq_ok.1 h
    obtain ⟨c₁, hc₁, same⟩ := ColumnRegistry.kind_mark first hc
    obtain ⟨c', hc', kind⟩ := ih h hc₁
    exact ⟨c', hc', kind.trans same⟩

theorem mem_addKey {keys : List String} {n p : String} : p ∈ addKey keys n ↔ p ∈ keys ∨ p = n := by
  unfold addKey
  split
  · rename_i there
    have there : n ∈ keys := List.contains_iff_mem.1 there
    exact ⟨.inl, fun | .inl mem => mem | .inr same => same ▸ there⟩
  · rw [List.mem_append, List.mem_singleton]

theorem mem_foldl_addKey {keys names : List String} {p : String} :
    p ∈ names.foldl addKey keys ↔ p ∈ keys ∨ p ∈ names := by
  induction names generalizing keys with
  | nil => simp
  | cons n rest ih => rw [List.foldl_cons, ih, mem_addKey, List.mem_cons, or_assoc]

/-- The primary keys are those of the settings in place of all others, or else the names in the
message key and the further ones of the settings. -/
theorem mem_keyNames {s : TopicSettings} {key : Row} {p : String} : p ∈ s.keyNames key ↔
    if s.primaryKeysOverride.isEmpty then
      p ∈ key.keys ∨ p ∈ s.includePrimaryKeys.map ColumnName.normalize
    else p ∈ s.primaryKeysOverride.map ColumnName.normalize := by
  unfold keyNames
  split
  · exact mem_foldl_addKey
  · rfl

theorem mem_sortNames {names : List String} {n : String} : n ∈ sortNames names ↔ n ∈ names :=
  List.mem_mergeSort

/-- Columns that have a name can be marked as primary keys. -/
theorem markKeys_isOk {names : List String} (named : ∀ n ∈ names, n ≠ "")
    (columns : ColumnRegistry) : ∃ columns', markKeys names columns = .ok columns' := by
  unfold markKeys
  induction names generalizing columns with
  | nil => exact ⟨columns, rfl⟩
  | cons n rest ih =>
    have marked : ∃ columns', columns.mark n .asPrimaryKey = .ok columns' := by
      simp only [ColumnRegistry.mark]
      rw [if_neg (by simpa using named n List.mem_cons_self)]
      split <;> exact ⟨_, rfl⟩
    obtain ⟨columns', marked⟩ := marked
    obtain ⟨all, rest'⟩ := ih (fun n mem => named n (List.mem_cons_of_mem _ mem)) columns'
    refine ⟨all, ?_⟩
    rw [List.foldlM_cons, marked]
    exact rest'

end TopicSettings

namespace RowEvent

/-- System columns have names in normal form. -/
theorem normalize_system : ∀ n ∈ SystemColumn.all, ColumnName.normalize n = n := by
  decide +kernel

theorem get?_deleted_collectData (s : TopicSettings) (c : Change) (key : Row) (now : Instant) :
    (collectData s .replication c key now).get? SystemColumn.deleted =
      some (.bool c.isDelete) := by
  have operation : SystemColumn.deleted ≠ SystemColumn.operation := by decide
  have updated : SystemColumn.deleted ≠ SystemColumn.updatedAt := by decide
  have dated : SystemColumn.deleted ≠ SystemColumn.databaseUpdatedAt := by decide
  unfold collectData TopicSettings.baseData
  simp only
  split <;> split <;> split <;>
    simp [SortedMap.get?_insert_of_ne, operation, updated, dated]

/-- The row of a change, before columns are added to it: the row after the change, or the key. -/
def image (c : Change) (key : Row) : Row := if c.isDelete then key else c.after.getD .empty

/-- The system columns that the settings ask for in replication mode. -/
def systemNames (s : TopicSettings) : List String :=
  SystemColumn.deleted :: ((if s.includeUpdatedAt then [SystemColumn.updatedAt] else []) ++
    (if s.includeDatabaseUpdatedAt then [SystemColumn.databaseUpdatedAt] else []) ++
    (if s.includeOperation then [SystemColumn.operation] else []))

theorem mem_keys_collectData {s : TopicSettings} {c : Change} {key : Row} {now : Instant}
    {n : String} :
    n ∈ (collectData s .replication c key now).keys ↔
      n ∈ (image c key).keys ∨ n ∈ systemNames s := by
  have insert : ∀ (r : Row) (m : String) (v : Json),
      n ∈ (r.insert m v).keys ↔ n ∈ r.keys ∨ n = m := by
    intro r m v
    rw [SortedMap.mem_keys_iff, SortedMap.mem_keys_iff, SortedMap.get?_insert]
    by_cases same : n = m <;> simp [same]
  simp only [collectData, TopicSettings.baseData, systemNames, image]
  generalize (if c.isDelete then key else c.after.getD .empty) = row
  cases s.includeUpdatedAt <;> cases s.includeDatabaseUpdatedAt <;> cases s.includeOperation <;>
    simp [insert, or_assoc]

/-- Columns that are no system columns stay as they are in the row of a change. -/
theorem get?_collectData {n : String} (other : n ∉ SystemColumn.all) (s : TopicSettings)
    (c : Change) (key : Row) (now : Instant) :
    (collectData s .replication c key now).get? n = (image c key).get? n := by
  simp only [SystemColumn.all, List.mem_cons, List.not_mem_nil, or_false, not_or] at other
  obtain ⟨deleted, -, updated, dated, operation⟩ := other
  simp only [collectData, TopicSettings.baseData, image]
  generalize (if c.isDelete then key else c.after.getD .empty) = row
  split <;> split <;> split <;>
    simp [SortedMap.get?_insert_of_ne, deleted, updated, dated, operation]

/-- The columns that an event declares: none, or those that shaping leaves, with the primary keys
marked. -/
def Marks (s : TopicSettings) (c : Change) (key : Row) (columns : Option ColumnRegistry) : Prop :=
  (s.shapeColumns c.columns = none ∧ columns = none) ∨
    ∃ r r', s.shapeColumns c.columns = some r ∧
      TopicSettings.markKeys (s.keyNames key) r = .ok r' ∧ columns = some r'

/-- An event that is made has its static columns added and its primary keys marked. -/
theorem eq_of_ofChange {s : TopicSettings} {mode : Mode} {now : Instant} {key : Row} {c : Change}
    {e : RowEvent} (h : ofChange s mode now key c = .ok e) :
    ∃ columns data, Marks s c key columns ∧
      TopicSettings.addStatic (collectData s mode c key now) s.staticColumns = .ok data ∧
      e = ⟨s.tableFor mode c.table, ⟨s.schema, s.tableFor mode c.table⟩, s.shapeData data, c.hints,
        columns, c.isDelete, TopicSettings.sortNames (s.keyNames key), c.time, mode⟩ := by
  unfold ofChange at h
  simp only at h
  split at h
  · rename_i bare
    obtain ⟨columns, same, h⟩ := Outcome.bind_eq_ok.1 h
    obtain ⟨data, hdata, h⟩ := Outcome.bind_eq_ok.1 h
    obtain rfl := Except.ok.inj same
    exact ⟨none, data, .inl ⟨bare, rfl⟩, hdata, (Except.ok.inj h).symm⟩
  · rename_i r shaped
    obtain ⟨columns, marked, h⟩ := Outcome.bind_eq_ok.1 h
    obtain ⟨data, hdata, h⟩ := Outcome.bind_eq_ok.1 h
    cases hm : TopicSettings.markKeys (s.keyNames key) r with
    | error f =>
      rw [hm] at marked
      cases marked
    | ok r' =>
      rw [hm] at marked
      obtain rfl := Except.ok.inj marked
      exact ⟨some r', data, .inr ⟨r, r', shaped, hm, rfl⟩, hdata, (Except.ok.inj h).symm⟩

/-- What the fields of an event are made from. -/
theorem ofChange_parts {s : TopicSettings} {mode : Mode} {now : Instant} {key : Row} {c : Change}
    {e : RowEvent} (h : ofChange s mode now key c = .ok e) :
    e.tableId = ⟨s.schema, e.table⟩ ∧ e.mode = mode ∧ e.isDelete = c.isDelete ∧
      e.hints = c.hints ∧
      ∃ data, TopicSettings.addStatic (collectData s mode c key now) s.staticColumns = .ok data ∧
        e.data = s.shapeData data := by
  obtain ⟨columns, data, -, hdata, rfl⟩ := eq_of_ofChange h
  exact ⟨rfl, rfl, rfl, rfl, data, hdata, rfl⟩

/-- The table and the primary keys of an event. -/
theorem ofChange_names {s : TopicSettings} {mode : Mode} {now : Instant} {key : Row} {c : Change}
    {e : RowEvent} (h : ofChange s mode now key c = .ok e) :
    e.table = s.tableFor mode c.table ∧
      e.primaryKeys = TopicSettings.sortNames (s.keyNames key) := by
  obtain ⟨columns, data, -, -, rfl⟩ := eq_of_ofChange h
  exact ⟨rfl, rfl⟩

theorem marks_of_ofChange {s : TopicSettings} {mode : Mode} {now : Instant} {key : Row} {c : Change}
    {e : RowEvent} (h : ofChange s mode now key c = .ok e) : Marks s c key e.columns := by
  obtain ⟨columns, data, marks, -, rfl⟩ := eq_of_ofChange h
  exact marks

/-- An event is made of a change if the primary keys have names and the static columns fit. -/
theorem ofChange_isOk {s : TopicSettings} {mode : Mode} {now : Instant} {key : Row} {c : Change}
    (named : ∀ n ∈ s.keyNames key, n ≠ "") {data : Row}
    (h : TopicSettings.addStatic (collectData s mode c key now) s.staticColumns = .ok data) :
    ∃ e, ofChange s mode now key c = .ok e := by
  cases declared : s.shapeColumns c.columns with
  | none =>
    simp only [ofChange, declared, h]
    exact ⟨_, rfl⟩
  | some columns =>
    obtain ⟨columns', marked⟩ := TopicSettings.markKeys_isOk named columns
    simp only [ofChange, declared, h, marked]
    exact ⟨_, rfl⟩

/-- A digest is no truth value. -/
theorem isTrue_mark (n : Nat) (b : Bool) :
    (Json.hashed^[n] (.bool b)).collapsed.isTrue = (decide (n = 0) && b) := by
  cases n with
  | zero => cases b <;> rfl
  | succ k =>
    rw [Function.iterate_succ_apply']
    unfold Json.collapsed
    split
    · rfl
    · cases Json.hashed^[k] (.bool b) <;> rfl

section Mark

variable {s : TopicSettings} {now : Instant} {key : Row} {c : Change} {e : RowEvent}

/-- The rules for events in replication mode. -/
theorem validate_eq_ok_iff (mode : e.mode = .replication) :
    e.validate = .ok () ↔
      Unicode.isBlankText e.table = false ∧ e.primaryKeys.isEmpty = false ∧
        e.data.contains SystemColumn.deleted := by
  have checked : (e.mode != .history) = true := by
    rw [mode]
    rfl
  unfold validate
  rw [checked, Bool.true_and]
  cases Unicode.isBlankText e.table <;> cases e.primaryKeys.isEmpty <;>
    cases marked : e.data.contains SystemColumn.deleted <;>
    cases empty : e.data.isEmpty <;> simp
  have none := SortedMap.isEmpty_iff.1 empty SystemColumn.deleted
  rw [SortedMap.contains, none] at marked
  cases marked

/-- An event in replication mode that breaks no rule has the mark of the delete. -/
theorem contains_deleted_of_valid (mode : e.mode = .replication) (valid : e.validate = .ok ()) :
    e.data.contains SystemColumn.deleted :=
  ((validate_eq_ok_iff mode).1 valid).2.2

/-- The mark of the delete tells whether the change deletes the row, or is a digest of that. -/
theorem mark_of_ofChange (h : ofChange s .replication now key c = .ok e) {v : Json}
    (hv : e.data.get? SystemColumn.deleted = some v) :
    v = Json.hashed^[s.columnsToHash.count SystemColumn.deleted] (.bool e.isDelete) := by
  obtain ⟨-, -, deletes, -, data, hdata, shaped⟩ := ofChange_parts h
  obtain ⟨-, u, hu, rfl⟩ := TopicSettings.keeps_of_get? (shaped ▸ hv)
  have collected :=
    TopicSettings.get?_addStatic hdata (get?_deleted_collectData s c key now)
  rw [deletes, Option.some.inj (hu.symm.trans collected)]

/-- The row that is saved has a true mark if and only if the change deletes the row and the mark is
not replaced by its digest. -/
theorem isDeleted_savedRow (h : ofChange s .replication now key c = .ok e)
    (apart : NamedApart e.data) (valid : e.validate = .ok ()) :
    e.savedRow.isDeleted ↔ e.isDelete ∧ SystemColumn.deleted ∉ s.columnsToHash := by
  obtain ⟨v, hv⟩ := Option.isSome_iff_exists.1
    (contains_deleted_of_valid (ofChange_parts h).2.1 valid)
  have normal := normalize_system SystemColumn.deleted (by decide)
  have saved : e.savedRow.get? SystemColumn.deleted = some v.collapsed := by
    simp only [savedRow]
    rw [get?_foldl_put apart.distinct_entries, apart.find?_eq_some_iff.2 ⟨hv, normal⟩]
    rfl
  rw [Row.isDeleted, saved, Option.any_some, mark_of_ofChange h hv, isTrue_mark,
    Bool.and_eq_true, decide_eq_true_iff, List.count_eq_zero, and_comm]

/-- An event of a change in replication mode that has the mark of the delete at all tells by it
whether the change deletes the row. -/
theorem deleted_of_ofChange (h : ofChange s .replication now key c = .ok e)
    (plain : SystemColumn.deleted ∉ s.columnsToHash)
    (marked : e.data.contains SystemColumn.deleted) :
    e.data.get? SystemColumn.deleted = some (.bool e.isDelete) := by
  obtain ⟨v, hv⟩ := Option.isSome_iff_exists.1 marked
  rw [hv, mark_of_ofChange h hv, List.count_eq_zero.2 plain]
  rfl

end Mark

/-- A digest is no truth value, so what is one was not replaced. -/
theorem iterate_hashed_eq_bool {n : Nat} {v : Json} {b : Bool} :
    Json.hashed^[n] v = .bool b ↔ n = 0 ∧ v = .bool b := by
  cases n with
  | zero => simp
  | succ k =>
    rw [Function.iterate_succ_apply']
    cases Json.hashed^[k] v <;> simp [Json.hashed]

/-- The mark of the delete is true if and only if the change deletes its row, the row is not
appended, and the mark is neither dropped nor replaced by its digest. -/
theorem mark_eq_true_iff {s : TopicSettings} {mode : Mode} {now : Instant} {key : Row} {c : Change}
    {e : RowEvent} (h : ofChange s mode now key c = .ok e) :
    e.data.get? SystemColumn.deleted = some (.bool true) ↔
      mode = .replication ∧ c.isDelete ∧ SystemColumn.deleted ∉ s.columnsToExclude ∧
        SystemColumn.deleted ∉ s.columnsToHash := by
  obtain ⟨-, -, -, -, data, hdata, shaped⟩ := ofChange_parts h
  rw [shaped, TopicSettings.get?_shapeData]
  have kept : s.keeps SystemColumn.deleted ↔ SystemColumn.deleted ∉ s.columnsToExclude := by
    have system : SystemColumn.deleted ∈ s.keptNames := by
      simp [TopicSettings.keptNames, SystemColumn.all]
    simp [TopicSettings.keeps, system]
  cases mode with
  | replication =>
    have collected := TopicSettings.get?_addStatic hdata (get?_deleted_collectData s c key now)
    rw [collected, Option.map_some]
    split
    · rename_i keeps
      rw [Option.some.injEq, iterate_hashed_eq_bool, List.count_eq_zero, Json.bool.injEq]
      have := kept.1 keeps
      tauto
    · rename_i drops
      have := mt kept.2 drops
      tauto
  | history =>
    have erased : (collectData s .history c key now).get? SystemColumn.deleted = none := by
      have other : SystemColumn.deleted ≠ SystemColumn.onlySetDelete := by decide
      simp only [collectData]
      rw [SortedMap.get?_erase, if_neg other, SortedMap.get?_erase, if_pos rfl]
    obtain ⟨-, -, rfl⟩ := TopicSettings.addStatic_eq_ok_iff.1 hdata
    refine iff_of_false (fun marked => ?_) (fun h => Mode.noConfusion h.1)
    rcases TopicSettings.get?_putStatic (collectData s .history c key now) s.staticColumns
      SystemColumn.deleted with ⟨-, same⟩ | ⟨column, -, -, same⟩
    · rw [same, erased] at marked
      split at marked <;> cases marked
    · rw [same, Option.map_some] at marked
      split at marked
      · exact Json.noConfusion (iterate_hashed_eq_bool.1 (Option.some.inj marked)).2
      · cases marked

end RowEvent

end ChangeCapture
