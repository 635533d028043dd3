import ChangeCapture.Proofs.Debezium.Envelope
import ChangeCapture.Proofs.Engine.Hosting
import ChangeCapture.Trial.Sample

/-!
# Deletes and the rows they delete

The row of an upsert has the values after the change, under the names that the
source gives, in the form that an embedded schema says they have.  The row of a
delete is made from the message key, which has names in normal form and values as
they stand in it.  Digests and filters go by name.  So an upsert and a delete of
one row have one key if and only if the values of its primary keys come to the
same texts on both ways (`RowEvent.delete_finds_row_iff`).
-/

namespace ChangeCapture

namespace TopicSettings

/-- What is saved of the value of a column, if the filters keep it. -/
def shapeValue? (s : TopicSettings) (n : String) (v : Json) : Option Json :=
  if s.keeps n then some (Json.hashed^[s.columnsToHash.count n] v).collapsed else none

/-- What is saved of data under a name in normal form. -/
def shapedValue? (s : TopicSettings) (data : Row) (p : String) : Option Json :=
  (data.toList.find? fun x => ColumnName.normalize x.1 == p).bind fun x => s.shapeValue? x.1 x.2

end TopicSettings

namespace RowEvent

/-! ## Shaped rows -/

namespace NamedApart

variable {data : Row} {s : TopicSettings}

theorem shapedValue?_eq_some_iff (h : NamedApart data) {p : String} {w : Json} :
    s.shapedValue? data p = some w ↔
      ∃ n v, data.get? n = some v ∧ ColumnName.normalize n = p ∧ s.shapeValue? n v = some w := by
  rw [TopicSettings.shapedValue?, Option.bind_eq_some_iff]
  constructor
  · rintro ⟨⟨n, v⟩, found, shows⟩
    obtain ⟨hv, same⟩ := h.find?_eq_some_iff.1 found
    exact ⟨n, v, hv, same, shows⟩
  · rintro ⟨n, v, hv, same, shows⟩
    exact ⟨(n, v), h.find?_eq_some_iff.2 ⟨hv, same⟩, shows⟩

theorem shapedValue?_normalize (h : NamedApart data) {p n : String} {v : Json}
    (hv : data.get? n = some v) (same : ColumnName.normalize n = p) :
    s.shapedValue? data p = s.shapeValue? n v := by
  rw [TopicSettings.shapedValue?, h.find?_eq_some_iff.2 ⟨hv, same⟩, Option.bind_some]

theorem shapeData (h : NamedApart data) (s : TopicSettings) : NamedApart (s.shapeData data) := by
  have mem : ∀ n ∈ (s.shapeData data).keys, n ∈ data.keys := by
    intro n mem
    obtain ⟨v, hv⟩ := SortedMap.mem_keys_iff.1 mem
    obtain ⟨-, u, hu, -⟩ := TopicSettings.keeps_of_get? hv
    exact SortedMap.mem_keys_iff.2 ⟨u, hu⟩
  exact of_inj (fun n here => h.named n (mem n here))
    fun n here n' here' => h.inj (mem n here) (mem n' here')

/-- The row that is saved has what shaping leaves of each value. -/
theorem get?_savedRow (h : NamedApart data) {e : RowEvent} (shaped : e.data = s.shapeData data) :
    e.savedRow.get? = s.shapedValue? data := by
  have apart : NamedApart e.data := shaped ▸ h.shapeData s
  funext p
  simp only [savedRow]
  rw [get?_foldl_put apart.distinct_entries, SortedMap.get?_empty, Option.or_none]
  refine Option.ext fun w => ?_
  rw [Option.map_eq_some_iff, h.shapedValue?_eq_some_iff]
  constructor
  · rintro ⟨⟨n, v⟩, found, rfl⟩
    obtain ⟨hv, same⟩ := apart.find?_eq_some_iff.1 found
    obtain ⟨kept, u, hu, rfl⟩ := TopicSettings.keeps_of_get? (shaped ▸ hv)
    exact ⟨n, u, hu, same, if_pos kept⟩
  · rintro ⟨n, u, hu, same, shows⟩
    unfold TopicSettings.shapeValue? at shows
    split at shows
    · rename_i kept
      refine ⟨(n, Json.hashed^[s.columnsToHash.count n] u),
        apart.find?_eq_some_iff.2 ⟨?_, same⟩, Option.some.inj shows⟩
      rw [shaped, TopicSettings.get?_shapeData, if_pos kept, hu, Option.map_some]
    · cases shows

/-- Static columns that fit into data fit into data whose names are normal forms of its names. -/
theorem addStatic_renamed {columns : List StaticColumn} {base base' : Row}
    (h : NamedApart data) (fits : TopicSettings.addStatic base columns = .ok data)
    (renamed : ∀ n ∈ base'.keys, ∃ x ∈ base.keys, ColumnName.normalize x = n) :
    ∃ data', TopicSettings.addStatic base' columns = .ok data' ∧ NamedApart data' := by
  obtain ⟨free, distinct, rfl⟩ := TopicSettings.addStatic_eq_ok_iff.1 fits
  have fresh : ∀ x ∈ base.keys, x ∉ columns.map StaticColumn.name := by
    intro x mem listed
    obtain ⟨v, hv⟩ := SortedMap.mem_keys_iff.1 mem
    obtain ⟨c, hc, rfl⟩ := List.mem_map.1 listed
    rw [free c hc] at hv
    cases hv
  have old : ∀ x ∈ base.keys, x ∈ (TopicSettings.putStatic base columns).keys :=
    fun x mem => TopicSettings.mem_keys_putStatic.2 (.inl mem)
  have static : ∀ x ∈ columns.map StaticColumn.name,
      x ∈ (TopicSettings.putStatic base columns).keys :=
    fun x mem => TopicSettings.mem_keys_putStatic.2 (.inr mem)
  have apart : ∀ n ∈ base'.keys, ∀ c ∈ columns.map StaticColumn.name,
      ColumnName.normalize n ≠ ColumnName.normalize c := by
    rintro n mem c listed same
    obtain ⟨x, hx, rfl⟩ := renamed n mem
    rw [ColumnName.normalize_normalize] at same
    exact fresh x hx (h.inj (old x hx) (static c listed) same ▸ listed)
  refine ⟨_, TopicSettings.addStatic_eq_ok_iff.2 ⟨fun c hc => ?_, distinct, rfl⟩,
    of_inj (fun n mem => ?_) fun n mem n' mem' same => ?_⟩
  · refine Option.eq_none_iff_forall_ne_some.2 fun v hv => ?_
    exact apart c.name (SortedMap.mem_keys_iff.2 ⟨v, hv⟩) c.name (List.mem_map_of_mem hc) rfl
  · rcases TopicSettings.mem_keys_putStatic.1 mem with mem | listed
    · obtain ⟨x, hx, rfl⟩ := renamed n mem
      rw [ColumnName.normalize_normalize]
      exact h.named x (old x hx)
    · exact h.named n (static n listed)
  · rcases TopicSettings.mem_keys_putStatic.1 mem with mem | listed <;>
      rcases TopicSettings.mem_keys_putStatic.1 mem' with mem' | listed'
    · obtain ⟨x, -, rfl⟩ := renamed n mem
      obtain ⟨x', -, rfl⟩ := renamed n' mem'
      rwa [ColumnName.normalize_normalize, ColumnName.normalize_normalize] at same
    · exact absurd same (apart n mem n' listed')
    · exact absurd same.symm (apart n' mem' n listed)
    · exact h.inj (static n listed) (static n' listed') same

end NamedApart

/-! ## Keys -/

/-- The parts of a key for primary keys, joined. -/
def joinParts (value? : String → Option Json) : List String → Option String
  | [] => some ""
  | p :: rest => (value? p).bind fun v => (joinParts value? rest).map (keyPart p v ++ ·)

theorem keyOf_eq_ok_iff {table : String} {row : Row} {names : List String} {key : String} :
    keyOf table row names = .ok key ↔ joinParts row.get? names = some key := by
  induction names generalizing key with
  | nil => simp [keyOf, joinParts]
  | cons p rest ih =>
    unfold keyOf joinParts
    cases row.get? p with
    | none => simp
    | some v =>
      cases hr : keyOf table row rest with
      | error f =>
        have none : joinParts row.get? rest = none :=
          Option.eq_none_iff_forall_ne_some.2 fun tail ht => by
            rw [ih.2 ht] at hr
            cases hr
        simp [none, bind, Except.bind]
      | ok tail => simp [ih.1 hr, bind, Except.bind]

theorem value_of_joinParts {value? : String → Option Json} {names : List String} {key : String}
    (h : joinParts value? names = some key) : ∀ p ∈ names, ∃ v, value? p = some v := by
  induction names generalizing key with
  | nil => simp
  | cons p rest ih =>
    unfold joinParts at h
    obtain ⟨v, hv, h⟩ := Option.bind_eq_some_iff.1 h
    obtain ⟨tail, htail, -⟩ := Option.map_eq_some_iff.1 h
    rw [List.forall_mem_cons]
    exact ⟨⟨v, hv⟩, ih htail⟩

theorem joinParts_congr {value? value'? : String → Option Json} {names : List String}
    (h : ∀ p ∈ names, value? p = value'? p) : joinParts value? names = joinParts value'? names := by
  induction names with
  | nil => rfl
  | cons p rest ih =>
    unfold joinParts
    rw [h p List.mem_cons_self, ih fun p mem => h p (List.mem_cons_of_mem _ mem)]

/-! ## Events that delete -/

/-- The saving of an event deletes the row of a key and no other: the other rows that are buffered
stay, and when the window is merged the row goes away and what is stored of rows that are not
buffered stays. -/
def Erases (s : TopicSettings) (e : RowEvent) (key : String) : Prop :=
  ∀ (m : Message) (r : TableRegistry), (∀ w, r.content e.tableId = some w → w.Keyed s) →
    ∃ w, (e.save s m r).1.content e.tableId = some w ∧
      (∀ k, k ≠ key → w.keyed.get? k = buffered (r.content e.tableId) k) ∧
      ∀ t : StoredTable, (t.merge (w.adopt t.columns)).rows.get? key = none ∧
        ∀ k, w.keyed.get? k = none →
          (t.merge (w.adopt t.columns)).rows.get? k = t.rows.get? k

/-- An event that can be saved is laid over what is buffered. -/
theorem content_save {s : TopicSettings} {e : RowEvent} (savable : e.Savable)
    (mode : e.mode = .replication) {key : String} (hkey : e.savedKey = .ok key) (m : Message)
    {r : TableRegistry} (keyed : ∀ w, r.content e.tableId = some w → w.Keyed s) :
    ∃ w, (e.save s m r).1.content e.tableId = some w ∧ Lays s (r.content e.tableId) e key w := by
  have ok := (save_isOk_iff e s m r).2 savable
  have step := e.save_step s m r
  revert step ok
  generalize (e.save s m r).1 = r'
  generalize (e.save s m r).2 = outcome
  rintro ⟨reason, rfl⟩ step
  cases step with
  | @saved key' valid hkey' columns opens visits =>
    obtain rfl := Except.ok.inj (hkey.symm.trans hkey')
    refine ⟨e.stored s m r key, ?_, lays_stored keyed mode key opens visits m⟩
    rw [TableRegistry.content_putWindow_self, isEmpty_stored, if_neg Bool.false_ne_true]

/-- An event that is saved under a key deletes the row if and only if the mark in its row is true
and the topic deletes for good. -/
theorem erases_iff {s : TopicSettings} {e : RowEvent} (savable : e.Savable)
    (mode : e.mode = .replication) {key : String} (hkey : e.savedKey = .ok key)
    (hard : s.softDelete = false) : Erases s e key ↔ e.savedRow.isDeleted := by
  constructor
  · intro erases
    have keyed : ∀ w, (TableRegistry.new .default).content e.tableId = some w → w.Keyed s := nofun
    have m := Sample.message "" 0 .empty .empty
    obtain ⟨w, hw, -, merges⟩ := erases m _ keyed
    obtain ⟨w', hw', lays⟩ := content_save savable mode hkey m keyed
    obtain rfl := Option.some.inj (hw.symm.trans hw')
    have row : (w.adopt StoredTable.empty.columns).keyed.get? key = some e.savedRow := by
      show w.keyed.get? key = _
      rw [lays.rows, if_pos rfl]
      rfl
    have gone := (merges .empty).1
    rw [StoredTable.get?_merge, row] at gone
    by_contra stays
    simp [stays] at gone
  · intro mark m r keyed
    obtain ⟨w, hw, lays⟩ := content_save savable mode hkey m keyed
    refine ⟨w, hw, fun k other => by rw [lays.rows, if_neg other], fun t => ⟨?_, fun k vacant => ?_⟩⟩
    · have row : (w.adopt t.columns).keyed.get? key =
          some (Tracks.layer (buffered (r.content e.tableId) key) e.savedRow) := by
        show w.keyed.get? key = _
        rw [lays.rows, if_pos rfl]
      have soft : (w.adopt t.columns).settings.softDelete = false := by
        show w.settings.softDelete = false
        rw [lays.keyed.1, hard]
      obtain ⟨v, hv, istrue⟩ := (Option.any_eq_true _ _).1 mark
      have gone : (Tracks.layer (buffered (r.content e.tableId) key) e.savedRow).isDeleted := by
        cases v with
        | bool b =>
          obtain rfl : b = true := istrue
          exact Tracks.isDeleted_layer hv _
        | _ => cases istrue
      rw [StoredTable.get?_merge, row]
      simp [gone, soft]
    · have absent : (w.adopt t.columns).keyed.get? k = none := vacant
      rw [StoredTable.get?_merge, absent]

/-! ## The event of a delete -/

/-- The data of an event in replication mode before digests and filters. -/
def gathered (s : TopicSettings) (c : Change) (key : Row) (now : Instant) : Row :=
  TopicSettings.putStatic (collectData s .replication c key now) s.staticColumns

section Gathered

variable {s : TopicSettings} {c : Change} {key : Row} {now : Instant}

theorem ofChange_gathered {e : RowEvent} (h : ofChange s .replication now key c = .ok e) :
    TopicSettings.addStatic (collectData s .replication c key now) s.staticColumns =
        .ok (gathered s c key now) ∧
      e.data = s.shapeData (gathered s c key now) := by
  obtain ⟨-, -, -, -, data, fits, shaped⟩ := ofChange_parts h
  obtain ⟨-, -, rfl⟩ := TopicSettings.addStatic_eq_ok_iff.1 fits
  exact ⟨fits, shaped⟩

theorem mem_all_of_systemNames : ∀ n ∈ systemNames s, n ∈ SystemColumn.all := by
  unfold systemNames
  cases s.includeUpdatedAt <;> cases s.includeDatabaseUpdatedAt <;> cases s.includeOperation <;>
    decide

end Gathered

section Delete

open Debezium (UpsertThenDelete keyColumns imageFields convertAs tableField)

variable {s : TopicSettings} {fields : List (String × Json)}
  {schema schema' : Option (List Debezium.Field)} {payload payload' : Debezium.Payload}
  {c c' : Change} {now now' : Instant}

/-- The row of the delete has the names of the row of the upsert, in normal form. -/
theorem renamed_collectData (h : UpsertThenDelete fields schema schema' payload payload' c c')
    (s : TopicSettings) (now now' : Instant) :
    ∀ n ∈ (collectData s .replication c' (keyColumns fields) now').keys,
      ∃ x ∈ (collectData s .replication c (keyColumns fields) now).keys,
        ColumnName.normalize x = n := by
  intro n mem
  rcases mem_keys_collectData.1 mem with mem | system
  · rw [image, if_pos h.isDelete_delete] at mem
    obtain ⟨v, hv⟩ := SortedMap.mem_keys_iff.1 mem
    obtain ⟨r, listed, other, rfl⟩ := Debezium.mem_of_get?_keyColumns hv
    refine ⟨r, mem_keys_collectData.2 (.inl ?_), rfl⟩
    rw [image, h.image_upsert.1, if_neg Bool.false_ne_true]
    exact SortedMap.mem_keys_iff.2 ⟨_, h.image_upsert.2 r v listed other⟩
  · exact ⟨n, mem_keys_collectData.2 (.inr system),
      normalize_system n (mem_all_of_systemNames n system)⟩

/-- The values of a column of the message key, in the row of the upsert and in that of the
delete. -/
theorem get?_gathered (h : UpsertThenDelete fields schema schema' payload payload' c c')
    (fits : TopicSettings.addStatic (collectData s .replication c (keyColumns fields) now)
      s.staticColumns = .ok (gathered s c (keyColumns fields) now))
    (apart : NamedApart (gathered s c (keyColumns fields) now))
    (fits' : TopicSettings.addStatic (collectData s .replication c' (keyColumns fields) now')
      s.staticColumns = .ok (gathered s c' (keyColumns fields) now'))
    {r : String} {v : Json} (mem : (r, v) ∈ fields) (other : r ≠ tableField)
    (own : r ∉ SystemColumn.all) (own' : ColumnName.normalize r ∉ SystemColumn.all) :
    (gathered s c (keyColumns fields) now).get? r =
        some (convertAs (imageFields schema) r v) ∧
      (gathered s c' (keyColumns fields) now').get? (ColumnName.normalize r) = some v := by
  have upsert : ∀ r v, (r, v) ∈ fields → r ≠ tableField → r ∉ SystemColumn.all →
      (gathered s c (keyColumns fields) now).get? r =
        some (convertAs (imageFields schema) r v) := by
    intro r v mem other own
    refine TopicSettings.get?_addStatic fits ?_
    rw [get?_collectData own, image, h.image_upsert.1, if_neg Bool.false_ne_true]
    exact h.image_upsert.2 r v mem other
  refine ⟨upsert r v mem other own, TopicSettings.get?_addStatic fits' ?_⟩
  rw [get?_collectData own', image, if_pos h.isDelete_delete]
  refine Debezium.get?_keyColumns mem other fun r' u mem' other' same => ?_
  have own'' : r' ∉ SystemColumn.all := fun system => by
    rw [← same, normalize_system r' system] at own'
    exact own' system
  have here := SortedMap.mem_keys_iff.2 ⟨_, upsert r v mem other own⟩
  have here' := SortedMap.mem_keys_iff.2 ⟨_, upsert r' u mem' other' own''⟩
  obtain rfl := apart.inj here' here same
  exact h.unique mem mem' other

/-- What is saved of a column of the message key, by the upsert and by the delete. -/
theorem shapedValue?_gathered
    (h : UpsertThenDelete fields schema schema' payload payload' c c')
    (fits : TopicSettings.addStatic (collectData s .replication c (keyColumns fields) now)
      s.staticColumns = .ok (gathered s c (keyColumns fields) now))
    (apart : NamedApart (gathered s c (keyColumns fields) now))
    (fits' : TopicSettings.addStatic (collectData s .replication c' (keyColumns fields) now')
      s.staticColumns = .ok (gathered s c' (keyColumns fields) now'))
    (apart' : NamedApart (gathered s c' (keyColumns fields) now'))
    {r : String} {v : Json} (mem : (r, v) ∈ fields) (other : r ≠ tableField)
    (own : r ∉ SystemColumn.all) (own' : ColumnName.normalize r ∉ SystemColumn.all) :
    s.shapedValue? (gathered s c (keyColumns fields) now) (ColumnName.normalize r) =
        s.shapeValue? r (convertAs (imageFields schema) r v) ∧
      s.shapedValue? (gathered s c' (keyColumns fields) now') (ColumnName.normalize r) =
        s.shapeValue? (ColumnName.normalize r) v := by
  obtain ⟨upsert, delete⟩ := get?_gathered h fits apart fits' mem other own own'
  exact ⟨apart.shapedValue?_normalize upsert rfl,
    apart'.shapedValue?_normalize delete (ColumnName.normalize_normalize r)⟩

/-- The delete is an event that can be saved as soon as its row has a key. -/
theorem ofChange_delete (h : UpsertThenDelete fields schema schema' payload payload' c c')
    {e : RowEvent} (made : ofChange s .replication now (keyColumns fields) c = .ok e)
    (savable : e.Savable) (apart : NamedApart (gathered s c (keyColumns fields) now))
    (now' : Instant) :
    ∃ e', ofChange s .replication now' (keyColumns fields) c' = .ok e' ∧
      NamedApart (gathered s c' (keyColumns fields) now') ∧
      e'.primaryKeys = e.primaryKeys ∧ e'.validate = .ok () ∧
      ∀ v ∈ e'.data.toList, v.2.standsForUnavailable →
        (ColumnName.normalize v.1).isEmpty = false := by
  obtain ⟨fits, shaped⟩ := ofChange_gathered made
  obtain ⟨table, keys⟩ := ofChange_names made
  obtain ⟨data', fits', apart'⟩ :=
    apart.addStatic_renamed fits (renamed_collectData h s now now')
  obtain ⟨-, -, rfl⟩ := TopicSettings.addStatic_eq_ok_iff.1 fits'
  have named : ∀ n ∈ s.keyNames (keyColumns fields), n ≠ "" := by
    intro n mem
    obtain ⟨key, hkey⟩ := savable.keyed
    have values := value_of_joinParts (keyOf_eq_ok_iff.1 hkey)
    obtain ⟨v, hv⟩ := values n (by rw [keys]; exact TopicSettings.mem_sortNames.2 mem)
    rw [apart.get?_savedRow shaped] at hv
    obtain ⟨x, u, hu, rfl, -⟩ := apart.shapedValue?_eq_some_iff.1 hv
    exact apart.named x (SortedMap.mem_keys_iff.2 ⟨u, hu⟩)
  obtain ⟨e', made'⟩ := ofChange_isOk named fits'
  have shaped' := (ofChange_gathered made').2
  obtain ⟨table', keys'⟩ := ofChange_names made'
  obtain ⟨-, mode, -⟩ := ofChange_parts made
  obtain ⟨-, mode', -⟩ := ofChange_parts made'
  refine ⟨e', made', apart', keys'.trans keys.symm, ?_, fun v mem _ => ?_⟩
  · obtain ⟨full, keyed, marked⟩ := (validate_eq_ok_iff mode).1 savable.valid
    refine (validate_eq_ok_iff mode').2 ⟨?_, ?_, ?_⟩
    · rw [table', h.table_eq, ← table]
      exact full
    · rw [keys', ← keys]
      exact keyed
    · obtain ⟨v, hv⟩ := Option.isSome_iff_exists.1 marked
      obtain ⟨kept, -⟩ := TopicSettings.keeps_of_get? (shaped ▸ hv)
      have mark :=
        TopicSettings.get?_addStatic fits' (get?_deleted_collectData s c' (keyColumns fields) now')
      rw [SortedMap.contains, shaped', TopicSettings.get?_shapeData, if_pos kept]
      exact Option.isSome_iff_exists.2 ⟨_, congrArg _ mark⟩
  · have apart'' : NamedApart e'.data := shaped' ▸ apart'.shapeData s
    have listed : v.1 ∈ e'.data.keys := List.mem_map_of_mem mem
    simpa [String.isEmpty_iff] using apart''.named v.1 listed

/-- The delete is saved under a key, and deletes the row of this key if the topic deletes for
good. -/
def FindsRow (s : TopicSettings) (now : Instant) (key : Row) (c : Change) (rowKey : String) :
    Prop :=
  ∃ e, ofChange s .replication now key c = .ok e ∧ e.Savable ∧ e.savedKey = .ok rowKey ∧
    (s.softDelete = false → Erases s e rowKey)

/-- Each primary key is a column of the message key, which has its name in normal form and its
value in the form in which it is saved. -/
def PlainlyKeyed (schema : Option (List Debezium.Field)) (fields : List (String × Json))
    (names : List String) : Prop :=
  ∀ p ∈ names, p ∉ SystemColumn.all ∧ p ≠ tableField ∧ ColumnName.normalize p = p ∧
    ∃ v, (p, v) ∈ fields ∧ convertAs (imageFields schema) p v = v

/-- A delete is saved under the key of the upsert, and deletes its row, if and only if the values of
the primary keys come to the same text on both ways and the mark of the delete is not replaced by
its digest. -/
theorem delete_finds_row_iff (h : UpsertThenDelete fields schema schema' payload payload' c c')
    {e : RowEvent} (made : ofChange s .replication now (keyColumns fields) c = .ok e)
    (savable : e.Savable) {rowKey : String} (hkey : e.savedKey = .ok rowKey)
    (apart : NamedApart (gathered s c (keyColumns fields) now)) (now' : Instant) :
    (FindsRow s now' (keyColumns fields) c' rowKey ↔
        joinParts (s.shapedValue? (gathered s c' (keyColumns fields) now')) e.primaryKeys =
            joinParts (s.shapedValue? (gathered s c (keyColumns fields) now)) e.primaryKeys ∧
          (s.softDelete = false → SystemColumn.deleted ∉ s.columnsToHash)) ∧
      (∀ r v, (r, v) ∈ fields → r ≠ tableField → r ∉ SystemColumn.all →
        ColumnName.normalize r ∉ SystemColumn.all →
        s.shapedValue? (gathered s c (keyColumns fields) now) (ColumnName.normalize r) =
            s.shapeValue? r (convertAs (imageFields schema) r v) ∧
          s.shapedValue? (gathered s c' (keyColumns fields) now') (ColumnName.normalize r) =
            s.shapeValue? (ColumnName.normalize r) v) ∧
      (PlainlyKeyed schema fields e.primaryKeys → SystemColumn.deleted ∉ s.columnsToHash →
        FindsRow s now' (keyColumns fields) c' rowKey) := by
  obtain ⟨fits, shaped⟩ := ofChange_gathered made
  obtain ⟨e', made', apart', keys, valid, named⟩ := ofChange_delete h made savable apart now'
  obtain ⟨fits', shaped'⟩ := ofChange_gathered made'
  have mode' := (ofChange_parts made').2.1
  have upsert : joinParts (s.shapedValue? (gathered s c (keyColumns fields) now)) e.primaryKeys =
      some rowKey := by
    rw [← apart.get?_savedRow shaped]
    exact keyOf_eq_ok_iff.1 hkey
  have delete : e'.savedKey = .ok rowKey ↔
      joinParts (s.shapedValue? (gathered s c' (keyColumns fields) now')) e.primaryKeys =
        some rowKey := by
    rw [savedKey, keyOf_eq_ok_iff, apart'.get?_savedRow shaped', keys]
  have mark : e'.savedRow.isDeleted ↔ SystemColumn.deleted ∉ s.columnsToHash := by
    have apart'' : NamedApart e'.data := shaped' ▸ apart'.shapeData s
    rw [isDeleted_savedRow made' apart'' valid, (ofChange_parts made').2.2.1]
    exact and_iff_right h.isDelete_delete
  have columns : ∀ r v, (r, v) ∈ fields → r ≠ tableField → r ∉ SystemColumn.all →
      ColumnName.normalize r ∉ SystemColumn.all →
      s.shapedValue? (gathered s c (keyColumns fields) now) (ColumnName.normalize r) =
          s.shapeValue? r (convertAs (imageFields schema) r v) ∧
        s.shapedValue? (gathered s c' (keyColumns fields) now') (ColumnName.normalize r) =
          s.shapeValue? (ColumnName.normalize r) v :=
    fun r v mem other own own' =>
      shapedValue?_gathered h fits apart fits' apart' mem other own own'
  have finds : FindsRow s now' (keyColumns fields) c' rowKey ↔
      joinParts (s.shapedValue? (gathered s c' (keyColumns fields) now')) e.primaryKeys =
          joinParts (s.shapedValue? (gathered s c (keyColumns fields) now)) e.primaryKeys ∧
        (s.softDelete = false → SystemColumn.deleted ∉ s.columnsToHash) := by
    rw [upsert, ← delete]
    constructor
    · rintro ⟨e'', made'', savable', hkey', erases⟩
      obtain rfl := Except.ok.inj (made'.symm.trans made'')
      exact ⟨hkey', fun hard =>
        mark.1 ((erases_iff savable' mode' hkey' hard).1 (erases hard))⟩
    · rintro ⟨hkey', plain⟩
      have savable' : e'.Savable := ⟨valid, ⟨rowKey, hkey'⟩, named⟩
      exact ⟨e', made', savable', hkey', fun hard =>
        (erases_iff savable' mode' hkey' hard).2 (mark.2 (plain hard))⟩
  refine ⟨finds, columns, fun plain unhashed => finds.2 ⟨joinParts_congr fun p mem => ?_,
    fun _ => unhashed⟩⟩
  obtain ⟨own, other, normal, v, listed, kept⟩ := plain p mem
  obtain ⟨up, down⟩ := columns p v listed other own (by rwa [normal])
  rw [normal, kept] at up
  rw [normal] at down
  rw [up, down]

end Delete

/-! ## A sample -/

/-- The settings of a topic whose rows have one column, which is the primary key. -/
def daySettings : TopicSettings := Sample.settings "days"

/-- The schema that says that the values of the column are days since 1970. -/
def daySchema : List Debezium.Field :=
  [.mk "struct" "after" none [] [.mk "int32" "day" (some .date) [] []]]

/-- The upsert of a row, or a delete. -/
def dayPayload (day : Option Json) : Debezium.Payload :=
  ⟨day.map fun v => .ofList [("day", v)], Sample.millis, "days",
    if day.isSome then "c" else "d"⟩

/-- The change that it reports. -/
def dayChange (schema : Option (List Debezium.Field)) (day : Option Json) : Change where
  table := "days"
  operation := if day.isSome then .create else .delete
  time := .ofMillis Sample.millis
  after := day.map fun v => .ofList [("day", v)]
  hints := (schema.bind Debezium.rowFields?).map Debezium.Field.hints
  columns := (schema.bind Debezium.rowFields?).map Debezium.Field.columns

/-- The event of the change, whose row has this day. -/
def dayEvent (schema : Option (List Debezium.Field)) (change : Option Json) (day : Json) :
    RowEvent where
  table := "days"
  tableId := ⟨"public", "days"⟩
  data := .ofList [(SystemColumn.deleted, .bool change.isNone), ("day", day)]
  hints := (dayChange schema change).hints
  columns := (dayChange schema change).columns.bind fun columns =>
    (columns.mark "day" .asPrimaryKey).toOption
  isDelete := change.isNone
  primaryKeys := ["day"]
  time := .ofMillis Sample.millis
  mode := .replication

/-- The message key of the row. -/
def dayKey : List (String × Json) := [("day", .int 1)]

theorem upsertThenDelete_day {schema : Option (List Debezium.Field)} {day : Json}
    (reads : Debezium.changeOf schema (dayPayload (some (.int 1))) =
      .ok (dayChange schema (some day))) :
    Debezium.UpsertThenDelete dayKey schema schema (dayPayload (some (.int 1)))
      (dayPayload none) (dayChange schema (some day)) (dayChange schema none) where
  upsert := reads
  delete := rfl
  table := rfl
  image := by
    refine ⟨_, rfl, rfl, fun r v mem _ => ?_⟩
    obtain ⟨rfl, rfl⟩ := Prod.mk.inj (List.mem_singleton.1 mem)
    rfl
  gone := rfl

theorem keyNames_day : daySettings.keyNames (Debezium.keyColumns dayKey) = ["day"] := by
  decide +kernel

theorem sortNames_day : TopicSettings.sortNames ["day"] = ["day"] :=
  List.mergeSort_singleton "day"

theorem savable_day : (dayEvent none (some (.int 1)) (.int 1)).Savable :=
  ⟨rfl, ⟨"day=1", rfl⟩, by decide +kernel⟩

theorem savable_day_date :
    (dayEvent (some daySchema) (some (.int 1)) (.string "1970-01-02")).Savable :=
  ⟨rfl, ⟨"day=1970-01-02", rfl⟩, by decide +kernel⟩

theorem delete_finds_row_iff_day :
    let key := Debezium.keyColumns dayKey
    let c := dayChange none (some (.int 1))
    let e := dayEvent none (some (.int 1)) (.int 1)
    e.primaryKeys = ["day"] ∧ PlainlyKeyed none dayKey e.primaryKeys ∧
      (FindsRow daySettings ⟨1⟩ key (dayChange none none) "day=1" ↔
          joinParts (daySettings.shapedValue? (gathered daySettings (dayChange none none) key ⟨1⟩))
                e.primaryKeys =
              joinParts (daySettings.shapedValue? (gathered daySettings c key ⟨0⟩))
                e.primaryKeys ∧
            (daySettings.softDelete = false →
              SystemColumn.deleted ∉ daySettings.columnsToHash)) ∧
      FindsRow daySettings ⟨1⟩ key (dayChange none none) "day=1" := by
  intro key c e
  have made : ofChange daySettings .replication ⟨0⟩ key c = .ok e := by
    simp only [ofChange, key, keyNames_day, sortNames_day]
    rfl
  have apart : NamedApart (gathered daySettings c key ⟨0⟩) :=
    ⟨by decide +kernel, by decide +kernel⟩
  have plain : PlainlyKeyed none dayKey e.primaryKeys := by
    intro p mem
    obtain rfl := List.mem_singleton.1 mem
    exact ⟨by decide, by decide, by decide +kernel, .int 1, List.mem_singleton_self _, rfl⟩
  have keyed : e.savedKey = .ok "day=1" := rfl
  obtain ⟨finds, -, found⟩ :=
    delete_finds_row_iff (upsertThenDelete_day rfl) made savable_day keyed apart ⟨1⟩
  exact ⟨rfl, plain, finds, found plain (by decide)⟩

/-- A delete whose key has the day as a number misses the row, whose key has it as a date. -/
theorem delete_misses_day :
    let key := Debezium.keyColumns dayKey
    let c := dayChange (some daySchema) (some (.string "1970-01-02"))
    let c' := dayChange (some daySchema) none
    let e := dayEvent (some daySchema) (some (.int 1)) (.string "1970-01-02")
    let e' := dayEvent (some daySchema) none (.int 1)
    daySettings.validate = .ok () ∧
      Debezium.UpsertThenDelete dayKey (some daySchema) (some daySchema)
        (dayPayload (some (.int 1))) (dayPayload none) c c' ∧
      ofChange daySettings .replication ⟨0⟩ key c = .ok e ∧ e.Savable ∧
      e.savedKey = .ok "day=1970-01-02" ∧
      ofChange daySettings .replication ⟨1⟩ key c' = .ok e' ∧ e'.savedKey = .ok "day=1" ∧
      ¬ FindsRow daySettings ⟨1⟩ key c' "day=1970-01-02" := by
  intro key c c' e e'
  have made' : ofChange daySettings .replication ⟨1⟩ key c' = .ok e' := by
    simp only [ofChange, key, keyNames_day, sortNames_day]
    rfl
  refine ⟨rfl, upsertThenDelete_day rfl, ?_, savable_day_date, rfl, made', rfl, ?_⟩
  · simp only [ofChange, key, keyNames_day, sortNames_day]
    rfl
  · rintro ⟨e'', made'', -, hkey, -⟩
    obtain rfl := Except.ok.inj (made'.symm.trans made'')
    have same : "day=1" = "day=1970-01-02" := Except.ok.inj hkey
    revert same
    decide

end RowEvent

end ChangeCapture
