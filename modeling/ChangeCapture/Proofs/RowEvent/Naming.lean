import ChangeCapture.Proofs.Column.Runs
import ChangeCapture.Proofs.Debezium.Key
import ChangeCapture.Proofs.RowEvent.Described
import ChangeCapture.Proofs.RowEvent.Ordering
import ChangeCapture.Trial.Sample

/-!
# Names that are normalized twice

The names in a message key are brought into normal form when it is read, and the names
of all columns are when a row is saved.  A name in normal form stays as it is, so the
second time makes no difference: values are saved alike under their own names and under
the normal forms of these (`RowEvent.saveInto_congr`).  So the name that a key has
for a column is the name that the column is saved under (`RowEvent.names_settle`).
-/

namespace ChangeCapture

open ColumnName (normalize)

namespace ColumnRegistry

/-! ## The names of a registry -/

theorem names_upgrade (r : ColumnRegistry) (name : String) (kind : ColumnKind) :
    (r.upgrade name kind).names = r.names := by
  unfold upgrade
  split
  · exact names_modify r name fun _ => rfl
  · rfl

variable {r r' : ColumnRegistry}

/-- Registries with the same names find columns of the same names. -/
theorem isSome_get?_congr (same : r.names = r'.names) (n : String) :
    (r.get? n).isSome = (r'.get? n).isSome := by
  rw [Bool.eq_iff_iff, Option.isSome_iff_exists, Option.isSome_iff_exists, ← mem_names_iff,
    ← mem_names_iff, same]

theorem names_add_congr (same : r.names = r'.names) {c c' : Column} (name : c.name = c'.name) :
    (r.add c).names = (r'.add c').names := by
  have there := isSome_get?_congr same c'.name
  unfold add
  rw [name, there]
  split
  · exact same
  · rw [names_append, names_append, name]
    exact congrArg (· ++ [c'.name]) same

theorem names_mark_congr (same : r.names = r'.names) (name : String) (marks : ColumnMarks) :
    (r.mark name marks).map names = (r'.mark name marks).map names := by
  have there := isSome_get?_congr same name
  unfold mark
  rw [there]
  split
  · rfl
  · split
    · have kept : ∀ r : ColumnRegistry, (r.modify name marks.applyTo).names = r.names :=
        fun r => names_modify r name fun _ => rfl
      exact congrArg Except.ok ((kept r).trans (same.trans (kept r').symm))
    · show Except.ok _ = Except.ok _
      rw [names_append, names_append]
      exact congrArg (fun ns => Except.ok (ns ++ [name])) same

/-- Whether a value can be seen, and which names there are after it, depends on the names before,
on the normal form of its name, and on the value.  Hints make no difference. -/
theorem names_admit_congr (same : r.names = r'.names) {column column' : String}
    (alike : normalize column = normalize column') (hints hints' : Option KindHints) (v : Json) :
    ( ColumnRegistry.admit r hints column v).map names =
      ( ColumnRegistry.admit r' hints' column' v).map names := by
  have there := isSome_get?_congr same (normalize column')
  unfold ColumnRegistry.admit
  simp only [alike]
  split
  · exact names_mark_congr same _ _
  · cases hc : r.get? (normalize column') with
    | none =>
      rw [hc, Option.isSome_none, eq_comm, Option.isSome_eq_false_iff, Option.isNone_iff_eq_none]
        at there
      rw [there]
      exact congrArg Except.ok (names_add_congr same rfl)
    | some c =>
      rw [hc, Option.isSome_some, eq_comm, Option.isSome_iff_exists] at there
      obtain ⟨c', hc'⟩ := there
      have kept : ∀ (r : ColumnRegistry) (c : Column) kind,
          (if c.isSkipped then r.upgrade (normalize column') kind else r).names = r.names := by
        intro r c kind
        split
        · exact names_upgrade r _ kind
        · rfl
      rw [hc']
      show Except.ok _ = Except.ok _
      rw [kept, kept, same]

end ColumnRegistry

/-- A window takes a row whatever its columns are. -/
theorem Window.take_columns (w : Window) (columns : ColumnRegistry) (i : Insertion)
    (time : Instant) (m : Message) :
    ({ w with columns := columns } : Window).take i time m =
      { w.take i time m with columns := columns } := by
  have inserts : ({ w with columns := columns } : Window).insert i.key i.row i.deleted =
      { w.insert i.key i.row i.deleted with columns := columns } := by
    simp only [insert]
    split <;> rfl
  unfold take
  rw [inserts, observe_eq, observe_eq]
  rfl

namespace RowEvent

/-! ## Values under normal forms -/

/-- A value under the normal form of its name. -/
def normalized (v : String × Json) : String × Json := (normalize v.1, v.2)

theorem normalized_normalized (entries : List (String × Json)) :
    (entries.map normalized).map normalized = entries.map normalized := by
  rw [List.map_map]
  refine List.map_congr_left fun v _ => ?_
  rw [Function.comp_apply, normalized, normalized, ColumnName.normalize_normalize]

/-- The row that a visit gathers, or its fault, and the names of the columns that it leaves depend
on the values and the normal forms of their names. -/
theorem visit_congr (hints hints' : Option KindHints) {columns columns' : ColumnRegistry}
    (same : columns.names = columns'.names) (row : Row) {entries entries' : List (String × Json)}
    (alike : entries.map normalized = entries'.map normalized) :
    (visit hints columns row entries).2 = (visit hints' columns' row entries').2 ∧
      (visit hints columns row entries).1.names =
        (visit hints' columns' row entries').1.names := by
  induction entries generalizing columns columns' row entries' with
  | nil =>
    obtain rfl : entries' = [] := List.map_eq_nil_iff.1 alike.symm
    exact ⟨rfl, same⟩
  | cons v rest ih =>
    obtain ⟨v', rest', rfl, first, others⟩ := List.map_eq_cons_iff.1 alike.symm
    obtain ⟨name, value⟩ := Prod.mk.inj first
    have seen := ColumnRegistry.names_admit_congr same name.symm hints hints' v.2
    unfold visit
    rw [value, name]
    cases admitted : columns.admit hints v.1 v.2 with
    | error f =>
      cases admitted' : ColumnRegistry.admit columns' hints' v'.1 v.2 with
      | error f' =>
        rw [admitted, admitted'] at seen
        exact ⟨congrArg Except.error (Except.error.inj seen), same⟩
      | ok after' =>
        rw [admitted, admitted'] at seen
        cases seen
    | ok after =>
      cases admitted' : ColumnRegistry.admit columns' hints' v'.1 v.2 with
      | error f' =>
        rw [admitted, admitted'] at seen
        cases seen
      | ok after' =>
        rw [admitted, admitted'] at seen
        exact ih (Except.ok.inj seen) _ others.symm

/-! ## Saving alike -/

/-- Two windows with outcomes are alike but for the kinds and the marks of columns. -/
structure EndsAlike (p p' : Window × Outcome Unit) : Prop where
  /-- The outcomes are the same. -/
  outcome : p.2 = p'.2
  /-- The columns have the same names, in the same order. -/
  names : p.1.columns.names = p'.1.columns.names
  /-- All else that the windows hold is the same. -/
  others : { p.1 with columns := p'.1.columns } = p'.1

/-- Values whose row has a key are saved: the window takes the row, with the columns that the visit
leaves. -/
theorem saveInto_of_keyed {e : RowEvent} {w : Window} {entries : List (String × Json)} {row : Row}
    {key : String} (visits : (visit e.hints w.columns .empty entries).2 = .ok row)
    (keyed : keyOf e.table row e.primaryKeys = .ok key) (m : Message) :
    e.saveInto m w entries =
      ({ w.take ⟨key, row, e.isDelete⟩ e.time m with
        columns := (visit e.hints w.columns .empty entries).1 }, .ok ()) := by
  rw [← Window.take_columns]
  simp only [saveInto, visits, keyed, Except.bind, Except.map]
  rfl

/-- Values with the same normal forms of their names are saved alike. -/
theorem saveInto_congr (e : RowEvent) (m : Message) (w : Window)
    {entries entries' : List (String × Json)}
    (alike : entries.map normalized = entries'.map normalized) :
    EndsAlike (e.saveInto m w entries) (e.saveInto m w entries') := by
  obtain ⟨row, names⟩ := visit_congr e.hints e.hints
    (rfl : w.columns.names = w.columns.names) .empty alike
  cases visits : (visit e.hints w.columns .empty entries').2 with
  | error f =>
    simp only [saveInto, row.trans visits, visits, Except.bind]
    exact ⟨rfl, names, rfl⟩
  | ok gathered =>
    cases keyed : keyOf e.table gathered e.primaryKeys with
    | error f =>
      simp only [saveInto, row.trans visits, visits, keyed, Except.bind, Except.map]
      exact ⟨rfl, names, rfl⟩
    | ok key =>
      rw [saveInto_of_keyed (row.trans visits) keyed, saveInto_of_keyed visits keyed]
      exact ⟨rfl, names, rfl⟩

end RowEvent

/-! ## Names of primary keys -/

/-- If the names in the message key are in normal form, so are the names of all primary keys. -/
theorem TopicSettings.normalize_keyNames {s : TopicSettings} {key : Row} {p : String}
    (normal : ∀ n ∈ key.keys, normalize n = n) (mem : p ∈ s.keyNames key) :
    normalize p = p := by
  have settled : ∀ names : List String, p ∈ names.map normalize → normalize p = p := by
    intro names mem
    obtain ⟨n, -, rfl⟩ := List.mem_map.1 mem
    exact ColumnName.normalize_normalize n
  rw [mem_keyNames] at mem
  split at mem
  · exact mem.elim (normal p) (settled _)
  · exact settled _ mem

namespace RowEvent

/-! ## Names of saved columns -/

/-- A primary key of an event names a column that the event is saved with. -/
structure NamesColumn (e : RowEvent) (w : Window) (p : String) : Prop where
  /-- The row that is saved has a value of the event under it. -/
  value : ∃ v ∈ e.data.toList, normalize v.1 = p ∧ e.savedRow.get? p = some v.2.collapsed
  /-- The window has a column of this name, unless it is empty. -/
  listed : w.columns.Lists p

/-- The primary keys of an event that is saved name columns of the window that it is saved into. -/
theorem namesColumn_of_save {e : RowEvent} {s : TopicSettings} {m : Message} {r : TableRegistry}
    {reason : Option FlushReason} (saved : (e.save s m r).2 = .ok reason) :
    ∃ w, (e.save s m r).1 = r.putWindow e.tableId s.topic w ∧
      ∀ p ∈ e.primaryKeys, e.NamesColumn w p := by
  have step := save_step e s m r
  generalize (e.save s m r).1 = after at step ⊢
  rw [saved] at step
  cases step with
  | @saved key _ hkey columns opens visits =>
    refine ⟨_, rfl, fun p mem => ?_⟩
    obtain ⟨text, ht⟩ := keyOf_isOk_iff.1 ⟨key, hkey⟩ p mem
    obtain ⟨x, hx, -⟩ := Option.map_eq_some_iff.1 ht
    obtain ⟨v, there, same, rfl⟩ := get?_rowIn_eq_some hx
    have describes := describes_visit columns.describes_empty visits
    refine ⟨⟨v, there, same, hx⟩, ?_⟩
    rw [(e.stored_frame s m r key).2.2.2, opens]
    exact (describes p _ hx).1

/-- What comes of the names in a message key in the event of a change. -/
structure SettlesNames (s : TopicSettings) (key : Row) (e : RowEvent) : Prop where
  /-- The names in the key are primary keys, unless the settings name others. -/
  keys : s.primaryKeysOverride.isEmpty → ∀ p ∈ key.keys, p ∈ e.primaryKeys
  /-- The names of all primary keys are in normal form. -/
  normal : ∀ p ∈ e.primaryKeys, normalize p = p
  /-- Values are saved alike under their names and under the normal forms of these. -/
  alike : ∀ m w entries,
    EndsAlike (e.saveInto m w (entries.map normalized)) (e.saveInto m w entries)
  /-- A value under a name, or under the normal form of it, is saved under that normal form. -/
  found : ∀ n v, (n, v) ∈ e.data.toList ∨ (normalize n, v) ∈ e.data.toList →
    ∃ x, e.savedRow.get? (normalize n) = some x
  /-- When the event is saved, its primary keys name columns. -/
  named : ∀ m r reason, (e.save s m r).2 = .ok reason →
    ∃ w, (e.save s m r).1 = r.putWindow e.tableId s.topic w ∧
      ∀ p ∈ e.primaryKeys, e.NamesColumn w p

/-- The normal form of a name has no blanks and no digit in front, is lower case and is its own
normal form, and it is what the lower-case form of the name comes to with `__` for each run of
blanks.  The names in a message key are normal forms of those that stand in it, and an event
whose primary keys they are is saved with columns of these names. -/
theorem names_settle :
    (∀ name, ColumnName.IsNormal (normalize name) ∧
      normalize (normalize name) = normalize name ∧
      normalize name = .ofList (ColumnName.guardDigit
        (ColumnName.blanksReplaced (Unicode.lowercase name).toList))) ∧
    (∀ fields p, p ∈ (Debezium.keyColumns fields).keys ↔
      ∃ n v, (n, v) ∈ fields ∧ n ≠ Debezium.tableField ∧ normalize n = p) ∧
    ∀ format bytes key, Debezium.readKey format bytes = .ok key →
      (∀ p ∈ key.keys, normalize p = p) ∧
      ∀ s mode now c e, ofChange s mode now key c = .ok e → SettlesNames s key e := by
  refine ⟨fun name => ⟨ColumnName.isNormal_normalize name, ColumnName.normalize_normalize name,
    ColumnName.normalize_eq name⟩, fun fields p => Debezium.mem_keys_keyColumns, ?_⟩
  intro format bytes key read
  have read_normal : ∀ p ∈ key.keys, normalize p = p :=
    fun p => Debezium.normalize_of_readKey read
  refine ⟨read_normal, fun s mode now c e made => ?_⟩
  have primary : ∀ p, p ∈ e.primaryKeys ↔ p ∈ s.keyNames key := by
    intro p
    rw [(ofChange_names made).2, TopicSettings.mem_sortNames]
  have normal : ∀ p ∈ e.primaryKeys, normalize p = p :=
    fun p mem => TopicSettings.normalize_keyNames read_normal ((primary p).1 mem)
  constructor
  · intro own p mem
    rw [primary, TopicSettings.mem_keyNames, if_pos own]
    exact .inl mem
  · exact normal
  · exact fun m w entries => e.saveInto_congr m w (normalized_normalized entries)
  · have row : e.savedRow = rowIn e.data.toList := rfl
    rw [row]
    rintro n v (own | renamed)
    · exact get?_rowIn_of_mem (v := (n, v)) own
    · have there := get?_rowIn_of_mem (v := (normalize n, v)) renamed
      rwa [ColumnName.normalize_normalize] at there
  · exact fun m r reason saved => namesColumn_of_save saved

/-! ## A sample -/

/-- The settings of a topic whose rows have one column. -/
def settledSettings : TopicSettings := Sample.settings "people"

/-- The body of a message key with a name that is not in normal form. -/
def settledBody : String := "1st  Name=7"

/-- The message key of a row. -/
def settledKey : Row := .ofList [("col_1st__name", .string "7")]

/-- The delete of the row. -/
def settledDelete : RowEvent where
  table := "people"
  tableId := ⟨"public", "people"⟩
  data := settledKey.insert SystemColumn.deleted (.bool true)
  hints := none
  columns := none
  isDelete := true
  primaryKeys := ["col_1st__name"]
  time := .ofMillis Sample.millis
  mode := .replication

theorem readKey_settledBody :
    Debezium.readKey .string (Debezium.inBraces settledBody).toUTF8 = .ok settledKey := by
  have normal : normalize "1st  Name" = "col_1st__name" := by decide +kernel
  rw [Debezium.readKey_toUTF8 (Debezium.inBraces_ne_empty _),
    Debezium.bracedKey_inBraces (by decide)]
  show Except.ok (SortedMap.ofList [(normalize "1st  Name", Json.string "7")]) = _
  rw [normal]
  rfl

theorem names_settle_settledDelete :
    let m := Sample.message "people" 0 .empty .empty
    let r := TableRegistry.new ⟨100, 100⟩
    Debezium.readKey .string (Debezium.inBraces settledBody).toUTF8 = .ok settledKey ∧
      ofChange settledSettings .replication ⟨0⟩ settledKey (Sample.change "people" .delete none) =
        .ok settledDelete ∧
      (∃ reason, (settledDelete.save settledSettings m r).2 = .ok reason) ∧
      ∃ w, (settledDelete.save settledSettings m r).1 =
          r.putWindow settledDelete.tableId settledSettings.topic w ∧
        settledDelete.NamesColumn w "col_1st__name" := by
  intro m r
  have names : settledSettings.keyNames settledKey = ["col_1st__name"] := by decide +kernel
  have made : ofChange settledSettings .replication ⟨0⟩ settledKey
      (Sample.change "people" .delete none) = .ok settledDelete := by
    simp only [ofChange, names, TopicSettings.sortNames, List.mergeSort_singleton]
    rfl
  have savable : settledDelete.Savable := ⟨rfl, ⟨"col_1st__name=7", rfl⟩, by decide +kernel⟩
  obtain ⟨reason, saves⟩ := (settledDelete.save_isOk_iff settledSettings m r).2 savable
  obtain ⟨-, settles⟩ := names_settle.2.2 _ _ _ readKey_settledBody
  obtain ⟨w, saved, named⟩ := (settles _ _ _ _ _ made).named m r reason saves
  exact ⟨readKey_settledBody, made, ⟨reason, saves⟩, w, saved,
    named _ (List.mem_singleton_self _)⟩

end RowEvent

end ChangeCapture
