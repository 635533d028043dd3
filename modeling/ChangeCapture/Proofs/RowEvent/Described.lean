import ChangeCapture.Proofs.Column.Keeping
import ChangeCapture.Proofs.Debezium.Envelope
import ChangeCapture.Proofs.RowEvent.Columns
import ChangeCapture.Proofs.RowEvent.Shaping
import ChangeCapture.Proofs.Table.Bookkeeping

/-!
# Windows whose columns describe their rows

The columns of a window describe a row if there is a column for each value that
has a name, marked as left out where the placeholder stands
(`ColumnRegistry.Describes`).  Saving an event keeps every row of the window
described, whether it goes through or stops half-way (`RowEvent.described_saveInto`).

A value is seen before it is put into the row, so the columns are ahead of the row
at each step of a visit (`RowEvent.describes_visit`).  What a row takes over from an
earlier row of its key was described with that row.
-/

namespace ChangeCapture

/-! ## Columns for rows -/

namespace ColumnRegistry

/-- There is a column for each value of the row that has a name.  Where the placeholder stands the
column is marked. -/
def Describes (r : ColumnRegistry) (row : Row) : Prop :=
  ∀ n v, row.get? n = some v → r.Lists n ∧ (v.isPlaceholder → r.Toasted n)

variable {K : String → ColumnKind → Prop} {r r' : ColumnRegistry}

theorem describes_empty (r : ColumnRegistry) : r.Describes .empty := by
  intro n v none
  cases none

theorem Describes.mono {row : Row} (h : r.Describes row) (keeps : Keeps K r r') :
    r'.Describes row := by
  intro n v hv
  obtain ⟨lists, toasted⟩ := h n v hv
  exact ⟨lists.imp_right keeps.lists, fun placeholder => keeps.toasted n (toasted placeholder)⟩

theorem Describes.insert {row : Row} (h : r.Describes row) {n : String} {v : Json}
    (lists : r.Lists n) (toasted : v.isPlaceholder → r.Toasted n) :
    r.Describes (row.insert n v) := by
  intro n' v' hv
  rw [SortedMap.get?_insert] at hv
  split at hv
  · rename_i same
    obtain rfl := Option.some.inj hv
    rw [same]
    exact ⟨lists, toasted⟩
  · exact h n' v' hv

/-! ## Values that are seen -/

variable {hints : Option KindHints} {column : String} {v : Json}

theorem keeps_admitted (h : r.admit hints column v = .ok r') : Keeps K r r' := by
  unfold ColumnRegistry.admit at h
  simp only at h
  split at h
  · exact keeps_mark rfl h
  · split at h
    · obtain rfl := Except.ok.inj h
      exact keeps_add r _
    · obtain rfl := Except.ok.inj h
      split
      · exact keeps_upgrade r _ _
      · exact .refl r

theorem lists_admitted (h : r.admit hints column v = .ok r') :
    r'.Lists (ColumnName.normalize column) := by
  by_cases named : ColumnName.normalize column = ""
  · exact .inl named
  · right
    unfold ColumnRegistry.admit at h
    simp only at h
    split at h
    · exact get?_mark h
    · split at h
      · rename_i absent
        obtain rfl := Except.ok.inj h
        exact ⟨_, get?_add_new _ named absent⟩
      · rename_i c hc
        obtain rfl := Except.ok.inj h
        split
        · exact (keeps_upgrade (K := fun _ _ => False) r _ _).lists ⟨c, hc⟩
        · exact ⟨c, hc⟩

theorem toasted_admitted (h : r.admit hints column v = .ok r')
    (placeholder : v.collapsed.isPlaceholder) : r'.Toasted (ColumnName.normalize column) := by
  have unavailable : v.standsForUnavailable := by
    by_contra available
    rw [Json.collapsed, if_neg available] at placeholder
    exact available (by rw [Json.standsForUnavailable, placeholder, Bool.true_or])
  unfold ColumnRegistry.admit at h
  simp only [unavailable, if_true] at h
  exact toasted_mark h

end ColumnRegistry

namespace RowEvent

variable {K : String → ColumnKind → Prop}

theorem keeps_visit (hints : Option KindHints) (columns : ColumnRegistry) (row : Row)
    (entries : List (String × Json)) :
    columns.Keeps K (visit hints columns row entries).1 := by
  induction entries generalizing columns row with
  | nil => exact .refl columns
  | cons e rest ih =>
    simp only [visit]
    cases h : columns.admit hints e.1 e.2 with
    | error f => exact .refl columns
    | ok columns' => exact (ColumnRegistry.keeps_admitted h).trans (ih columns' _)

/-- The columns that a visit leaves describe the row that it gathers. -/
theorem describes_visit {hints : Option KindHints} {columns : ColumnRegistry} {row row' : Row}
    {entries : List (String × Json)} (before : columns.Describes row)
    (h : (visit hints columns row entries).2 = .ok row') :
    (visit hints columns row entries).1.Describes row' := by
  induction entries generalizing columns row with
  | nil =>
    obtain rfl := Except.ok.inj h
    exact before
  | cons e rest ih =>
    simp only [visit] at h ⊢
    cases hf : columns.admit hints e.1 e.2 with
    | error f =>
      rw [hf] at h
      cases h
    | ok columns' =>
      rw [hf] at h
      have ahead := before.mono (ColumnRegistry.keeps_admitted (K := fun _ _ => False) hf)
      exact ih (ahead.insert (ColumnRegistry.lists_admitted hf)
        (ColumnRegistry.toasted_admitted hf)) h

end RowEvent

/-! ## Windows -/

namespace Window

open Tracks (get?_layer)

/-- The columns of the window have names of their own and describe every row. -/
structure Described (w : Window) : Prop where
  /-- No name is empty, and none stands twice. -/
  wellFormed : w.columns.WellFormed
  /-- The columns describe every row. -/
  rows : ∀ row ∈ w.rows, w.columns.Describes row

variable {w : Window}

theorem mem_rows_insert {i : Insertion} {row : Row}
    (mem : row ∈ (w.insert i.key i.row i.deleted).rows) : row ∈ w.rows ∨ row = w.stored i := by
  unfold rows at mem ⊢
  unfold stored
  rw [mode_insert] at mem
  cases mode : w.mode with
  | replication =>
    simp only [mode] at mem ⊢
    obtain ⟨key, hk⟩ := SortedMap.mem_values_iff.1 mem
    rw [get?_keyed_insert mode] at hk
    split at hk
    · exact .inr (Option.some.inj hk).symm
    · exact .inl (SortedMap.mem_values_iff.2 ⟨key, hk⟩)
  | history =>
    simp only [mode, insert, append] at mem ⊢
    exact (List.mem_append.1 mem).imp_right List.mem_singleton.1

theorem describes_stored (h : w.Described) {i : Insertion} (row : w.columns.Describes i.row) :
    w.columns.Describes (w.stored i) := by
  intro n v hv
  unfold stored at hv
  cases mode : w.mode with
  | history =>
    simp only [mode] at hv
    exact row n v hv
  | replication =>
    simp only [mode] at hv
    rw [get?_layer] at hv
    rcases Json.mem_overlay hv with earlier | here
    · obtain ⟨previous, hp, hv⟩ := Option.bind_eq_some_iff.1 earlier
      have mem : previous ∈ w.rows := by
        unfold rows
        rw [mode]
        exact SortedMap.mem_values_iff.2 ⟨i.key, hp⟩
      exact h.rows previous mem n v hv
    · exact row n v here

theorem Described.insert (h : w.Described) {i : Insertion} (row : w.columns.Describes i.row) :
    (w.insert i.key i.row i.deleted).Described where
  wellFormed := by
    rw [columns_insert]
    exact h.wellFormed
  rows := by
    intro row' mem
    rw [columns_insert]
    rcases mem_rows_insert mem with mem | rfl
    · exact h.rows row' mem
    · exact describes_stored h row

/-- Columns that keep those of the window describe its rows as well. -/
theorem Described.keeps {K : String → ColumnKind → Prop} (h : w.Described)
    {columns : ColumnRegistry} (keeps : w.columns.Keeps K columns) :
    Described { w with columns := columns } where
  wellFormed := keeps.wellFormed h.wellFormed
  rows := fun row mem => (h.rows row mem).mono keeps

theorem described_new (tableId : TableId) (name : String) (mode : Mode) {columns : ColumnRegistry}
    (wellFormed : columns.WellFormed) (primaryKeys : List String) (s : TopicSettings) :
    (new tableId name mode columns primaryKeys s).Described where
  wellFormed := wellFormed
  rows := by
    intro row mem
    cases mode <;> cases mem

end Window

/-! ## Saving -/

namespace RowEvent

variable {K : String → ColumnKind → Prop} {w : Window}

/-- Saving values into a window leaves the columns that their visit leaves, and puts the row behind
them unless it fails. -/
theorem saveInto_cases (e : RowEvent) (m : Message) (w : Window) (entries : List (String × Json)) :
    (e.saveInto m w entries).1 =
        { w with columns := (visit e.hints w.columns .empty entries).1 } ∨
      ∃ row key, (visit e.hints w.columns .empty entries).2 = .ok row ∧
        (e.saveInto m w entries).1 =
          ((({ w with columns := (visit e.hints w.columns .empty entries).1 } : Window).insert
            key row e.isDelete).observe e.time).record m := by
  unfold saveInto
  cases visits : (visit e.hints w.columns .empty entries).2 with
  | error f => exact .inl (by simp only [visits, Except.bind])
  | ok row =>
    cases hk : keyOf e.table row e.primaryKeys with
    | error f => exact .inl (by simp only [visits, hk, Except.bind, Except.map])
    | ok key => exact .inr ⟨row, key, rfl, by simp only [visits, hk, Except.bind, Except.map]⟩

theorem columns_saveInto (e : RowEvent) (m : Message) (w : Window)
    (entries : List (String × Json)) :
    (e.saveInto m w entries).1.columns = (visit e.hints w.columns .empty entries).1 := by
  rcases e.saveInto_cases m w entries with stopped | ⟨row, key, -, saved⟩
  · rw [stopped]
  · rw [saved, Window.observe_eq]
    exact Window.columns_insert _ key row e.isDelete

theorem keeps_saveInto (e : RowEvent) (m : Message) (w : Window) (entries : List (String × Json)) :
    w.columns.Keeps K (e.saveInto m w entries).1.columns := by
  rw [e.columns_saveInto]
  exact keeps_visit e.hints w.columns .empty entries

theorem described_saveInto (h : w.Described) (e : RowEvent) (m : Message)
    (entries : List (String × Json)) : (e.saveInto m w entries).1.Described := by
  have opened := h.keeps (keeps_visit (K := fun _ _ => False) e.hints w.columns .empty entries)
  rcases e.saveInto_cases m w entries with stopped | ⟨row, key, visits, saved⟩
  · rw [stopped]
    exact opened
  · have described := describes_visit w.columns.describes_empty visits
    have inserted := opened.insert (i := ⟨key, row, e.isDelete⟩) described
    rw [saved, Window.observe_eq]
    exact ⟨inserted.wellFormed, inserted.rows⟩

theorem windowFor_cases (e : RowEvent) (s : TopicSettings) (b : TableBuffer) :
    (b.isEmpty ∧ e.windowFor s b =
        .new e.tableId e.table e.mode e.declared e.primaryKeys s) ∨
      ∃ w, b.window = some w ∧ w.isEmpty = false ∧
        e.windowFor s b = { w with columns := w.columns.addAll e.declared.columns } := by
  unfold windowFor
  cases empty : b.isEmpty with
  | true => exact .inl ⟨rfl, rfl⟩
  | false =>
    cases hw : b.window with
    | none => simp [TableBuffer.isEmpty, hw] at empty
    | some w => exact .inr ⟨w, rfl, by simpa [TableBuffer.isEmpty, hw] using empty, rfl⟩

/-- Saving an event that breaks no rule puts the window of its table in place, whether it goes
through or not. -/
theorem registry_saveInOrder {e : RowEvent} (valid : e.validate = .ok ()) (s : TopicSettings)
    (m : Message) (entries : List (String × Json)) (r : TableRegistry) :
    (e.saveInOrder s m entries r).1 = r.putWindow e.tableId s.topic
      (e.saveInto m (e.windowFor s (r.getOrNew e.tableId s.topic)) entries).1 := by
  simp only [saveInOrder, valid, TableRegistry.getOrNew_register]
  rfl

end RowEvent

/-! ## Columns that an event declares -/

theorem Debezium.wellFormed_of_changeOf {schema : Option (List Field)} {payload : Payload}
    {c : Change} (h : changeOf schema payload = .ok c) :
    ∀ r, c.columns = some r → r.WellFormed := by
  obtain ⟨operation, -, rfl⟩ := eq_of_changeOf h
  intro r hr
  obtain ⟨fields, -, rfl⟩ := Option.map_eq_some_iff.1 hr
  exact ColumnRegistry.wellFormed_ofList _

theorem Debezium.wellFormed_of_readValue {value : ByteArray} {c : Change}
    (h : readValue value = .ok c) : ∀ r, c.columns = some r → r.WellFormed := by
  unfold readValue at h
  split at h
  · cases h
  · exact wellFormed_of_changeOf h

namespace TopicSettings

theorem wellFormed_shapeColumns {s : TopicSettings} {columns : Option ColumnRegistry}
    (h : ∀ r, columns = some r → r.WellFormed) {r : ColumnRegistry}
    (shaped : s.shapeColumns columns = some r) : r.WellFormed := by
  have declared : (columns.getD .empty).WellFormed := by
    cases columns with
    | none => exact ColumnRegistry.wellFormed_empty
    | some r => exact h r rfl
  unfold shapeColumns at shaped
  split at shaped
  · cases shaped
  · obtain rfl := Option.some.inj shaped
    refine (ColumnRegistry.keeps_addAll (K := fun _ _ => False) _ _).wellFormed ?_
    split
    · exact declared.eraseAll s.columnsToExclude
    · exact ColumnRegistry.wellFormed_ofList _

theorem wellFormed_markKeys {names : List String} {r r' : ColumnRegistry} (h : r.WellFormed)
    (marked : markKeys names r = .ok r') : r'.WellFormed := by
  unfold markKeys at marked
  induction names generalizing r with
  | nil =>
    obtain rfl := Except.ok.inj marked
    exact h
  | cons n rest ih =>
    rw [List.foldlM_cons] at marked
    obtain ⟨r₁, first, marked⟩ := Outcome.bind_eq_ok.1 marked
    exact ih ((ColumnRegistry.keeps_mark (K := fun _ _ => False) rfl first).wellFormed h) marked

end TopicSettings

/-- The columns that the event of a change declares have names of their own if those of the change
have. -/
theorem RowEvent.wellFormed_declared {s : TopicSettings} {mode : Mode} {now : Instant} {key : Row}
    {c : Change} (h : ∀ r, c.columns = some r → r.WellFormed) {e : RowEvent}
    (made : ofChange s mode now key c = .ok e) : e.declared.WellFormed := by
  rcases marks_of_ofChange made with ⟨-, none⟩ | ⟨r, r', shaped, marked, some⟩
  · rw [declared, none]
    exact ColumnRegistry.wellFormed_empty
  · rw [declared, some]
    exact TopicSettings.wellFormed_markKeys (TopicSettings.wellFormed_shapeColumns h shaped) marked

end ChangeCapture
