import ChangeCapture.Proofs.Table
import ChangeCapture.RowEvent.Saving

/-!
# What saving an event does

An event that cannot be saved leaves at most columns behind, and its table.  One
that is saved puts its row (`RowEvent.savedRow`) under its key into the window
that its table has (`RowEvent.opened`), and its message after it.
-/

namespace ChangeCapture.RowEvent

/-! ## The row of an event -/

/-- Puts a value of an event into a row: under the normal form of its column, collapsed. -/
def put (row : Row) (v : String × Json) : Row :=
  row.insert (ColumnName.normalize v.1) v.2.collapsed

/-- The row that values come to when they are visited in this order. -/
def rowIn (entries : List (String × Json)) : Row := entries.foldl put .empty

/-- The key of the row when the values of an event are visited in this order. -/
def keyIn (e : RowEvent) (entries : List (String × Json)) : Outcome String :=
  keyOf e.table (rowIn entries) e.primaryKeys

/-- The row that an event saves. -/
def savedRow (e : RowEvent) : Row := e.data.toList.foldl put .empty

/-- The key of the row that an event saves. -/
def savedKey (e : RowEvent) : Outcome String := keyOf e.table e.savedRow e.primaryKeys

theorem savedKey_eq (e : RowEvent) : e.savedKey = e.keyIn e.data.toList := rfl

/-- A visit that does not fail gathers all values. -/
theorem visit_row {hints : Option KindHints} {columns : ColumnRegistry} {row row' : Row}
    {entries : List (String × Json)} (h : (visit hints columns row entries).2 = .ok row') :
    row' = entries.foldl put row := by
  induction entries generalizing columns row with
  | nil => exact (Except.ok.inj h).symm
  | cons v rest ih =>
    obtain ⟨column, value⟩ := v
    unfold visit at h
    split at h
    · cases h
    · exact ih h

/-! ## The window of an event -/

/-- The columns that the event declares. -/
def declared (e : RowEvent) : ColumnRegistry := e.columns.getD .empty

/-- The columns that a visit of the values leaves. -/
def visited (e : RowEvent) (columns : ColumnRegistry) : ColumnRegistry :=
  (visit e.hints columns .empty e.data.toList).1

/-- The window that an event is saved into, with the columns that a visit leaves. -/
def opened (e : RowEvent) (s : TopicSettings) (r : TableRegistry) : Window :=
  let w := e.windowFor s (r.getOrNew e.tableId s.topic)
  { w with columns := e.visited w.columns }

/-- The window of an event after its row was saved under a key. -/
def stored (e : RowEvent) (s : TopicSettings) (m : Message) (r : TableRegistry) (key : String) :
    Window :=
  (((e.opened s r).insert key e.savedRow e.isDelete).observe e.time).record m

/-- The window for an event is that of its table, with the columns that the event declares, if it
has rows, and else a new one. -/
theorem windowFor_getOrNew (e : RowEvent) (s : TopicSettings) (r : TableRegistry) :
    ((r.getOrNew e.tableId s.topic).isEmpty ∧ e.windowFor s (r.getOrNew e.tableId s.topic) =
        Window.new e.tableId e.table e.mode e.declared e.primaryKeys s) ∨
      ∃ b w, r.Holds e.tableId b w ∧ e.windowFor s (r.getOrNew e.tableId s.topic) =
        { w with columns := w.columns.addAll e.declared.columns } := by
  unfold windowFor
  cases he : (r.getOrNew e.tableId s.topic).isEmpty with
  | true => exact .inl ⟨rfl, rfl⟩
  | false =>
    right
    cases hw : (r.getOrNew e.tableId s.topic).window with
    | none => simp [TableBuffer.isEmpty, hw] at he
    | some w =>
      refine ⟨_, w, ⟨?_, hw, ?_⟩, rfl⟩
      · cases hb : r.get? e.tableId with
        | none =>
          rw [TableRegistry.getOrNew_of_none _ hb] at hw
          cases hw
        | some b => rw [TableRegistry.getOrNew_of_get? _ hb]
      · simpa [TableBuffer.isEmpty, hw] using he

/-- An event is saved into the window of its table if that has rows, and else into a new one. -/
theorem opened_cases (e : RowEvent) (s : TopicSettings) (r : TableRegistry) :
    ((r.getOrNew e.tableId s.topic).isEmpty ∧
      e.opened s r =
        Window.new e.tableId e.table e.mode (e.visited e.declared) e.primaryKeys s) ∨
    ∃ b w, r.Holds e.tableId b w ∧
      e.opened s r = { w with columns := e.visited (w.columns.addAll e.declared.columns) } := by
  simp only [opened]
  rcases e.windowFor_getOrNew s r with ⟨empty, fresh⟩ | ⟨b, w, holds, old⟩
  · exact .inl ⟨empty, by rw [fresh]; rfl⟩
  · exact .inr ⟨b, w, holds, by rw [old]⟩

/-- A window with rows is the one that an event of its table is saved into. -/
theorem opened_of_holds {e : RowEvent} {r : TableRegistry} {b : TableBuffer} {w : Window}
    (h : r.Holds e.tableId b w) (s : TopicSettings) :
    e.opened s r = { w with columns := e.visited (w.columns.addAll e.declared.columns) } := by
  rcases e.opened_cases s r with ⟨empty, -⟩ | ⟨b', w', h', old⟩
  · rw [TableRegistry.getOrNew_of_get? _ h.buffer] at empty
    simp [TableBuffer.isEmpty, h.window, h.filled] at empty
  · obtain rfl := Option.some.inj (h'.buffer.symm.trans h.buffer)
    obtain rfl := Option.some.inj (h'.window.symm.trans h.window)
    exact old

/-- The messages of the window that an event is saved into were in the buffer of its table. -/
theorem buffers_of_mem_opened {e : RowEvent} {s : TopicSettings} {r : TableRegistry} {m : Message}
    (h : m ∈ (e.opened s r).lastMessages) : r.Buffers e.tableId m := by
  rcases e.opened_cases s r with ⟨-, fresh⟩ | ⟨b, w, holds, old⟩
  · rw [fresh] at h
    cases h
  · rw [old] at h
    exact ⟨b, w, holds.buffer, holds.window, h⟩

/-- The messages after saving are those from before and the one that was saved. -/
theorem mem_lastMessages_stored {e : RowEvent} {s : TopicSettings} {r : TableRegistry}
    {m x : Message} {key : String} (h : x ∈ (e.stored s m r key).lastMessages) :
    x = m ∨ r.Buffers e.tableId x := by
  rcases Window.mem_lastMessages_record h with rfl | mem
  · exact .inl rfl
  · unfold Window.lastMessages at mem
    rw [Window.messages_observe, Window.messages_insert] at mem
    exact .inr (buffers_of_mem_opened mem)

theorem isEmpty_stored (e : RowEvent) (s : TopicSettings) (m : Message) (r : TableRegistry)
    (key : String) : (e.stored s m r key).isEmpty = false :=
  Window.isEmpty_record_insert _ _ _ _ _ _

/-- Saving a row leaves the settings, the mode, the place and the columns of the window as they
are. -/
theorem stored_frame (e : RowEvent) (s : TopicSettings) (m : Message) (r : TableRegistry)
    (key : String) :
    (e.stored s m r key).settings = (e.opened s r).settings ∧
      (e.stored s m r key).mode = (e.opened s r).mode ∧
      (e.stored s m r key).path = (e.opened s r).path ∧
      (e.stored s m r key).columns = (e.opened s r).columns := by
  unfold stored Window.path Window.record Window.observe Window.insert Window.upsert Window.append
  split
  · split <;> exact ⟨rfl, rfl, rfl, rfl⟩
  · split <;> exact ⟨rfl, rfl, rfl, rfl⟩

/-! ## Saving -/

/-- How the saving of an event ends, and with which buffers. -/
inductive SaveStep (e : RowEvent) (s : TopicSettings) (m : Message) (r : TableRegistry) :
    TableRegistry → Outcome (Option FlushReason) → Prop where
  /-- The event breaks a rule. -/
  | invalid (f : Fault) (breaks : e.validate = .error f) : SaveStep e s m r r (.error f)
  /-- A column has no name, or a primary key has no value. -/
  | refused (f : Fault) (valid : e.validate = .ok ()) :
    SaveStep e s m r (r.putWindow e.tableId s.topic (e.opened s r)) (.error f)
  /-- The event is saved. -/
  | saved {key : String} (valid : e.validate = .ok ()) (hkey : e.savedKey = .ok key)
    {columns : ColumnRegistry} (opens : (e.opened s r).columns = e.visited columns)
    (visits : (visit e.hints columns .empty e.data.toList).2 = .ok e.savedRow) :
    SaveStep e s m r (r.putWindow e.tableId s.topic (e.stored s m r key))
      (.ok ((e.stored s m r key).flushReason? r.thresholds))

theorem thresholds_register (r : TableRegistry) (t : TableId) (topic : String) :
    (r.register t topic).thresholds = r.thresholds := by
  simp only [TableRegistry.register]
  split <;> rfl

/-- The saving of an event ends in one of the ways listed. -/
theorem save_step (e : RowEvent) (s : TopicSettings) (m : Message) (r : TableRegistry) :
    SaveStep e s m r (e.save s m r).1 (e.save s m r).2 := by
  simp only [save, saveInOrder]
  split
  · exact .invalid _ ‹_›
  · rename_i valid
    simp only [TableRegistry.getOrNew_register, thresholds_register]
    cases hv : (visit e.hints (e.windowFor s (r.getOrNew e.tableId s.topic)).columns .empty
      e.data.toList).2 with
    | error f =>
      simp only [saveInto, hv, Except.bind, Except.map]
      exact .refused f valid
    | ok row =>
      have hrow : row = e.savedRow := visit_row hv
      subst hrow
      cases hk : keyOf e.table e.savedRow e.primaryKeys with
      | error f =>
        simp only [saveInto, hv, hk, Except.bind, Except.map]
        exact .refused f valid
      | ok key =>
        simp only [saveInto, hv, hk, Except.bind, Except.map]
        exact .saved valid hk rfl hv

/-! ## Events that can be saved -/

/-- The event can be saved. -/
structure Savable (e : RowEvent) : Prop where
  /-- It breaks no rule. -/
  valid : e.validate = .ok ()
  /-- Its row has a key. -/
  keyed : ∃ key, e.savedKey = .ok key
  /-- The columns that the source left out have names. -/
  named : ∀ v ∈ e.data.toList, v.2.standsForUnavailable →
    (ColumnName.normalize v.1).isEmpty = false

theorem admit_isOk_iff (columns : ColumnRegistry) (hints : Option KindHints) {column : String}
    {value : Json} : (∃ columns', columns.admit hints column value = .ok columns') ↔
      (value.standsForUnavailable → (ColumnName.normalize column).isEmpty = false) := by
  simp only [ ColumnRegistry.admit, ColumnRegistry.mark]
  cases value.standsForUnavailable with
  | false => cases columns.get? (ColumnName.normalize column) <;> simp
  | true =>
    cases (ColumnName.normalize column).isEmpty with
    | true => simp
    | false => cases columns.get? (ColumnName.normalize column) <;> simp

/-- Whether a visit fails does not depend on the columns that are there. -/
theorem visit_isOk_iff (hints : Option KindHints) (columns : ColumnRegistry) (row : Row)
    {entries : List (String × Json)} :
    (∃ row', (visit hints columns row entries).2 = .ok row') ↔
      ∀ v ∈ entries, v.2.standsForUnavailable → (ColumnName.normalize v.1).isEmpty = false := by
  induction entries generalizing columns row with
  | nil => simp [visit]
  | cons v rest ih =>
    obtain ⟨column, value⟩ := v
    rw [List.forall_mem_cons, ← admit_isOk_iff columns hints]
    cases admitted : columns.admit hints column value with
    | error f => simp [visit, admitted]
    | ok columns' => simp [visit, admitted, ih]

/-- An event is saved in an order if it breaks no rule, its row has a key, and the columns that the
source left out have names. -/
theorem saveInOrder_isOk_iff (e : RowEvent) (s : TopicSettings) (m : Message)
    (entries : List (String × Json)) (r : TableRegistry) :
    (∃ reason, (e.saveInOrder s m entries r).2 = .ok reason) ↔
      e.validate = .ok () ∧ (∃ key, e.keyIn entries = .ok key) ∧
        ∀ v ∈ entries, v.2.standsForUnavailable → (ColumnName.normalize v.1).isEmpty = false := by
  cases valid : e.validate with
  | error f => simp [saveInOrder, valid]
  | ok u =>
    simp only [saveInOrder, valid, saveInto, true_and]
    generalize e.windowFor s _ = w
    rw [← visit_isOk_iff e.hints w.columns .empty]
    cases visits : (visit e.hints w.columns .empty entries).2 with
    | error f => simp [Except.bind, Except.map]
    | ok row =>
      obtain rfl : row = rowIn entries := visit_row visits
      cases hkey : keyOf e.table (rowIn entries) e.primaryKeys <;>
        simp [keyIn, hkey, Except.bind, Except.map]

/-- An event that can be saved is saved into any registry. -/
theorem save_isOk_iff (e : RowEvent) (s : TopicSettings) (m : Message) (r : TableRegistry) :
    (∃ reason, (e.save s m r).2 = .ok reason) ↔ e.Savable :=
  (saveInOrder_isOk_iff e s m e.data.toList r).trans
    ⟨fun ⟨valid, keyed, named⟩ => ⟨valid, keyed, named⟩,
      fun savable => ⟨savable.valid, savable.keyed, savable.named⟩⟩

end ChangeCapture.RowEvent
