import ChangeCapture.Proofs.Column.Knowledge
import ChangeCapture.Proofs.RowEvent.Columns
import ChangeCapture.RowEvent.Shaping
import ChangeCapture.Trial.Sample

/-!
# Events that are not saved

An event that breaks a rule leaves nothing behind.  An event that fails later, at
a column without a name or at a primary key without a value, has by then brought
up its table, started a window for it, and told the window of its columns.

A registry of columns only ever learns, so a failed event leaves it as it was if
and only if none of the columns seen before the failure was news to it
(`RowEvent.visit_addAll_eq_self_iff`).
-/

namespace ChangeCapture

namespace ColumnRegistry

/-! ## Values that are no news -/

variable {r r' : ColumnRegistry}

/-- The value of a column is no news: the column is there, and it is marked already if the source
left the value out, and has a kind already if the value has one. -/
def Knows (r : ColumnRegistry) (hints : Option KindHints) (v : String × Json) : Prop :=
  if v.2.standsForUnavailable then r.Toasted (ColumnName.normalize v.1)
  else
    match r.get? (ColumnName.normalize v.1) with
    | none => ColumnName.normalize v.1 = ""
    | some c => c.isSkipped → ColumnKind.infer hints v.1 v.2 = .invalid

theorem learns_admit {hints : Option KindHints} {v : String × Json}
    (h : r.admit hints v.1 v.2 = .ok r') : Learns (r.Knows hints v) r r' := by
  unfold ColumnRegistry.admit at h
  simp only [Knows]
  simp only at h
  cases unavailable : v.2.standsForUnavailable with
  | true =>
    rw [unavailable, if_pos rfl] at h
    simpa using learns_mark h
  | false =>
    rw [unavailable, if_neg Bool.false_ne_true] at h
    cases hc : r.get? (ColumnName.normalize v.1) with
    | none =>
      simp only [hc] at h
      obtain rfl := Except.ok.inj h
      have added := learns_add r (.new (ColumnName.normalize v.1) (.infer hints v.1 v.2))
      simpa [Lists, Column.new, hc] using added
    | some c =>
      simp only [hc] at h
      obtain rfl := Except.ok.inj h
      cases skipped : c.isSkipped with
      | false => exact .inl ⟨by simp [skipped], by simp⟩
      | true => simpa [skipped] using learns_upgrade hc skipped (.infer hints v.1 v.2)

end ColumnRegistry

namespace RowEvent

/-! ## Visits that change nothing -/

/-- The value can be visited: the source did not leave it out, or its column has a name. -/
def visitable (v : String × Json) : Bool :=
  !(v.2.standsForUnavailable && (ColumnName.normalize v.1).isEmpty)

theorem admit_isOk {columns : ColumnRegistry} {hints : Option KindHints} {v : String × Json} :
    (∃ columns', columns.admit hints v.1 v.2 = .ok columns') ↔ visitable v := by
  rw [admit_isOk_iff, visitable]
  cases v.2.standsForUnavailable <;> simp

/-- The values before the first one that cannot be visited are no news. -/
def KnowsAll (columns : ColumnRegistry) (hints : Option KindHints)
    (entries : List (String × Json)) : Prop :=
  ∀ v ∈ entries.takeWhile visitable, columns.Knows hints v

theorem learns_visit (hints : Option KindHints) (columns : ColumnRegistry) (row : Row)
    (entries : List (String × Json)) :
    ColumnRegistry.Learns (KnowsAll columns hints entries) columns
      (visit hints columns row entries).1 := by
  induction entries generalizing columns row with
  | nil => exact .inl ⟨by simp [KnowsAll], rfl⟩
  | cons v rest ih =>
    simp only [visit]
    cases admitted : columns.admit hints v.1 v.2 with
    | error f =>
      have stuck : ¬ visitable v := by
        intro passes
        obtain ⟨columns', passed⟩ : ∃ columns', columns.admit hints v.1 v.2 = .ok columns' :=
          admit_isOk.2 passes
        rw [admitted] at passed
        cases passed
      exact .inl ⟨by simp [KnowsAll, stuck], rfl⟩
    | ok columns' =>
      have passes : visitable v := admit_isOk.1 ⟨columns', admitted⟩
      have first := ColumnRegistry.learns_admit admitted
      have next := first.trans (q := fun columns => KnowsAll columns hints rest)
        (ih columns' (row.insert (ColumnName.normalize v.1) v.2.collapsed))
      simpa only [KnowsAll, List.takeWhile_cons, if_pos passes, List.forall_mem_cons] using next

/-- The columns that the event declares, and those of the values that are visited, are no news. -/
structure Familiar (e : RowEvent) (columns : ColumnRegistry) (entries : List (String × Json)) :
    Prop where
  /-- The columns that the event declares are there. -/
  declares : ∀ c ∈ e.declared.columns, columns.Lists c.name
  /-- The values before the first one that cannot be visited are known. -/
  visits : KnowsAll columns e.hints entries

theorem visit_addAll_eq_self_iff (e : RowEvent) (columns : ColumnRegistry)
    (entries : List (String × Json)) :
    (visit e.hints (columns.addAll e.declared.columns) .empty entries).1 = columns ↔
      e.Familiar columns entries := by
  have first := ColumnRegistry.learns_addAll columns e.declared.columns
  have both := first.trans (q := fun columns => KnowsAll columns e.hints entries)
    (learns_visit e.hints (columns.addAll e.declared.columns) .empty entries)
  rw [both.eq_iff]
  exact ⟨fun h => ⟨h.1, h.2⟩, fun h => ⟨h.declares, h.visits⟩⟩

/-! ## What is left behind -/

/-- The window that a visit of values leaves in a buffer, up to the columns visited. -/
def attempted (e : RowEvent) (s : TopicSettings) (b : TableBuffer)
    (entries : List (String × Json)) : Window :=
  let w := e.windowFor s b
  { w with columns := (visit e.hints w.columns .empty entries).1 }

variable {e : RowEvent} {s : TopicSettings} {m : Message} {r : TableRegistry}
  {entries : List (String × Json)} {f : Fault}

theorem saveInto_error {w : Window} (h : (e.saveInto m w entries).2 = .error f) :
    (e.saveInto m w entries).1 =
      { w with columns := (visit e.hints w.columns .empty entries).1 } := by
  unfold saveInto at h ⊢
  simp only at h ⊢
  split at h
  · rfl
  · cases h

/-- An event that breaks no rule and still fails leaves its window behind, without its row. -/
theorem saveInOrder_error (valid : e.validate = .ok ())
    (h : (e.saveInOrder s m entries r).2 = .error f) :
    (e.saveInOrder s m entries r).1 =
      r.putWindow e.tableId s.topic
        (e.attempted s (r.getOrNew e.tableId s.topic) entries) := by
  simp only [saveInOrder, valid, TableRegistry.getOrNew_register] at h ⊢
  have fails : (e.saveInto m (e.windowFor s (r.getOrNew e.tableId s.topic)) entries).2 =
      .error f := by
    cases outcome : (e.saveInto m (e.windowFor s (r.getOrNew e.tableId s.topic)) entries).2 with
    | error f' =>
      rw [outcome] at h
      exact congrArg Except.error (Except.error.inj h)
    | ok u =>
      rw [outcome] at h
      cases h
  rw [saveInto_error fails]
  rfl

/-- An event that breaks a rule changes nothing. -/
theorem saveInOrder_invalid (s : TopicSettings) (m : Message) (entries : List (String × Json))
    (r : TableRegistry) (breaks : e.validate = .error f) :
    e.saveInOrder s m entries r = (r, .error f) := by
  simp only [saveInOrder, breaks]

/-- An event that is not saved touches no other table, and of the rows that are buffered for its
own table nothing but what is known of their columns. -/
theorem saveInOrder_error_frame (fails : (e.saveInOrder s m entries r).2 = .error f) :
    (∀ t, t ≠ e.tableId → (e.saveInOrder s m entries r).1.get? t = r.get? t) ∧
      ∀ b w, r.Holds e.tableId b w → ∃ columns, w.columns.Grows columns ∧
        (e.saveInOrder s m entries r).1.get? e.tableId =
          some (b.setWindow { w with columns := columns }) := by
  cases valid : e.validate with
  | error f' =>
    rw [saveInOrder_invalid s m entries r valid]
    refine ⟨fun t _ => rfl, fun b w h => ⟨w.columns, .refl _, ?_⟩⟩
    rw [h.buffer, TableBuffer.setWindow, ← h.window]
  | ok u =>
    rw [saveInOrder_error valid fails]
    refine ⟨fun t ne => r.get?_putWindow_of_ne s.topic _ ne, fun b w h => ?_⟩
    have filled : b.isEmpty = false := by simp [TableBuffer.isEmpty, h.window, h.filled]
    refine ⟨(visit e.hints (w.columns.addAll e.declared.columns) .empty entries).1,
      (ColumnRegistry.grows_addAll _ _).trans (grows_visit _ _ _ _), ?_⟩
    rw [TableRegistry.get?_putWindow_self, TableRegistry.getOrNew_of_get? s.topic h.buffer]
    simp only [attempted, windowFor, filled, h.window]
    rfl

/-- The window of a buffer is the one that an event leaves behind if and only if the columns of
the event are no news to it. -/
theorem window_eq_attempted_iff (b : TableBuffer) {w : Window} (hw : b.window = some w) :
    w = e.attempted s b entries ↔
      if w.isEmpty then w = e.attempted s b entries else e.Familiar w.columns entries := by
  split
  · rfl
  · rename_i filled
    have holds : b.isEmpty = false := by simp [TableBuffer.isEmpty, hw, filled]
    rw [← visit_addAll_eq_self_iff]
    simp only [attempted, windowFor, holds, hw]
    constructor
    · exact fun same => (congrArg Window.columns same).symm
    · intro same
      show w = { w with
        columns := (visit e.hints (w.columns.addAll e.declared.columns) .empty entries).1 }
      rw [same]

/-- An event that is not saved leaves the tables as they were if and only if it breaks a rule, or
its table is there and either has rows in a window to which the columns of the event are no news,
or has the empty window that such an event left behind before. -/
theorem saveInOrder_unchanged_iff (fails : (e.saveInOrder s m entries r).2 = .error f) :
    (e.saveInOrder s m entries r).1 = r ↔
      e.validate = .error f ∨
        ∃ b w, r.get? e.tableId = some b ∧ b.window = some w ∧
          if w.isEmpty then w = e.attempted s b entries else e.Familiar w.columns entries := by
  cases valid : e.validate with
  | error f' =>
    rw [saveInOrder_invalid s m entries r valid] at fails ⊢
    exact ⟨fun _ => .inl (congrArg Except.error (Except.error.inj fails)), fun _ => rfl⟩
  | ok u =>
    rw [saveInOrder_error valid fails, TableRegistry.putWindow_eq_self_iff]
    constructor
    · rintro ⟨b, hb, hw⟩
      rw [TableRegistry.getOrNew_of_get? s.topic hb] at hw
      exact .inr ⟨b, _, hb, hw, (window_eq_attempted_iff b hw).1 rfl⟩
    · rintro (breaks | ⟨b, w, hb, hw, noNews⟩)
      · cases breaks
      · refine ⟨b, hb, ?_⟩
        rw [TableRegistry.getOrNew_of_get? s.topic hb, hw]
        exact congrArg some ((window_eq_attempted_iff b hw).2 noNews)

/-! ## A sample -/

/-- The settings of a topic whose primary key no row has. -/
def keylessSettings : TopicSettings :=
  { Sample.settings "orders" with primaryKeysOverride := ["missing"] }

/-- An order is added. -/
def addedOrder : Change :=
  Sample.change "orders" .create (some (.ofList [("id", .int 1), ("total", .int 5)]))

/-- The event of an order that is added under these settings. -/
def keyless : RowEvent where
  table := "orders"
  tableId := ⟨"public", "orders"⟩
  data := .ofList [(SystemColumn.deleted, .bool false), ("id", .int 1), ("total", .int 5)]
  hints := none
  columns := none
  isDelete := false
  primaryKeys := ["missing"]
  time := .ofMillis Sample.millis
  mode := .replication

/-- The fault with which it fails. -/
def keylessFault : Fault :=
  fault "Primary key not found in event data" "primary key 'missing' is missing from table 'orders'"

theorem saveInOrder_unchanged_iff_keyless :
    let m := Sample.message "orders" 0 .empty .empty
    let r := TableRegistry.new .default
    let entries := keyless.data.toList
    (keyless.saveInOrder keylessSettings m entries r).2 = .error keylessFault ∧
      ((keyless.saveInOrder keylessSettings m entries r).1 = r ↔
        keyless.validate = .error keylessFault ∨
          ∃ b w, r.get? keyless.tableId = some b ∧ b.window = some w ∧
            if w.isEmpty then w = keyless.attempted keylessSettings b entries
            else keyless.Familiar w.columns entries) :=
  ⟨rfl, saveInOrder_unchanged_iff rfl⟩

/-- An event that is not saved for want of a primary key brings its table up. -/
theorem save_leaves_table :
    keylessSettings.validate = .ok () ∧
      ofChange keylessSettings .replication ⟨0⟩ (.ofList [("id", .int 1)]) addedOrder =
        .ok keyless ∧
      keyless.validate = .ok () ∧
      (keyless.save keylessSettings (Sample.message "orders" 0 .empty .empty)
        (.new .default)).2 = .error keylessFault ∧
      (keyless.save keylessSettings (Sample.message "orders" 0 .empty .empty)
        (.new .default)).1 ≠ .new .default := by
  refine ⟨rfl, ?_, rfl, rfl, ?_⟩
  · have names : keylessSettings.keyNames (.ofList [("id", .int 1)]) = ["missing"] := by
      decide +kernel
    have sorted : TopicSettings.sortNames ["missing"] = ["missing"] :=
      List.mergeSort_singleton "missing"
    simp only [ofChange, names, sorted]
    rfl
  · intro same
    have := congrArg TableRegistry.tableCount same
    revert this
    decide +kernel

end RowEvent

end ChangeCapture
