import ChangeCapture.Proofs.RowEvent.History
import ChangeCapture.Proofs.Store.Merge

/-!
# A stored table and its window

A stored table with the window of its table on top follows the events that were
saved (`Tracks`).  A key that is not buffered is stored if and only if its row
is there after its events.  The stored values of a key that is never deleted
for good, with the buffered ones laid over them, say what the events say.

To save an event and to merge the window keep this, and so does a merge after
which the window stays, since to lay it over the table once more changes
nothing.
-/

namespace ChangeCapture

open RowEvent (ofKey settled layered Present Lasting)

/-- The buffered row of a key, if there is a window. -/
def buffered (w? : Option Window) (key : String) : Option Row := w?.bind (·.keyed.get? key)

/-- The stored table with the window on top follows the events. -/
structure Tracks (s : TopicSettings) (w? : Option Window) (t : StoredTable)
    (events : List RowEvent) : Prop where
  /-- The columns of the events are clear. -/
  clear : ∀ e ∈ events, e.Clear
  /-- The window keeps one row for each key, under the settings of the topic. -/
  keyed : ∀ w, w? = some w → w.settings = s ∧ w.mode = .replication
  /-- Every buffered value has a column. -/
  window : ∀ w, w? = some w → w.Sound
  /-- Every stored value has a column. -/
  table : t.Sound
  /-- A buffered row is marked as the last event of its key is. -/
  marks : ∀ key row, buffered w? key = some row →
    ∃ e, (ofKey events key).getLast? = some e ∧ row.isDeleted = e.isDelete
  /-- A key that is not buffered is stored if its row is there after its events. -/
  rows : ∀ key, buffered w? key = none → (t.rows.contains key ↔ Present s (ofKey events key))
  /-- The values say what the events say. -/
  values : ∀ key, Lasting s (ofKey events key) → ∀ n,
    Json.Alike (Json.overlay (t.value? key n) ((buffered w? key).bind (·.get? n)))
      (layered (ofKey events key) n)

namespace Tracks

variable {s : TopicSettings} {t : StoredTable} {events : List RowEvent}

/-- Nothing stored and nothing buffered is what there is before the first event. -/
theorem start (s : TopicSettings) : Tracks s none .empty [] where
  clear := by
    intro e mem
    cases mem
  keyed := by
    intro w h
    cases h
  window := by
    intro w h
    cases h
  table := StoredTable.sound_empty
  marks := by
    intro key row h
    cases h
  rows := by
    intro key _
    constructor
    · intro h
      cases h
    · rintro ⟨e, h, -⟩
      cases h
  values := fun _ _ _ => .refl none

/-- A window with the same rows and more columns will do as well. -/
theorem regrow {w w' : Window} (h : Tracks s (some w) t events)
    (settings : w'.settings = w.settings) (mode : w'.mode = w.mode) (rows : w'.keyed = w.keyed)
    (grows : w.columns.Grows w'.columns) : Tracks s (some w') t events := by
  have same : buffered (some w') = buffered (some w) := by
    funext key
    exact congrArg (·.get? key) rows
  refine ⟨h.clear, ?_, ?_, h.table, same ▸ h.marks, same ▸ h.rows, same ▸ h.values⟩
  · rintro _ ⟨⟩
    rw [settings, mode]
    exact h.keyed w rfl
  · rintro _ ⟨⟩
    exact (h.window w rfl).mono rows grows

/-! ## Saving -/

/-- A row put over the one that is buffered, if there is one. -/
def layer (previous : Option Row) (row : Row) : Row := (previous.map (Row.carryOver · row)).getD row

theorem get?_layer (previous : Option Row) (row : Row) (n : String) :
    (layer previous row).get? n = Json.overlay (previous.bind (·.get? n)) (row.get? n) := by
  cases previous with
  | none => rw [Option.bind_none, Json.none_overlay]; rfl
  | some p => exact Row.get?_carryOver p row n

/-- A row that is marked stays marked in the same way over what was buffered. -/
theorem isDeleted_layer {row : Row} {deleted : Bool}
    (h : row.get? SystemColumn.deleted = some (.bool deleted)) (previous : Option Row) :
    (layer previous row).isDeleted = deleted := by
  simp only [Row.isDeleted]
  rw [get?_layer, h, Json.overlay_plain _ rfl]
  rfl

theorem save {w? : Option Window} (h : Tracks s w? t events) {e : RowEvent} (clear : e.Clear)
    (marked : e.savedRow.get? SystemColumn.deleted = some (.bool e.isDelete)) {key : String}
    (hkey : e.savedKey = .ok key) {w : Window} (keyed : w.settings = s ∧ w.mode = .replication)
    (sound : w.Sound)
    (rows : ∀ k, w.keyed.get? k =
      if k = key then some (layer (buffered w? key) e.savedRow) else buffered w? k) :
    Tracks s (some w) t (events ++ [e]) := by
  have self : buffered (some w) key = some (layer (buffered w? key) e.savedRow) := by
    rw [buffered, Option.bind_some, rows, if_pos rfl]
  have other : ∀ k, k ≠ key → buffered (some w) k = buffered w? k := by
    intro k ne
    rw [buffered, Option.bind_some, rows, if_neg ne]
  refine ⟨?_, ?_, ?_, h.table, ?_, ?_, ?_⟩
  · intro e' mem
    rcases List.mem_append.1 mem with mem | mem
    · exact h.clear e' mem
    · rw [List.mem_singleton.1 mem]
      exact clear
  · rintro _ ⟨⟩
    exact keyed
  · rintro _ ⟨⟩
    exact sound
  · intro k row hk
    by_cases same : k = key
    · subst same
      rw [self] at hk
      obtain rfl := Option.some.inj hk
      rw [RowEvent.ofKey_append_self hkey]
      exact ⟨e, List.getLast?_concat .., isDeleted_layer marked _⟩
    · rw [other k same] at hk
      rw [RowEvent.ofKey_append_other hkey same]
      exact h.marks k row hk
  · intro k hk
    by_cases same : k = key
    · subst same
      rw [self] at hk
      cases hk
    · rw [other k same] at hk
      rw [RowEvent.ofKey_append_other hkey same]
      exact h.rows k hk
  · intro k lasting n
    by_cases same : k = key
    · subst same
      rw [RowEvent.ofKey_append_self hkey] at lasting ⊢
      have before := h.values k (fun e' mem => lasting e' (List.mem_append_left _ mem)) n
      rw [self, Option.bind_some, get?_layer, ← Json.overlay_assoc, RowEvent.layered_append]
      exact before.overlay _
    · rw [RowEvent.ofKey_append_other hkey same] at lasting ⊢
      rw [other k same]
      exact h.values k lasting n

/-! ## Merging -/

section Merging

variable {w : Window}

/-- A buffered row is marked as deleted for good if the last event of its key deletes it so. -/
theorem hard_of_last (h : Tracks s (some w) t events) {key : String} {row : Row}
    (hk : w.keyed.get? key = some row) :
    ∃ e, (ofKey events key).getLast? = some e ∧
      (row.isDeleted && !w.settings.softDelete) = e.isHardDelete s := by
  obtain ⟨e, last, mark⟩ := h.marks key row hk
  refine ⟨e, last, ?_⟩
  rw [mark, (h.keyed w rfl).1]
  rfl

/-- A buffered row stays if no event deletes it for good. -/
theorem stays_of_lasting (h : Tracks s (some w) t events) {key : String} {row : Row}
    (hk : w.keyed.get? key = some row) (lasting : Lasting s (ofKey events key)) :
    (row.isDeleted && !w.settings.softDelete) = false := by
  obtain ⟨e, last, hard⟩ := h.hard_of_last hk
  rw [hard]
  exact lasting e (List.mem_of_getLast? last)

theorem rows_merge (h : Tracks s (some w) t events) (key : String) :
    (t.merge (w.adopt t.columns)).rows.contains key ↔ Present s (ofKey events key) := by
  simp only [SortedMap.contains]
  rw [StoredTable.get?_merge]
  cases hk : (w.adopt t.columns).keyed.get? key with
  | none => exact h.rows key hk
  | some row =>
    obtain ⟨e, last, hard⟩ := h.hard_of_last hk
    have mark : (row.isDeleted && !(w.adopt t.columns).settings.softDelete) = e.isHardDelete s :=
      hard
    have present : Present s (ofKey events key) ↔ e.isHardDelete s = false := by
      simp [Present, last]
    rw [present]
    simp only [mark]
    cases e.isHardDelete s with
    | false => exact iff_of_true rfl rfl
    | true => exact iff_of_false Bool.false_ne_true Bool.noConfusion

theorem values_merge (h : Tracks s (some w) t events) {key : String}
    (lasting : Lasting s (ofKey events key)) (n : String) :
    Json.Alike ((t.merge (w.adopt t.columns)).value? key n)
      (Json.overlay (t.value? key n) (w.value? key n)) := by
  cases hk : w.keyed.get? key with
  | none =>
    rw [StoredTable.value?_merge_of_none (w := w.adopt t.columns) t hk, Window.value?, hk,
      Option.bind_none, Json.overlay_none]
    exact .refl _
  | some row =>
    have fits : ∀ v, w.value? key n = some v → Unicode.lowercase n = n ∧ w.columns.Admits n v :=
      fun v hv => ⟨(h.window w rfl key n v hv).1, (h.window w rfl key n v hv).2.2⟩
    exact StoredTable.value?_merge h.table.typed (h.table.admits key n) fits hk
      (h.stays_of_lasting hk lasting)

theorem sound_merge (h : Tracks s (some w) t events) : (t.merge (w.adopt t.columns)).Sound :=
  h.table.merge (StoredTable.sound_adopt h.table (h.window w rfl))

/-- The window is merged and dropped. -/
theorem merge (h : Tracks s (some w) t events) :
    Tracks s none (t.merge (w.adopt t.columns)) events where
  clear := h.clear
  keyed := by
    intro w h
    cases h
  window := by
    intro w h
    cases h
  table := h.sound_merge
  marks := by
    intro key row h
    cases h
  rows := fun key _ => h.rows_merge key
  values := by
    intro key lasting n
    rw [buffered, Option.bind_none, Option.bind_none, Json.overlay_none]
    exact (h.values_merge lasting n).trans (h.values key lasting n)

theorem adopt (h : Tracks s (some w) t events) : Tracks s (some (w.adopt t.columns)) t events :=
  h.regrow rfl rfl rfl (ColumnRegistry.grows_adopt w.columns h.table.typed)

/-- The window is merged and stays.  What is merged again later changes nothing. -/
theorem remerge (h : Tracks s (some w) t events) :
    Tracks s (some (w.adopt t.columns)) (t.merge (w.adopt t.columns)) events where
  clear := h.clear
  keyed := h.adopt.keyed
  window := h.adopt.window
  table := h.sound_merge
  marks := h.adopt.marks
  rows := fun key _ => h.rows_merge key
  values := by
    intro key lasting n
    have once := (h.values_merge lasting n).overlay (w.value? key n)
    rw [Json.overlay_overlay_self] at once
    exact once.trans (h.values key lasting n)

end Merging

/-! ## What is stored in the end -/

/-- If nothing is buffered, a column of a key that is never deleted for good has the last value that
an event carries for it, unless that value is null. -/
theorem value_of_settled (h : Tracks s none t events) {key : String}
    (lasting : Lasting s (ofKey events key)) {n : String} {v : Json}
    (last : settled (ofKey events key) n = some v) (full : v.isNull = false) :
    t.value? key n = some v := by
  have clear : ∀ e ∈ ofKey events key, e.Clear :=
    fun e mem => h.clear e (List.mem_filter.1 mem).1
  have values := h.values key lasting n
  obtain ⟨ends, plain⟩ := (RowEvent.layered_of_settled clear n).1 v last
  rw [buffered, Option.bind_none, Option.bind_none, Json.overlay_none, ends] at values
  refine values.eq_some ?_
  rw [Json.isBlank, full, plain, Bool.or_false]

/-- If nothing is buffered, a column for which the last value is null, or for which no event carries
a value, says nothing. -/
theorem blank_of_settled (h : Tracks s none t events) {key : String}
    (lasting : Lasting s (ofKey events key)) {n : String}
    (last : ∀ v, settled (ofKey events key) n = some v → v.isNull) :
    Json.Blank (t.value? key n) := by
  have clear : ∀ e ∈ ofKey events key, e.Clear :=
    fun e mem => h.clear e (List.mem_filter.1 mem).1
  have values := h.values key lasting n
  have ends := RowEvent.layered_of_settled clear n
  rw [buffered, Option.bind_none, Option.bind_none, Json.overlay_none] at values
  refine values.symm.blank fun v hv => ?_
  cases hs : settled (ofKey events key) n with
  | none => exact Json.isBlank_of_isPlaceholder (ends.2 hs v hv)
  | some u =>
    rw [(ends.1 u hs).1] at hv
    obtain rfl := Option.some.inj hv
    rw [Json.isBlank, last u hs, Bool.true_or]

end Tracks

end ChangeCapture
