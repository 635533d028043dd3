import ChangeCapture.Proofs.Column.Knowledge
import ChangeCapture.Proofs.Engine.Convergence
import ChangeCapture.Proofs.Engine.Layering

/-!
# Events that are taken in again

When buffers are lost, the events since some earlier one are taken in again, over
a table that has what some of them say already.  For a row that is never deleted
for good this makes no difference in the end (`Feed.absorbs_redelivery`): to lay
values over each other is associative, and to lay the same ones twice is to lay
them once.

A stored row with the buffered one on top is at all times what was stored at
first with the rows of the events on top (`Rests`).
-/

namespace ChangeCapture

/-! ## Merging twice -/

namespace StoredTable

theorem putRow_putRow (columns : List Column) (row stored : Row) :
    putRow columns row (putRow columns row stored) = putRow columns row stored := by
  refine SortedMap.ext_get? fun n => ?_
  rw [get?_putRow, get?_putRow]
  split
  · exact Json.overlay_overlay_self _ _
  · rfl

/-- A window that is merged twice is merged once. -/
theorem merge_merge (t : StoredTable) (w : Window) : (t.merge w).merge w = t.merge w := by
  have columns : ((t.merge w).merge w).columns = (t.merge w).columns :=
    ColumnRegistry.addAll_addAll t.columns w.columns.writable
  have rows : ((t.merge w).merge w).rows = (t.merge w).rows := by
    refine SortedMap.ext_get? fun key => ?_
    rw [get?_merge (t.merge w), get?_merge t]
    cases w.keyed.get? key with
    | none => rfl
    | some row =>
      cases gone : row.isDeleted && !w.settings.softDelete with
      | true => simp [gone]
      | false => simp [gone, putRow_putRow]
  have appended : ((t.merge w).merge w).appended = (t.merge w).appended := rfl
  generalize (t.merge w).merge w = twice at columns rows appended
  cases twice
  cases columns
  cases rows
  cases appended
  rfl

end StoredTable

/-- A window that is merged twice leaves every table as it is after the first merge. -/
theorem Store.table_merge_merge (d : Store) (w : Window) (p : TablePath) :
    ((d.merge w).merge w).table p = (d.merge w).table p := by
  by_cases here : p = w.path
  · subst here
    rw [table_merge_self, table_merge_self, StoredTable.merge_merge]
  · rw [table_merge_of_ne _ here]

/-! ## Values laid again -/

namespace Json

theorem Alike.overlay_overlay {x y z u : Option Json} (h : Alike x (Json.overlay y z)) :
    Alike (Json.overlay x u) (Json.overlay y (Json.overlay z u)) := by
  rw [← overlay_assoc]
  exact h.overlay u

end Json

namespace RowEvent

/-- Events that are taken in again, with those after them, leave the values as they are without
that. -/
theorem overlay_layered_again (first again rest : List RowEvent) (n : String) :
    Json.overlay (layered (first ++ again) n) (layered (again ++ rest) n) =
      layered (first ++ again ++ rest) n := by
  rw [layered_append_list, layered_append_list, layered_append_list (first ++ again),
    layered_append_list, ← Json.overlay_assoc, Json.overlay_overlay_self]

end RowEvent

/-! ## What a run without hard deletes keeps -/

open RowEvent (ofKey layered Lasting)

variable {s : TopicSettings}

theorem erases_overlay {above row : String → Option Json} (h : erases s above = false)
    (h' : erases s row = false) :
    erases s (fun n => Json.overlay (above n) (row n)) = false := by
  cases soft : s.softDelete with
  | true => simp [erases, soft]
  | false =>
    simp only [erases, soft, Bool.not_false, Bool.and_true] at h h' ⊢
    cases hv : Json.overlay (above SystemColumn.deleted) (row SystemColumn.deleted) with
    | none => rfl
    | some v =>
      rcases Json.mem_overlay hv with hv | hv
      · rwa [hv] at h
      · rwa [hv] at h'

/-- The columns of an event are clear, and its row does not go away unless the event deletes it
for good. -/
structure RowEvent.Honest (s : TopicSettings) (e : RowEvent) : Prop where
  /-- The columns are clear. -/
  clear : e.Clear
  /-- A row that goes away is deleted for good. -/
  deletes : erases s e.savedRow.get? → e.isHardDelete s

/-- The stored rows with the buffered ones on top are the rows of a table with those of the events
on top, as far as no event deletes them for good. -/
structure Rests (s : TopicSettings) (base : StoredTable) (events : List RowEvent)
    (w? : Option Window) (t : StoredTable) : Prop where
  /-- The window fits the table. -/
  fits : Fits s (fun _ => True) w? t
  /-- A buffered row stays when it is merged. -/
  stays : ∀ key, Lasting s (ofKey events key) → erases s (onTop w? key) = false
  /-- The values are those of the table with those of the events on top. -/
  values : ∀ key, Lasting s (ofKey events key) → ∀ n,
    Json.Alike (Json.overlay (t.value? key n) (onTop w? key n))
      (Json.overlay (base.value? key n) (layered (ofKey events key) n))

namespace Rests

variable {base t : StoredTable} {events : List RowEvent}

theorem start (s : TopicSettings) (h : t.Sound) : Rests s t [] none t where
  fits := .of_sound s _ h
  stays := fun _ _ => rfl
  values := fun _ _ _ => .refl _

theorem saveStable (s : TopicSettings) (base : StoredTable) :
    SaveStable s (RowEvent.Honest s) (Rests s base) where
  keyed := fun h => h.fits.keyed _ rfl
  extend := by
    intro events w w' t h extends'
    have same : onTop (some w') = onTop (some w) := by
      funext key n
      rw [onTop_some, onTop_some, Window.value?, extends'.rows]
      rfl
    exact ⟨h.fits.extend extends', same ▸ h.stays, same ▸ h.values⟩
  lay := by
    intro events w? t e key w h honest hkey lays
    refine ⟨h.fits.lay lays honest.clear.typed fun n v _ hv => honest.clear.named_savedRow hv,
      fun k lasting => ?_, fun k lasting n => ?_⟩
    · by_cases same : k = key
      · subst same
        have onto : onTop (some w) k =
            fun n => Json.overlay (onTop w? k n) (e.savedRow.get? n) := by
          funext n
          rw [onTop_some, lays.value?, if_pos rfl]
          rfl
        rw [RowEvent.ofKey_append_self hkey] at lasting
        rw [onto]
        refine erases_overlay (h.stays k fun e' mem => lasting e' (List.mem_append_left _ mem)) ?_
        by_contra gone
        have hard := honest.deletes (by simpa using gone)
        rw [lasting e (by simp)] at hard
        cases hard
      · have onto : onTop (some w) k = onTop w? k := by
          funext n
          rw [onTop_some, lays.value?, if_neg same]
          rfl
        rw [RowEvent.ofKey_append_other hkey same] at lasting
        rw [onto]
        exact h.stays k lasting
    · rw [onTop_some, lays.value?]
      by_cases same : k = key
      · subst same
        rw [RowEvent.ofKey_append_self hkey] at lasting ⊢
        rw [if_pos rfl, RowEvent.layered_append, ← Json.overlay_assoc]
        exact (h.values k (fun e' mem => lasting e' (List.mem_append_left _ mem)) n).overlay_overlay
      · rw [RowEvent.ofKey_append_other hkey same] at lasting ⊢
        rw [if_neg same]
        exact h.values k lasting n

section Merging

variable {w : Window}

/-- A merge lays the buffered row over the stored one. -/
theorem value?_merge (h : Rests s base events (some w) t) {key : String}
    (lasting : Lasting s (ofKey events key)) (n : String) :
    Json.Alike ((t.merge (w.adopt t.columns)).value? key n)
      (Json.overlay (t.value? key n) (onTop (some w) key n)) := by
  have once := h.fits.value?_merge key (n := n) trivial
  have stays : erases s (w.value? key) = false := h.stays key lasting
  rwa [merged_of_stays stays] at once

theorem flushStable (s : TopicSettings) (base : StoredTable) (events : List RowEvent) :
    FlushStable s (Rests s base events) where
  keyed := fun h => h.fits.keyed _ rfl
  adopt := fun h => (saveStable s base).extend h h.fits.extends_adopt
  remerge := fun {w t} h => by
    refine ⟨h.fits.remerge, h.stays, fun key lasting n => ?_⟩
    have twice := (h.value?_merge lasting n).overlay (onTop (some w) key n)
    rw [Json.overlay_overlay_self] at twice
    exact twice.trans (h.values key lasting n)
  merge := fun {w t} h => by
    refine ⟨h.fits.merge, fun _ _ => rfl, fun key lasting n => ?_⟩
    rw [onTop_none, Json.overlay_none]
    exact (h.value?_merge lasting n).trans (h.values key lasting n)

end Merging

end Rests

/-! ## Runs -/

namespace RowEvent

/-- The row of an event in replication mode goes away only if the event deletes it for good. -/
theorem honest_of_ofChange {now : Instant} {key : Row} {c : Change} {e : RowEvent}
    (h : ofChange s .replication now key c = .ok e) (clear : e.Clear)
    (valid : e.validate = .ok ()) : e.Honest s := by
  refine ⟨clear, fun gone => ?_⟩
  obtain ⟨mark, hard⟩ := Bool.and_eq_true_iff.1 gone
  rw [isHardDelete, hard, Bool.and_true]
  exact ((isDeleted_savedRow h clear.apart valid).1 mark).1

end RowEvent

namespace Feed

variable {κ : Type} {table : String}

theorem rests_reaches [Source κ] {d : TrialStore}
    (sound : (d.store.table (.ofTopic s table)).Sound) {thresholds : Thresholds}
    {sources : SortedMap String κ} {retry : RetryPolicy} {f : Feed κ}
    (path : Reaches s table (start thresholds d sources retry) f) :
    f.Keeps s table (Rests s (d.store.table (.ofTopic s table))) := by
  induction path with
  | refl => exact Hosts.start thresholds (Rests.start s sound)
  | tail _ step ih =>
    cases step with
    | deliver s' mode now key c m fits =>
      refine ih.deliver (Rests.saveStable s _) (fun e made same => ?_) m
      obtain ⟨rfl, rfl, clear⟩ := fits e made same
      exact ⟨rfl, rfl, fun valid => RowEvent.honest_of_ofChange made clear valid⟩
    | plan failures tableFailures deniesCommits =>
      exact ih.plan failures tableFailures deniesCommits
    | flush order now => exact ih.flush (Rests.flushStable s _ _) order now

/-- With no row buffered, a row that is never deleted for good has the values that were stored at
first with those of its events on top. -/
theorem value?_of_rests {base : StoredTable} {f : Feed κ} (h : f.Keeps s table (Rests s base))
    (vacant : f.engine.registry.Vacant (s.tableId table)) {key : String}
    (lasting : Lasting s (f.history (s.tableId table) key)) (n : String) :
    Json.Alike ((f.stored s table).value? key n)
      (Json.overlay (base.value? key n) (layered (f.history (s.tableId table) key) n)) := by
  have rests := h.holds
  rw [vacant.content] at rests
  have values := rests.values key lasting n
  rwa [onTop_none, Json.overlay_none] at values

/-- Events up to `m` and events from `j` on are those that come once, those that come twice, and
those after them. -/
theorem exists_overlap (events : List RowEvent) {j m : Nat} (overlap : j ≤ m) :
    ∃ once twice rest, events = once ++ twice ++ rest ∧ events.take m = once ++ twice ∧
      events.drop j = twice ++ rest := by
  refine ⟨(events.take m).take j, (events.take m).drop j, events.drop m, ?_, ?_, ?_⟩
  · rw [List.take_append_drop, List.take_append_drop]
  · rw [List.take_append_drop]
  · have behind : events.drop m = (events.drop j).drop (m - j) := by
      rw [List.drop_drop, Nat.add_sub_cancel' overlap]
    rw [List.drop_take, behind, List.take_append_drop]

/-- A run ends with the same values, absent, null and the placeholder aside, whether or not its
buffers are lost once and events that were written before are taken in again, as far as rows are
never deleted for good.  And a window that is merged twice in a row is merged once. -/
theorem absorbs_redelivery [Source κ] {d : TrialStore}
    (sound : (d.store.table (.ofTopic s table)).Sound) {f g h : Feed κ}
    {thresholds thresholds₁ thresholds₂ : Thresholds}
    {sources sources₁ sources₂ : SortedMap String κ} {retry retry₁ retry₂ : RetryPolicy}
    (whole : Reaches s table (start thresholds d sources retry) f)
    (wholeFlushed : f.engine.registry.Vacant (s.tableId table))
    (before : Reaches s table (start thresholds₁ d sources₁ retry₁) g)
    (beforeFlushed : g.engine.registry.Vacant (s.tableId table))
    (after : Reaches s table (start thresholds₂ g.engine.destination sources₂ retry₂) h)
    (afterFlushed : h.engine.registry.Vacant (s.tableId table)) {j m : Nat} (overlap : j ≤ m)
    (first : g.eventsOf (s.tableId table) = (f.eventsOf (s.tableId table)).take m)
    (again : h.eventsOf (s.tableId table) = (f.eventsOf (s.tableId table)).drop j) :
    (∀ key, Lasting s (f.history (s.tableId table) key) → ∀ n,
      Json.Alike ((f.stored s table).value? key n) ((h.stored s table).value? key n)) ∧
    ∀ (store : Store) (w : Window) (p : TablePath),
      ((store.merge w).merge w).table p = (store.merge w).table p := by
  refine ⟨fun key lasting n => ?_, Store.table_merge_merge⟩
  have stored := (rests_reaches sound before).holds.fits
  have restart : (g.engine.destination.store.table (.ofTopic s table)).Sound :=
    ⟨stored.typed, fun key n v => stored.stored key n v trivial⟩
  obtain ⟨once, twice, rest, split, hm, hj⟩ :=
    exists_overlap (f.eventsOf (s.tableId table)) overlap
  have keyed : f.history (s.tableId table) key =
      ofKey once key ++ ofKey twice key ++ ofKey rest key := by
    rw [history, split, RowEvent.ofKey_append, RowEvent.ofKey_append]
  have keyed₁ : g.history (s.tableId table) key = ofKey once key ++ ofKey twice key := by
    rw [history, first, hm, RowEvent.ofKey_append]
  have keyed₂ : h.history (s.tableId table) key = ofKey twice key ++ ofKey rest key := by
    rw [history, again, hj, RowEvent.ofKey_append]
  have all := value?_of_rests (rests_reaches sound whole) wholeFlushed lasting n
  rw [keyed] at lasting all
  have lasting₁ : Lasting s (g.history (s.tableId table) key) := by
    rw [keyed₁]
    exact fun e mem => lasting e (List.mem_append_left _ mem)
  have lasting₂ : Lasting s (h.history (s.tableId table) key) := by
    rw [keyed₂]
    intro e mem
    refine lasting e ?_
    rw [List.append_assoc]
    exact List.mem_append_right _ mem
  have written := value?_of_rests (rests_reaches sound before) beforeFlushed lasting₁ n
  have ended := value?_of_rests (rests_reaches restart after) afterFlushed lasting₂ n
  rw [keyed₁] at written
  rw [keyed₂] at ended
  rw [← RowEvent.overlay_layered_again] at all
  exact all.trans (ended.trans written.overlay_overlay).symm

/-! ## A sample run -/

/-- An event that is made and can be saved is saved. -/
theorem saved_deliver {f : Feed κ} {s' : TopicSettings} {mode : Mode} {now : Instant} {key : Row}
    {c : Change} {e : RowEvent} (made : RowEvent.ofChange s' mode now key c = .ok e)
    (savable : e.Savable) (m : Message) :
    (f.deliver s' mode now key c m).saved = f.saved ++ [e] := by
  obtain ⟨reason, saves⟩ := (e.save_isOk_iff s' m f.engine.registry).2 savable
  simp only [deliver, made, save, saves]

/-- The event of a change of the sample row. -/
def sampleEvent (fields : List (String × Json)) : RowEvent where
  table := "people"
  tableId := sampleSettings.tableId "people"
  data := RowEvent.collectData sampleSettings .replication (sampleChange fields) sampleKey ⟨0⟩
  hints := none
  columns := none
  isDelete := (sampleChange fields).isDelete
  primaryKeys := ["id"]
  time := .ofMillis Sample.millis
  mode := .replication

theorem ofChange_sampleChange (fields : List (String × Json)) :
    RowEvent.ofChange sampleSettings .replication ⟨0⟩ sampleKey (sampleChange fields) =
      .ok (sampleEvent fields) := by
  have names : sampleSettings.keyNames sampleKey = ["id"] := by decide +kernel
  have sorted : TopicSettings.sortNames ["id"] = ["id"] := List.mergeSort_singleton "id"
  simp only [RowEvent.ofChange, names, sorted]
  rfl

theorem saved_sampleDeliver {fields : List (String × Json)} (savable : (sampleEvent fields).Savable)
    (f : Feed MessageQueue) : (f.sampleDeliver fields).saved = f.saved ++ [sampleEvent fields] :=
  saved_deliver (ofChange_sampleChange fields) savable _

/-- The changes of the sample row, in order. -/
def sampleFields : List (List (String × Json)) :=
  [[("name", .string "Ada")], [("name", .string Json.unavailable), ("age", .int 36)],
    [("age", .int 37)]]

/-- Changes of the sample row are taken in, one after the other, and all tables are flushed. -/
def sampleWindow (f : Feed MessageQueue) (changes : List (List (String × Json))) :
    Feed MessageQueue :=
  (changes.foldl sampleDeliver f).sampleFlush 0 false

theorem savable_sampleEvent : ∀ fields ∈ sampleFields, (sampleEvent fields).Savable := by
  have saves : ∀ fields ∈ sampleFields, ((sampleEvent fields).save sampleSettings
      (Sample.message "people" 0 .empty .empty) (.new .default)).2.isOk := by
    decide +kernel
  intro fields mem
  refine ((sampleEvent fields).save_isOk_iff sampleSettings
    (Sample.message "people" 0 .empty .empty) (.new .default)).1 ?_
  have ok := saves fields mem
  cases outcome : ((sampleEvent fields).save sampleSettings
      (Sample.message "people" 0 .empty .empty) (.new .default)).2 with
  | error f =>
    rw [outcome] at ok
    cases ok
  | ok reason => exact ⟨reason, rfl⟩

theorem saved_sampleWindow (f : Feed MessageQueue) {changes : List (List (String × Json))}
    (known : ∀ fields ∈ changes, fields ∈ sampleFields) :
    (f.sampleWindow changes).saved = f.saved ++ changes.map sampleEvent := by
  show (changes.foldl sampleDeliver f).saved = _
  induction changes generalizing f with
  | nil => simp
  | cons fields rest ih =>
    have savable := savable_sampleEvent fields (known fields List.mem_cons_self)
    rw [List.foldl_cons, ih _ fun fields mem => known fields (List.mem_cons_of_mem _ mem),
      saved_sampleDeliver savable, List.map_cons, List.append_assoc, List.singleton_append]

theorem reaches_sampleWindow (f : Feed MessageQueue) {changes : List (List (String × Json))}
    (known : ∀ fields ∈ changes, fields ∈ sampleFields) :
    Reaches sampleSettings "people" f (f.sampleWindow changes) := by
  have clear : ∀ fields ∈ sampleFields,
      ((RowEvent.collectData sampleSettings .replication (sampleChange fields) sampleKey
          ⟨0⟩).keys.map ColumnName.normalize).Nodup ∧
        "" ∉ (RowEvent.collectData sampleSettings .replication (sampleChange fields) sampleKey
          ⟨0⟩).keys.map ColumnName.normalize := by
    decide +kernel
  have fed : Reaches sampleSettings "people" f (changes.foldl sampleDeliver f) := by
    induction changes generalizing f with
    | nil => exact .refl
    | cons fields rest ih =>
      obtain ⟨distinct, named⟩ := clear fields (known fields List.mem_cons_self)
      exact (reaches_sampleDeliver f distinct named).trans
        (ih _ fun fields mem => known fields (List.mem_cons_of_mem _ mem))
  exact fed.trans (reaches_sampleFlush _ 0 false)

theorem eventsOf_of_saved {f : Feed MessageQueue} {changes : List (List (String × Json))}
    (h : f.saved = changes.map sampleEvent) :
    f.eventsOf (sampleSettings.tableId "people") = changes.map sampleEvent := by
  rw [eventsOf, h, List.filter_eq_self]
  intro e mem
  obtain ⟨fields, -, rfl⟩ := List.mem_map.1 mem
  exact decide_eq_true rfl

/-- A run before its first step, over a store that a run has left. -/
def sampleRestart (f : Feed MessageQueue) : Feed MessageQueue :=
  start ⟨10, 100⟩ f.engine.destination sampleStart.engine.sources sampleStart.engine.retry

/-- Two of three changes are written before the buffers are lost, and then the last two are taken
in. -/
theorem absorbs_redelivery_sampleFields :
    let f := sampleStart.sampleWindow sampleFields
    let g := sampleStart.sampleWindow (sampleFields.take 2)
    let h := (sampleRestart g).sampleWindow (sampleFields.drop 1)
    (g.engine.destination.store.merges = 1 ∧ h.engine.destination.store.merges = 2) ∧
      ((∀ key, Lasting sampleSettings (f.history (sampleSettings.tableId "people") key) → ∀ n,
        Json.Alike ((f.stored sampleSettings "people").value? key n)
          ((h.stored sampleSettings "people").value? key n)) ∧
      ∀ (store : Store) (w : Window) (p : TablePath),
        ((store.merge w).merge w).table p = (store.merge w).table p) := by
  intro f g h
  have known₁ : ∀ fields ∈ sampleFields.take 2, fields ∈ sampleFields :=
    fun _ => List.mem_of_mem_take
  have known₂ : ∀ fields ∈ sampleFields.drop 1, fields ∈ sampleFields :=
    fun _ => List.mem_of_mem_drop
  have all := eventsOf_of_saved (saved_sampleWindow sampleStart fun _ mem => mem)
  have some₁ := eventsOf_of_saved (saved_sampleWindow sampleStart known₁)
  have some₂ := eventsOf_of_saved (saved_sampleWindow (sampleRestart g) known₂)
  refine ⟨by decide +kernel, ?_⟩
  refine absorbs_redelivery (d := .new (.new 1000)) (m := 2) (j := 1) StoredTable.sound_empty
    (reaches_sampleWindow sampleStart fun _ mem => mem) (by decide +kernel)
    (reaches_sampleWindow sampleStart known₁) (by decide +kernel)
    (reaches_sampleWindow (sampleRestart g) known₂) (by decide +kernel) (by decide) ?_ ?_
  · rw [some₁, all, List.map_take]
  · rw [some₂, all, List.map_drop]

end Feed

end ChangeCapture
