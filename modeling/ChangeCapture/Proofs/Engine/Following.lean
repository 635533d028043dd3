import ChangeCapture.Proofs.Engine.Hosting

/-!
# Buffers and store behind the events

An engine over a store keeps the stored table, with what is buffered for it on
top, behind the events that were saved (`Follows`).
-/

namespace ChangeCapture

/-- An event of a table that follows its events: its columns are clear, and its row is marked as
the event is. -/
structure RowEvent.Marked (e : RowEvent) : Prop where
  /-- The columns are clear. -/
  clear : e.Clear
  /-- The row is marked. -/
  marked : e.savedRow.get? SystemColumn.deleted = some (.bool e.isDelete)

namespace Tracks

variable {s : TopicSettings}

theorem saveStable (s : TopicSettings) :
    SaveStable s RowEvent.Marked fun events w? t => Tracks s w? t events where
  keyed := fun h => h.keyed _ rfl
  extend := fun h extends' =>
    h.regrow extends'.settings extends'.mode extends'.rows extends'.grows
  lay := by
    intro events w? t e key w h marked hkey lays
    refine h.save marked.clear marked.marked hkey lays.keyed ?_ lays.rows
    have old : ∀ k n v, (buffered w? k).bind (·.get? n) = some v →
        Unicode.lowercase n = n ∧ n ≠ "" ∧ w.columns.Admits n v := by
      intro k n v hv
      cases hw : w? with
      | none =>
        rw [hw] at hv
        cases hv
      | some w' =>
        rw [hw] at hv
        obtain ⟨lower, named, admits⟩ := h.window w' hw k n v hv
        exact ⟨lower, named, admits.mono (lays.keeps w' hw)⟩
    intro k n v hv
    rw [lays.value?] at hv
    split at hv
    · rcases Json.mem_overlay hv with hv | hv
      · exact old k n v hv
      · have named := marked.clear.named_savedRow hv
        obtain ⟨lower, admits⟩ := lays.admits marked.clear.typed n v named hv
        exact ⟨lower, named, admits⟩
    · exact old k n v hv

theorem flushStable (s : TopicSettings) (events : List RowEvent) :
    FlushStable s fun w? t => Tracks s w? t events where
  keyed := fun h => h.keyed _ rfl
  adopt := adopt
  remerge := remerge
  merge := merge

end Tracks

/-! ## The store and the buffers -/

/-- The stored table with what is buffered for it on top follows the events that were saved, and
every window stands at the place of its table. -/
structure Follows (s : TopicSettings) (table : String) (r : TableRegistry) (d : TrialStore)
    (events : List RowEvent) : Prop where
  /-- Every buffer stands under the name of its table. -/
  named : r.Named
  /-- Every window stands at the place of its table. -/
  placed : ∀ t b w, r.Holds t b w → w.path.schema = t.schema ∧ w.path.name = t.name
  /-- Once the table has a buffer it is listed under its topic. -/
  listed : ∀ b, r.get? (s.tableId table) = some b → s.tableId table ∈ r.tablesOf s.topic
  /-- The table follows the events. -/
  tracks : Tracks s (r.content (s.tableId table)) (d.store.table (.ofTopic s table)) events

theorem follows_iff_hosts {s : TopicSettings} {table : String} {r : TableRegistry} {d : TrialStore}
    {events : List RowEvent} :
    Follows s table r d events ↔ Hosts s table (fun w? t => Tracks s w? t events) r d :=
  ⟨fun h => ⟨h.named, h.placed, h.listed, h.tracks⟩,
    fun h => ⟨h.named, h.placed, h.listed, h.holds⟩⟩

end ChangeCapture
