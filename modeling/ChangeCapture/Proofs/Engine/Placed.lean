import ChangeCapture.Proofs.Engine.Gathered
import ChangeCapture.Proofs.Engine.Topics

/-!
# Where rows go

A destination that keeps a journal (`Journal`) tells which windows it was asked
to write.  In all runs over the topics of an accepted source each of them goes
to the table that the topics of its rows name, and deletes rows as they say,
just when the topics that fill one buffered table agree on their database and
on how they delete (`SourceSettings.placesRows_iff`).  Accepted settings need
not agree (`Run.misplaces_rows`): the settings of a window are those of the
topic whose row was the first in it.
-/

namespace ChangeCapture

variable {δ : Type} [Destination δ]

/-! ## Destinations that keep a journal -/

/-- A destination with the windows that it was asked to write, in order. -/
structure Journal (δ : Type) where
  /-- The destination. -/
  destination : δ
  /-- The windows that it was asked to write, whether or not the writes failed. -/
  asked : List Window

namespace Journal

instance : Destination (Journal δ) where
  describe j p :=
    ((Destination.describe j.destination p).1,
      ⟨(Destination.describe j.destination p).2, j.asked⟩)
  merge j w :=
    ((Destination.merge j.destination w).1,
      ⟨(Destination.merge j.destination w).2, j.asked ++ [w]⟩)
  append j w :=
    ((Destination.append j.destination w).1,
      ⟨(Destination.append j.destination w).2, j.asked ++ [w]⟩)

theorem asked_write {j j' : Journal δ} {w : Window} {outcome : Outcome Bool}
    (h : Destination.write j w = (outcome, j')) : j'.asked = j.asked ++ [w] := by
  unfold Destination.write at h
  split at h
  · injection h with h1 h2
    rw [← h2]
  · injection h with h1 h2
    rw [← h2]

/-- Between two writes of a window nothing is asked for but the window. -/
theorem asked_probes {j j' : Journal δ} {w : Window} (h : Destination.Probes w j j') :
    ∃ more, j'.asked = j.asked ++ more ∧
      ∀ v ∈ more, ∃ columns, v = { w with columns := columns } := by
  induction h with
  | refl => exact ⟨[], (List.append_nil _).symm, List.forall_mem_nil _⟩
  | tail _ step ih =>
    obtain ⟨more, before, own⟩ := ih
    cases step with
    | describe p => exact ⟨more, before, own⟩
    | @fail _ known f fails =>
      refine ⟨more ++ [w.adopt known], ?_, fun v mem => ?_⟩
      · rw [asked_write fails, before, List.append_assoc]
      · rcases List.mem_append.1 mem with mem | mem
        · exact own v mem
        · exact ⟨_, List.mem_singleton.1 mem⟩

end Journal

/-! ## The windows that a flush hands over -/

/-- The windows with rows of a registry are handed over, perhaps with other columns. -/
def TableRegistry.Hands (r : TableRegistry) (ws : List Window) : Prop :=
  ∀ v ∈ ws, ∃ t w columns, r.content t = some w ∧ v = { w with columns := columns }

namespace TableRegistry.Hands

variable {r r' : TableRegistry} {ws ws' : List Window}

theorem append (h : r.Hands ws) (h' : r.Hands ws') : r.Hands (ws ++ ws') := by
  intro v mem
  rcases List.mem_append.1 mem with mem | mem
  · exact h v mem
  · exact h' v mem

theorem descends (h : r'.Hands ws) (descends : r.Descends r') : r.Hands ws := by
  intro v mem
  obtain ⟨t, w, columns, hw, rfl⟩ := h v mem
  obtain ⟨w₀, columns₀, hw₀, rfl⟩ := descends t w hw
  exact ⟨t, w₀, columns, hw₀, rfl⟩

end TableRegistry.Hands

namespace Engine

variable {e e' : Engine (Ledger (Journal δ)) MessageQueue}

/-- The windows that the destination was asked to write. -/
def asked (e : Engine (Ledger (Journal δ)) MessageQueue) : List Window :=
  e.destination.destination.asked

/-- The flush of a table hands over its window, or none. -/
theorem TableStep.hands {t : TableId} {cooldown : Option Nat} {now : Nat}
    {outcome : Outcome TableFlush} (h : TableStep e t cooldown now e' outcome) :
    ∃ more, e'.asked = e.asked ++ more ∧ e.registry.Hands more := by
  have probed : ∀ {b w l}, e.registry.Holds t b w → Destination.Probes w e.destination l →
      ∃ more, l.destination.asked = e.asked ++ more ∧ e.registry.Hands more := by
    intro b w l holds probes
    obtain ⟨more, asked, own⟩ := Journal.asked_probes (Ledger.probes_destination probes)
    refine ⟨more, asked, fun v mem => ?_⟩
    obtain ⟨columns, same⟩ := own v mem
    exact ⟨t, w, columns, holds.content, same⟩
  have wrote : ∀ {b w l l' known outcome}, e.registry.Holds t b w →
      Destination.Tells e.destination w known l →
      Destination.write l (w.adopt known) = (outcome, l') →
      ∃ more, l'.destination.asked = e.asked ++ more ∧ e.registry.Hands more := by
    intro b w l l' known outcome holds tells write
    obtain ⟨more, before, own⟩ := probed holds tells.probes
    refine ⟨more ++ [w.adopt known], ?_, fun v mem => ?_⟩
    · rw [Journal.asked_write (Ledger.write_destination write), before, List.append_assoc]
    · rcases List.mem_append.1 mem with mem | mem
      · exact own v mem
      · exact ⟨t, w, _, holds.content, List.mem_singleton.1 mem⟩
  have none : ∃ more, e.asked = e.asked ++ more ∧ e.registry.Hands more :=
    ⟨[], (List.append_nil _).symm, List.forall_mem_nil _⟩
  cases h with
  | nothing _ => exact none
  | cooled _ _ _ => exact none
  | unknown holds probes _ => exact probed holds probes
  | failed holds tells _ => exact probed holds tells.probes
  | denied holds tells write => exact wrote holds tells write
  | written holds tells write _ => exact wrote holds tells write

/-- A flush hands over windows that had rows before it. -/
theorem hands_flush {e : Engine (Ledger (Journal δ)) MessageQueue} (named : e.registry.Named)
    (order : FlushOrder) (now : Nat) :
    ∃ more, (e.flush order now).state.asked = e.asked ++ more ∧ e.registry.Hands more := by
  have kept := flush_induct
    (P := fun e' : Engine (Ledger (Journal δ)) MessageQueue =>
      e'.registry.Named ∧ e.registry.Descends e'.registry ∧
        ∃ more, e'.asked = e.asked ++ more ∧ e.registry.Hands more) now
    (fun {e' e'' t cooldown outcome} step kept => ?_)
    (fun {e' topic source} _ outcomes kept => ?_) e order
    ⟨named, .refl _, [], (List.append_nil _).symm, List.forall_mem_nil _⟩
  · exact kept.2.2
  · obtain ⟨named, descends, more, asked, hands⟩ := kept
    obtain ⟨more', asked', hands'⟩ := step.hands
    refine ⟨step.named named, descends.trans (step.descends named), more ++ more', ?_, ?_⟩
    · rw [asked', asked, List.append_assoc]
    · exact hands.append (hands'.descends descends)
  · obtain ⟨registry, destination⟩ := settle_keeps e' topic source outcomes
    unfold asked
    rwa [registry, destination]

end Engine

/-! ## Windows in their places -/

namespace Run

/-- The windows that the destination was asked to write. -/
def asked (r : Run (Journal δ)) : List Window := r.engine.asked

/-- The window has the rows that wait for its table, and it goes where the topics of these rows
say. -/
structure Places (topics : List TopicSettings) (r : Run δ) (w : Window) : Prop where
  /-- The window has the rows that wait, and no others. -/
  gathers : w.Gathers (r.waiting w.tableId)
  /-- It goes to the table that the topic of each row names. -/
  path : ∀ s ∈ r.waiting w.tableId, ∀ c ∈ topics, c.topic = s.topic →
    w.path = .ofTopic c s.event.table
  /-- It deletes rows as the topic of each row says. -/
  deletes : ∀ s ∈ r.waiting w.tableId, ∀ c ∈ topics, c.topic = s.topic →
    w.settings.softDelete = c.softDelete

/-- Every window that the next flush hands over is in its place. -/
def PlacesRows (topics : List TopicSettings) (r : Run (Journal δ)) : Prop :=
  ∀ order now, ∀ w ∈ (r.flush order now).asked.drop r.asked.length, r.Places topics w

theorem PlacesRows.database {topics : List TopicSettings} {r : Run (Journal δ)}
    (h : r.PlacesRows topics) {order : FlushOrder} {now : Nat} {t : TableId} {p : TablePath}
    (handed : (t, p) ∈ ((r.flush order now).asked.drop r.asked.length).map fun w =>
      (w.tableId, w.path)) {c : TopicSettings} (mem : c ∈ topics)
    (waits : c.topic ∈ (r.waiting t).map Saved.topic) : p.database = c.database := by
  obtain ⟨w, hw, same⟩ := List.mem_map.1 handed
  obtain ⟨rfl, rfl⟩ := Prod.mk.inj same
  obtain ⟨s, hs, topic⟩ := List.mem_map.1 waits
  rw [(h order now w hw).path s hs c mem topic.symm]
  rfl

end Run

namespace SourceSettings

/-- In all runs every window that is handed over is in its place. -/
def PlacesRows (source : SourceSettings) (mode : Mode) : Prop :=
  ∀ (δ : Type) [Destination δ] (thresholds : Thresholds) (destination : δ)
    (sources : SortedMap String MessageQueue) (retry : RetryPolicy) (r : Run (Journal δ)),
    Run.Works source.topics mode (.start thresholds ⟨destination, []⟩ sources retry) r →
      r.PlacesRows source.topics

/-- Topics that fill one table agree on the database and on how rows are deleted. -/
def AgreesOnTables (source : SourceSettings) (mode : Mode) : Prop :=
  ∀ s ∈ source.topics, ∀ s' ∈ source.topics, ∀ t, s.Fills mode t → s'.Fills mode t →
    s.database = s'.database ∧ s.softDelete = s'.softDelete

end SourceSettings

namespace Run

variable {topics : List TopicSettings} {mode : Mode}

/-! ## The settings of windows -/

/-- The settings of a window are those of a topic that fills its table. -/
def OwnsWindows (topics : List TopicSettings) (mode : Mode) (r : TableRegistry) : Prop :=
  ∀ t w, r.content t = some w →
    w.settings ∈ topics ∧ w.settings.Fills mode t ∧ w.name = t.name

theorem OwnsWindows.descends {r r' : TableRegistry} (h : OwnsWindows topics mode r)
    (descends : r.Descends r') : OwnsWindows topics mode r' := by
  intro t v hv
  obtain ⟨w, columns, hw, rfl⟩ := descends t v hv
  exact h t w hw

/-- A window that a row of the topic is saved into has settings of its own, or it is new. -/
theorem OwnsWindows.stored {r : TableRegistry} (h : OwnsWindows topics mode r)
    {s : TopicSettings} (mem : s ∈ topics) {event : RowEvent} (fills : s.Fills mode event.tableId)
    (name : event.tableId.name = event.table) (m : Message) (key : String) :
    OwnsWindows topics mode (r.putWindow event.tableId s.topic (event.stored s m r key)) := by
  intro t v hv
  rw [TableRegistry.content_stored] at hv
  split at hv
  · rename_i same
    subst same
    obtain rfl := Option.some.inj hv
    obtain ⟨settings, -, path, -⟩ := event.stored_frame s m r key
    have path : (event.stored s m r key).name = (event.opened s r).name :=
      congrArg TablePath.name path
    rw [settings, path]
    rcases event.opened_cases s r with ⟨-, fresh⟩ | ⟨b, w, holds, old⟩
    · rw [fresh]
      exact ⟨mem, fills, name.symm⟩
    · rw [old]
      exact h event.tableId w holds.content
  · exact h t v hv

/-- What tells where rows go.  Rows and windows are known with the topics that fill their tables. -/
structure Sourced (topics : List TopicSettings) (mode : Mode) (r : Run δ) : Prop where
  /-- The windows gather the rows that wait. -/
  gathers : r.GathersRows
  /-- A saved row is of a topic that fills its table. -/
  saved : ∀ s ∈ r.saved, ∃ c ∈ topics, c.topic = s.topic ∧ c.Fills mode s.event.tableId ∧
    s.event.tableId.name = s.event.table
  /-- The settings of a window are those of a topic that fills its table. -/
  owns : OwnsWindows topics mode r.engine.registry

namespace Sourced

variable {r : Run δ}

omit [Destination δ] in
theorem start (topics : List TopicSettings) (mode : Mode) (thresholds : Thresholds)
    (destination : δ) (sources : SortedMap String MessageQueue) (retry : RetryPolicy) :
    (Run.start thresholds destination sources retry).Sourced topics mode := by
  refine ⟨gathersRows_start thresholds destination sources retry, List.forall_mem_nil _, ?_⟩
  intro t w hw
  cases hw

omit [Destination δ] in
theorem push (h : r.Sourced topics mode) (t : String) (partition : Int)
    (key value : Option ByteArray) : (r.push t partition key value).Sourced topics mode :=
  ⟨h.gathers.push t partition key value, h.saved, h.owns⟩

omit [Destination δ] in
theorem process (h : r.Sourced topics mode) {s : TopicSettings} (mem : s ∈ topics)
    (now : Instant) : (r.process s mode now).Sourced topics mode := by
  cases hm : r.next? s.topic with
  | none => rwa [process_of_none hm]
  | some m =>
    obtain ⟨q, q', more, -, -, step, saved⟩ := process_of_message hm mode now
    refine ⟨h.gathers.process s mode now, ?_, ?_⟩
    · rw [saved]
      intro x hx
      rcases List.mem_append.1 hx with hx | hx
      · exact h.saved x hx
      · obtain ⟨shaped, -, topic, -⟩ := step.of_mem hx
        have table := (RowEvent.tableId_ofMessage shaped).1
        exact ⟨s, mem, topic.symm, step.fills hx, by rw [table]⟩
    · have owns : OwnsWindows topics mode (advanced r.engine s.topic q').registry := h.owns
      revert step
      generalize (r.process s mode now).engine = e'
      intro step
      cases step with
      | skipped => exact owns
      | @refused event =>
        exact owns.descends (r.engine.registry.recolumns_opened event s s.topic).descends
      | @saved event shaped key hkey savable =>
        have table := (RowEvent.tableId_ofMessage shaped).1
        have fills : s.Fills mode event.tableId := ⟨m, now, event, shaped, rfl, savable⟩
        exact owns.stored mem fills (by rw [table]) m key

theorem flush (h : r.Sourced topics mode) (order : FlushOrder) (now : Nat) :
    (r.flush order now).Sourced topics mode :=
  ⟨h.gathers.flush order now, h.saved,
    h.owns.descends (Engine.descends_flush h.gathers.named order now)⟩

theorem works {r' : Run δ} (h : r.Sourced topics mode) (path : Works topics mode r r') :
    r'.Sourced topics mode := by
  induction path with
  | refl => exact h
  | tail _ step ih =>
    cases step with
    | push t partition key value => exact ih.push t partition key value
    | process mem now => exact ih.process mem now
    | flush order now => exact ih.flush order now

/-- If the topics of a table agree, every window that is handed over is in its place. -/
theorem placesRows {source : SourceSettings} (accepted : source.validate = .ok ())
    (agrees : source.AgreesOnTables mode) {r : Run (Journal δ)}
    (h : r.Sourced source.topics mode) : r.PlacesRows source.topics := by
  intro order now v mem
  obtain ⟨more, asked, hands⟩ := Engine.hands_flush h.gathers.named order now
  have mem : v ∈ more := by
    have asked : (r.flush order now).asked = r.asked ++ more := asked
    rwa [asked, List.drop_left] at mem
  obtain ⟨t, w, columns, hw, rfl⟩ := hands v mem
  obtain ⟨table, gathers⟩ := h.gathers.buffered t w hw
  obtain ⟨own, fills, name⟩ := h.owns t w hw
  have agree : ∀ s ∈ r.waiting w.tableId, ∀ c ∈ source.topics, c.topic = s.topic →
      w.path = .ofTopic c s.event.table ∧ w.settings.softDelete = c.softDelete := by
    intro s waits c mem' topic
    rw [table] at waits
    obtain ⟨saved, here, -⟩ := Saved.mem_waiting.1 waits
    obtain ⟨c', mem'', topic', fills', name'⟩ := h.saved s saved
    obtain rfl := SourceSettings.topics_distinct accepted mem'' mem' (topic'.trans topic.symm)
    rw [here] at fills' name'
    obtain ⟨database, deletes⟩ := agrees w.settings own c' mem'' t fills fills'
    refine ⟨?_, deletes⟩
    rw [Window.path, TablePath.ofTopic, TablePath.ofTopic, database,
      fills.schema.symm.trans fills'.schema, name, name']
  refine ⟨?_, fun s waits c mem' topic => (agree s waits c mem' topic).1,
    fun s waits c mem' topic => (agree s waits c mem' topic).2⟩
  rw [← table] at gathers
  exact gathers.congr rfl rfl rfl

end Sourced

end Run

/-! ## Topics that do not agree -/

/-- A destination that takes every window. -/
structure Sink where

instance : Destination Sink where
  describe d _ := (.ok ⟨.empty, true⟩, d)
  merge d _ := (.ok true, d)
  append d _ := (.ok (), d)

namespace Sink

theorem write_eq (l : Ledger (Journal Sink)) (w : Window) :
    Destination.write l w =
      (.ok true, ⟨⟨l.destination.destination, l.destination.asked ++ [w]⟩, l.accepted ++ [w]⟩) := by
  unfold Destination.write
  cases w.mode <;> rfl

end Sink

namespace Engine

variable {e : Engine (Ledger (Journal Sink)) MessageQueue}

theorem asked_flushTable {t : TableId} {b : TableBuffer} {w : Window} (h : e.registry.Holds t b w)
    (now : Nat) :
    ∃ columns, (e.flushTable t none now).state.asked =
      e.asked ++ [{ w with columns := columns }] := by
  have start : b.startFlush none now = .write w := by
    simp [TableBuffer.startFlush, h.window, h.filled]
  have described : e.retry.run (fun _ d => Destination.describe d w.path) e.destination =
      ⟨.ok ⟨.empty, true⟩, e.destination, 1, 0⟩ :=
    e.retry.run_of_ok rfl
  have written : e.retry.run (fun _ d => Destination.write d (w.adopt .empty)) e.destination =
      ⟨.ok true, _, 1, 0⟩ :=
    e.retry.run_of_ok (Sink.write_eq e.destination (w.adopt .empty))
  refine ⟨w.columns.adopt .empty, ?_⟩
  simp only [flushTable, h.buffer, start, writeWindow, described, written]
  rfl

variable {κ : Type} [Source κ]

/-- A flush of a topic with one table is the flush of that table. -/
theorem destination_flush {e : Engine δ κ} {topic : String} {t : TableId}
    (fed : e.sources.contains topic) (lists : e.registry.tablesOf topic = [t])
    (reason : FlushReason) (now : Nat) :
    (e.flush (.immediate topic reason) now).state.destination =
      (e.flushTable t none now).state.destination := by
  have selected : e.selection (.immediate topic reason) = .ok [(topic, [t])] := by
    simp only [selection, FlushOrder.immediate, fed, if_true, lists]
  obtain ⟨source, hs⟩ := Option.isSome_iff_exists.1 fed
  have state : (e.flush (.immediate topic reason) now).state =
      (e.flushTopic topic [t] none now).state := by
    simp only [flush, selected]
    rfl
  rw [state, flushTopic_state hs, (settle_keeps _ _ _ _).2]
  rfl

/-- A flush of a topic with one table hands over the window of that table. -/
theorem asked_flush {topic : String} {t : TableId} {b : TableBuffer} {w : Window}
    (h : e.registry.Holds t b w) (fed : e.sources.contains topic)
    (lists : e.registry.tablesOf topic = [t]) (reason : FlushReason) (now : Nat) :
    ∃ columns, (e.flush (.immediate topic reason) now).state.asked =
      e.asked ++ [{ w with columns := columns }] := by
  obtain ⟨columns, asked⟩ := asked_flushTable h now
  refine ⟨columns, Eq.trans ?_ asked⟩
  exact congrArg (fun l : Ledger (Journal Sink) => l.destination.asked)
    (destination_flush fed lists reason now)

end Engine

namespace Run

/-- If two topics fill one table, there is a run in which a window is handed over in which rows of
both wait: each takes in one message, and then the first one is flushed. -/
theorem exists_mixed {topics : List TopicSettings} {mode : Mode} {s s' : TopicSettings}
    (mem : s ∈ topics) (mem' : s' ∈ topics) (ne : s.topic ≠ s'.topic) {t : TableId}
    (fills : s.Fills mode t) (fills' : s'.Fills mode t) (thresholds : Thresholds)
    (retry : RetryPolicy) :
    ∃ r, Works topics mode (start thresholds ⟨Sink.mk, []⟩ (twoQueues s s') retry) r ∧
      ∃ order now, ∃ w ∈ (r.flush order now).asked.drop r.asked.length,
        (∃ x ∈ r.waiting w.tableId, x.topic = s.topic) ∧
          ∃ x ∈ r.waiting w.tableId, x.topic = s'.topic := by
  obtain ⟨r₁, works₁, first, x₁, saved₁, topic₁, table₁⟩ := exists_delivers_saved mem fills
    (queue_first ne thresholds (⟨Sink.mk, []⟩ : Journal Sink) retry) rfl
  have source : r₁.queue? s'.topic = some (.new s'.topic .latestPerPartition) :=
    (first.others s'.topic ne.symm).trans (queue_second thresholds _ retry)
  obtain ⟨r₂, works₂, second, x₂, saved₂, topic₂, table₂⟩ :=
    exists_delivers_saved mem' fills' source rfl
  have works := works₁.trans works₂
  have sourced := (Sourced.start topics mode thresholds _ _ retry).works works
  have accepted : r₂.accepted = [] := by
    unfold Run.accepted
    rw [second.frame.1, first.frame.1]
    rfl
  have waits : ∀ x ∈ r₂.saved, x.event.tableId = t → x ∈ r₂.waiting t := by
    intro x saved table
    refine Saved.mem_waiting.2 ⟨saved, table, ?_⟩
    rw [accepted, List.drop_nil]
    exact List.forall_mem_nil _
  have wait₁ := waits x₁ (second.saved.subset saved₁) table₁
  have wait₂ := waits x₂ saved₂ table₂
  obtain ⟨w, content⟩ := sourced.gathers.content_of_mem wait₁
  obtain ⟨b, holds⟩ := TableRegistry.content_eq_some_iff.1 content
  have table : w.tableId = t := (sourced.gathers.buffered t w content).1
  have lists : r₂.engine.registry.tablesOf s.topic = [t] :=
    (tablesOf_of_delivers first second rfl s.topic).trans (if_pos rfl)
  obtain ⟨q, source', -⟩ := first.source _ (queue_first ne thresholds _ retry)
  have fed : r₂.engine.sources.contains s.topic :=
    Option.isSome_iff_exists.2 ⟨q, (second.others s.topic ne).trans source'⟩
  obtain ⟨columns, asked⟩ := Engine.asked_flush holds fed lists .rows 0
  have handed : (r₂.flush (.immediate s.topic .rows) 0).asked =
      r₂.asked ++ [{ w with columns := columns }] := asked
  refine ⟨r₂, works, .immediate s.topic .rows, 0, { w with columns := columns }, ?_, ?_, ?_⟩
  · rw [handed, List.drop_left]
    exact List.mem_singleton_self _
  · exact ⟨x₁, table ▸ wait₁, topic₁⟩
  · exact ⟨x₂, table ▸ wait₂, topic₂⟩

end Run

namespace SourceSettings

/-- The rows of an accepted source go where their topics say in all runs just when the topics that
fill one table agree on the database and on how rows are deleted. -/
theorem placesRows_iff {source : SourceSettings} (accepted : source.validate = .ok ())
    (mode : Mode) : source.PlacesRows mode ↔ source.AgreesOnTables mode := by
  constructor
  · intro places s mem s' mem' t fills fills'
    by_cases same : s.topic = s'.topic
    · obtain rfl := topics_distinct accepted mem mem' same
      exact ⟨rfl, rfl⟩
    · obtain ⟨r, works, order, now, w, handed, ⟨x, waits, topic⟩, x', waits', topic'⟩ :=
        Run.exists_mixed mem mem' same fills fills' ⟨0, 0⟩ .flush
      have placed := places Sink ⟨0, 0⟩ ⟨⟩ _ .flush r works order now w handed
      have path := (placed.path x waits s mem topic.symm).symm.trans
        (placed.path x' waits' s' mem' topic'.symm)
      have deletes := (placed.deletes x waits s mem topic.symm).symm.trans
        (placed.deletes x' waits' s' mem' topic'.symm)
      exact ⟨congrArg TablePath.database path, deletes⟩
  · intro agrees δ _ thresholds destination sources retry r works
    have start := Run.Sourced.start source.topics mode thresholds
      (⟨destination, []⟩ : Journal δ) sources retry
    exact (start.works works).placesRows accepted agrees

theorem placesRows_iff_sampleShared :
    Run.sampleShared.validate = .ok () ∧ Run.sampleShared.PlacesRows .replication := by
  have accepted : Run.sampleShared.validate = .ok () := by decide
  refine ⟨accepted, (placesRows_iff accepted .replication).2 ?_⟩
  have agree : ∀ s ∈ Run.sampleShared.topics, ∀ s' ∈ Run.sampleShared.topics,
      s.database = s'.database ∧ s.softDelete = s'.softDelete := by
    decide
  exact fun s mem s' mem' t _ _ => agree s mem s' mem'

end SourceSettings

namespace Run

/-- A topic with a database of its own. -/
def sampleForeign : TopicSettings := .new "crm" "public" "online"

/-- Two topics with one buffered table and two databases. -/
def sampleDivided : SourceSettings := .memory [sampleRetail, sampleForeign]

/-- A run over both topics before its first step. -/
def sampleUntold : Run (Journal TrialStore) :=
  sampleBefore ⟨sampleStore, []⟩ sampleRetail sampleForeign

/-- A row of each topic is saved. -/
def sampleTogether : Run (Journal TrialStore) :=
  (sampleUntold.sampleDeliver sampleRetail "1").sampleDeliver sampleForeign "2"

theorem works_sampleTogether :
    Works sampleDivided.topics .replication sampleUntold sampleTogether := by
  have retail : sampleRetail ∈ sampleDivided.topics := List.mem_cons_self
  have foreign : sampleForeign ∈ sampleDivided.topics :=
    List.mem_cons_of_mem _ (List.mem_singleton_self _)
  exact (works_sampleDeliver _ retail "1").trans (works_sampleDeliver _ foreign "2")

/-- All tables are flushed. -/
def sampleMisplaced : Run (Journal TrialStore) := sampleTogether.flush .shutdown 0

/-- The tables of the store with the keys of their rows. -/
def storedKeys (r : Run (Journal TrialStore)) : List (TablePath × List String) :=
  r.engine.destination.destination.destination.store.tables.toList.map fun t => (t.1, t.2.rows.keys)

theorem sampleMisplaced_store :
    (sampleTogether.waiting ⟨"public", "orders"⟩).map Saved.topic = ["retail", "online"] ∧
      ((sampleMisplaced.asked.drop sampleTogether.asked.length).map fun w =>
        (w.tableId, w.path)) = [(⟨"public", "orders"⟩, ⟨"shop", "public", "orders"⟩)] ∧
      sampleMisplaced.storedKeys = [(⟨"shop", "public", "orders"⟩, ["id=1", "id=2"])] := by
  decide +kernel

/-- The row of a topic is written to the database of the topic whose row was saved before it. -/
theorem misplaces_rows :
    sampleDivided.validate = .ok () ∧
      Works sampleDivided.topics .replication sampleUntold sampleTogether ∧
      (sampleTogether.waiting ⟨"public", "orders"⟩).map Saved.topic = ["retail", "online"] ∧
      sampleForeign.database = "crm" ∧
      sampleMisplaced.storedKeys = [(⟨"shop", "public", "orders"⟩, ["id=1", "id=2"])] ∧
      ¬ sampleDivided.PlacesRows .replication := by
  obtain ⟨waits, handed, stored⟩ := sampleMisplaced_store
  refine ⟨by decide, works_sampleTogether, waits, rfl, stored, fun places => ?_⟩
  have places := places TrialStore ⟨10, 100⟩ sampleStore (twoQueues sampleRetail sampleForeign) _
    sampleTogether works_sampleTogether
  have foreign : sampleForeign ∈ sampleDivided.topics :=
    List.mem_cons_of_mem _ (List.mem_singleton_self _)
  have waiting : sampleForeign.topic ∈
      (sampleTogether.waiting ⟨"public", "orders"⟩).map Saved.topic := by
    rw [waits]
    exact List.mem_cons_of_mem _ (List.mem_singleton_self _)
  have there : ((⟨"public", "orders"⟩, ⟨"shop", "public", "orders"⟩) : TableId × TablePath) ∈
      (sampleMisplaced.asked.drop sampleTogether.asked.length).map fun w =>
        (w.tableId, w.path) := by
    rw [handed]
    exact List.mem_singleton_self _
  exact absurd (places.database there foreign waiting) (by decide)

end Run

end ChangeCapture
