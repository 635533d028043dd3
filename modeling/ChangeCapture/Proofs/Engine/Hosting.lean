import ChangeCapture.Proofs.RowEvent.Shaping
import ChangeCapture.Proofs.Store.Tracking
import ChangeCapture.Proofs.Trial.Store

/-!
# One table among many

An engine over a store takes in events of many tables and flushes them all.  What
is buffered for one of the tables, and what is stored of it, changes in two ways
only.  An event of the table is refused, which leaves at most columns behind
(`Window.Extends`), or its row is laid over what is buffered (`Lays`).  And the
flush of the table writes the window to the place of the table or leaves both as
they are (`FlushStable`).

So what holds of the two before such a step and is kept by it holds in a run of
the engine as well (`Hosts`).
-/

namespace ChangeCapture

/-! ## Saving an event -/

/-- A window has the rows of another one, and its columns and maybe more. -/
structure Window.Extends (w' w : Window) : Prop where
  /-- The settings are the same. -/
  settings : w'.settings = w.settings
  /-- The mode is the same. -/
  mode : w'.mode = w.mode
  /-- The rows are the same. -/
  rows : w'.keyed = w.keyed
  /-- No column goes away. -/
  grows : w.columns.Grows w'.columns

/-- A window keeps one row for each key, under the settings of the topic. -/
def Window.Keyed (s : TopicSettings) (w : Window) : Prop := w.settings = s ∧ w.mode = .replication

/-- A window after the row of an event was laid over what was buffered. -/
structure Lays (s : TopicSettings) (w? : Option Window) (e : RowEvent) (key : String) (w : Window) :
    Prop where
  /-- The window keeps one row for each key. -/
  keyed : w.Keyed s
  /-- The row lies over the one of its key, and the other rows stay. -/
  rows : ∀ k, w.keyed.get? k =
    if k = key then some (Tracks.layer (buffered w? key) e.savedRow) else buffered w? k
  /-- No column goes away. -/
  keeps : ∀ w', w? = some w' → w'.columns.Grows w.columns
  /-- There is a column for each value of the row that has a name. -/
  admits : KindHints.Typed e.hints → ∀ n v, n ≠ "" → e.savedRow.get? n = some v →
    Unicode.lowercase n = n ∧ w.columns.Admits n v

/-- What is buffered of a column after a row was laid over it. -/
theorem Lays.value? {s : TopicSettings} {w? : Option Window} {e : RowEvent} {key : String}
    {w : Window} (h : Lays s w? e key w) (k n : String) :
    w.value? k n =
      if k = key then Json.overlay ((buffered w? k).bind (·.get? n)) (e.savedRow.get? n)
      else (buffered w? k).bind (·.get? n) := by
  rw [Window.value?, h.rows]
  by_cases same : k = key
  · rw [if_pos same, if_pos same, Option.bind_some, Tracks.get?_layer, same]
  · rw [if_neg same, if_neg same]

namespace RowEvent

variable {e : RowEvent} {s : TopicSettings} {r : TableRegistry}

/-- The window that an event is saved into has the rows that are buffered. -/
theorem keyed_opened (e : RowEvent) (s : TopicSettings) (r : TableRegistry) (key : String) :
    (e.opened s r).keyed.get? key = buffered (r.content e.tableId) key := by
  rcases e.opened_cases s r with ⟨empty, fresh⟩ | ⟨b, w, holds, old⟩
  · rw [fresh, TableRegistry.content_getOrNew empty]
    rfl
  · rw [old, holds.content]
    rfl

/-- The window that an event is saved into has the columns that are buffered, and maybe more. -/
theorem grows_opened {w : Window} (h : r.content e.tableId = some w) (s : TopicSettings) :
    w.columns.Grows (e.opened s r).columns := by
  obtain ⟨b, holds⟩ := TableRegistry.content_eq_some_iff.1 h
  rw [opened_of_holds holds s]
  exact (ColumnRegistry.grows_addAll w.columns _).trans (grows_visit _ _ _ _)

/-- The place at the destination of the window that an event is saved into. -/
theorem path_opened (h : e.tableId = ⟨s.schema, e.table⟩)
    (placed : ∀ b w, r.Holds e.tableId b w →
      w.path.schema = e.tableId.schema ∧ w.path.name = e.tableId.name) :
    (e.opened s r).path.schema = e.tableId.schema ∧ (e.opened s r).path.name = e.tableId.name := by
  rcases e.opened_cases s r with ⟨-, fresh⟩ | ⟨b, w, holds, old⟩
  · rw [fresh, h]
    exact ⟨rfl, rfl⟩
  · rw [old]
    exact placed b w holds

/-- The settings and the mode of the window that an event is saved into. -/
theorem isKeyed_opened (keyed : ∀ w, r.content e.tableId = some w → w.Keyed s)
    (mode : e.mode = .replication) : (e.opened s r).Keyed s := by
  rcases e.opened_cases s r with ⟨-, fresh⟩ | ⟨b, w, holds, old⟩
  · rw [fresh]
    exact ⟨rfl, mode⟩
  · rw [old]
    exact keyed w holds.content

/-- An event that is refused leaves at most columns behind. -/
theorem content_refused (mode : e.mode = .replication) (topic : String) :
    (r.putWindow e.tableId topic (e.opened s r)).content e.tableId = r.content e.tableId ∨
      ∃ w w', r.content e.tableId = some w ∧ w'.Extends w ∧
        (r.putWindow e.tableId topic (e.opened s r)).content e.tableId = some w' := by
  rw [TableRegistry.content_putWindow_self]
  rcases e.opened_cases s r with ⟨empty, fresh⟩ | ⟨b, w, holds, old⟩
  · have vacant : (e.opened s r).isEmpty := by
      rw [fresh, Window.isEmpty, Window.rows]
      simp only [Window.new, mode]
      rfl
    rw [if_pos vacant, TableRegistry.content_getOrNew empty]
    exact .inl rfl
  · have filled : (e.opened s r).isEmpty = false := by
      rw [old]
      exact holds.filled
    rw [filled, if_neg Bool.false_ne_true]
    refine .inr ⟨w, _, holds.content, ⟨?_, ?_, ?_, grows_opened holds.content s⟩, rfl⟩
    · rw [old]
    · rw [old]
    · rw [old]

/-- An event that is saved is laid over what is buffered. -/
theorem lays_stored (keyed : ∀ w, r.content e.tableId = some w → w.Keyed s)
    (mode : e.mode = .replication) (key : String) {columns : ColumnRegistry}
    (opens : (e.opened s r).columns = e.visited columns)
    (visits : (visit e.hints columns .empty e.data.toList).2 = .ok e.savedRow) (m : Message) :
    Lays s (r.content e.tableId) e key (e.stored s m r key) := by
  have opened := isKeyed_opened keyed mode
  obtain ⟨settings, mode', -, grown⟩ := e.stored_frame s m r key
  have rows : (e.stored s m r key).keyed =
      (e.opened s r).keyed.insert key
        (Tracks.layer (buffered (r.content e.tableId) key) e.savedRow) := by
    show (((e.opened s r).insert key e.savedRow e.isDelete).observe e.time).keyed = _
    rw [Window.keyed_observe, Window.insert, opened.2, ← keyed_opened e s r]
    rfl
  refine ⟨⟨settings.trans opened.1, mode'.trans opened.2⟩, fun k => ?_, fun w hw => ?_, ?_⟩
  · rw [rows, SortedMap.get?_insert, keyed_opened]
  · rw [grown]
    exact grows_opened hw s
  · intro typed n v named hv
    rw [grown, opens]
    exact admits_savedRow typed visits named hv

end RowEvent

/-! ## What steps keep -/

/-- What the flush of a table keeps of its window and of what is stored of it: to match the columns
of the window with those that are stored, and to write the window, which then stays or goes. -/
structure FlushStable (s : TopicSettings) (P : Option Window → StoredTable → Prop) : Prop where
  /-- The window keeps one row for each key. -/
  keyed : ∀ {w t}, P (some w) t → w.Keyed s
  /-- The columns are matched. -/
  adopt : ∀ {w t}, P (some w) t → P (some (w.adopt t.columns)) t
  /-- The window is written and stays. -/
  remerge : ∀ {w t}, P (some w) t → P (some (w.adopt t.columns)) (t.merge (w.adopt t.columns))
  /-- The window is written and goes. -/
  merge : ∀ {w t}, P (some w) t → P none (t.merge (w.adopt t.columns))

/-- What the saving of events keeps of the window of a table, of what is stored of it, and of the
events that were saved. -/
structure SaveStable (s : TopicSettings) (allowed : RowEvent → Prop)
    (P : List RowEvent → Option Window → StoredTable → Prop) : Prop where
  /-- The window keeps one row for each key. -/
  keyed : ∀ {events w t}, P events (some w) t → w.Keyed s
  /-- Columns are added to the window. -/
  extend : ∀ {events w w' t}, P events (some w) t → w'.Extends w → P events (some w') t
  /-- The row of an event is laid over what is buffered. -/
  lay : ∀ {events w? t e key w}, P events w? t → allowed e → e.savedKey = .ok key →
    Lays s w? e key w → P (events ++ [e]) (some w) t

/-! ## One table -/

/-- The events of a table that were saved, after the saving of one more event. -/
def RowEvent.logged (e : RowEvent) (t : TableId) (events : List RowEvent) :
    Outcome (Option FlushReason) → List RowEvent
  | .ok _ => if e.tableId = t then events ++ [e] else events
  | .error _ => events

/-- The table of a name that a topic writes. -/
def TopicSettings.tableId (s : TopicSettings) (table : String) : TableId := ⟨s.schema, table⟩

/-- Something holds of the window of a table and of what is stored of it, and every window stands
at the place of its table. -/
structure Hosts (s : TopicSettings) (table : String) (P : Option Window → StoredTable → Prop)
    (r : TableRegistry) (d : TrialStore) : Prop where
  /-- Every buffer stands under the name of its table. -/
  named : r.Named
  /-- Every window stands at the place of its table. -/
  placed : ∀ t b w, r.Holds t b w → w.path.schema = t.schema ∧ w.path.name = t.name
  /-- Once the table has a buffer it is listed under its topic. -/
  listed : ∀ b, r.get? (s.tableId table) = some b → s.tableId table ∈ r.tablesOf s.topic
  /-- It holds of the table. -/
  holds : P (r.content (s.tableId table)) (d.store.table (.ofTopic s table))

namespace Hosts

variable {s : TopicSettings} {table : String} {P : Option Window → StoredTable → Prop}
  {r : TableRegistry} {d : TrialStore}

/-- Nothing is buffered before the first event. -/
theorem start (thresholds : Thresholds) (h : P none (d.store.table (.ofTopic s table))) :
    Hosts s table P (.new thresholds) d where
  named := by
    intro t b h
    cases h
  placed := by
    intro t b w h
    cases h.buffer
  listed := by
    intro b h
    cases h
  holds := h

/-- The window of the table is written to the place of the table. -/
theorem path_self (h : Hosts s table P r d) (keyed : ∀ {w t}, P (some w) t → w.Keyed s)
    {b : TableBuffer} {w : Window} (holds : r.Holds (s.tableId table) b w) :
    w.path = .ofTopic s table := by
  have name : w.name = table := (h.placed _ b w holds).2
  have here := h.holds
  rw [holds.content] at here
  rw [Window.path, (keyed here).1, name]

/-- The window of another table is written elsewhere. -/
theorem path_other (h : Hosts s table P r d) {t : TableId} (ne : t ≠ s.tableId table)
    {b : TableBuffer} {w : Window} (holds : r.Holds t b w) : .ofTopic s table ≠ w.path := by
  intro same
  obtain ⟨schema, name⟩ := h.placed t b w holds
  rw [← same] at schema name
  exact ne (by cases t; exact congrArg₂ TableId.mk schema.symm name.symm)

/-- If one buffer is replaced and its window stands at the place of its table, all windows stand at
the places of their tables. -/
theorem placed_replace (h : Hosts s table P r d) {r' : TableRegistry} {t : TableId}
    {b' : TableBuffer} (get : ∀ t', r'.get? t' = if t' = t then some b' else r.get? t')
    (here : ∀ w, b'.window = some w → w.path.schema = t.schema ∧ w.path.name = t.name) :
    ∀ t' b w, r'.Holds t' b w → w.path.schema = t'.schema ∧ w.path.name = t'.name := by
  intro t' b w holds
  have hb := holds.buffer
  rw [get] at hb
  split at hb
  · rename_i same
    obtain rfl := Option.some.inj hb
    rw [same]
    exact here w holds.window
  · exact h.placed t' b w ⟨hb, holds.window, holds.filled⟩

/-! ## Events -/

/-- A window that is put into the buffer of an event's table stands at its place. -/
theorem putWindow (h : Hosts s table P r d) {s' : TopicSettings} {e : RowEvent}
    (route : e.tableId = ⟨s'.schema, e.table⟩) {w : Window}
    (opened : w.path = (e.opened s' r).path)
    (home : e.tableId = s.tableId table → s'.topic = s.topic)
    {P' : Option Window → StoredTable → Prop}
    (self : e.tableId = s.tableId table →
      P' ((r.putWindow e.tableId s'.topic w).content e.tableId)
        (d.store.table (.ofTopic s table)))
    (other : e.tableId ≠ s.tableId table → P' = P) :
    Hosts s table P' (r.putWindow e.tableId s'.topic w) d where
  named := h.named.putWindow e.tableId s'.topic w
  placed := by
    refine h.placed_replace (TableRegistry.get?_putWindow _ _ · _ _) ?_
    rintro _ ⟨⟩
    rw [opened]
    exact RowEvent.path_opened route (h.placed e.tableId)
  listed := by
    intro b hb
    rw [TableRegistry.mem_tablesOf_putWindow]
    rw [TableRegistry.get?_putWindow] at hb
    split at hb
    · rename_i same
      cases old : r.get? e.tableId with
      | none => exact .inr ⟨rfl, (home same.symm).symm, same⟩
      | some b' => exact .inl (h.listed b' (same ▸ old))
    · exact .inl (h.listed b hb)
  holds := by
    by_cases same : e.tableId = s.tableId table
    · rw [← same]
      exact self same
    · rw [TableRegistry.content_putWindow_of_ne (Ne.symm same), other same]
      exact h.holds

/-- The saving of an event keeps what the two ways keep in which it changes its table. -/
theorem save {F : List RowEvent → Option Window → StoredTable → Prop} {allowed : RowEvent → Prop}
    (stable : SaveStable s allowed F) {events : List RowEvent} (h : Hosts s table (F events) r d)
    {s' : TopicSettings} {e : RowEvent} (route : e.tableId = ⟨s'.schema, e.table⟩)
    (fits : e.tableId = s.tableId table →
      s' = s ∧ e.mode = .replication ∧ (e.validate = .ok () → allowed e))
    {m : Message} {r' : TableRegistry} {outcome : Outcome (Option FlushReason)}
    (step : e.SaveStep s' m r r' outcome) :
    Hosts s table (F (e.logged (s.tableId table) events outcome)) r' d := by
  have here : e.tableId = s.tableId table →
      F events (r.content e.tableId) (d.store.table (.ofTopic s table)) := by
    intro same
    rw [same]
    exact h.holds
  have home : e.tableId = s.tableId table → s'.topic = s.topic := fun same => by rw [(fits same).1]
  cases step with
  | invalid fault => exact h
  | refused fault =>
    refine h.putWindow route rfl home (fun same => ?_) fun _ => rfl
    obtain ⟨rfl, mode, -⟩ := fits same
    rcases RowEvent.content_refused (s := s') (r := r) mode s'.topic with
      kept | ⟨w, w', hw, extends', hw'⟩
    · rw [kept]
      exact here same
    · have held := here same
      rw [hw] at held
      rw [hw']
      exact stable.extend held extends'
  | @saved key valid hkey columns opens visits =>
    have opened := (e.stored_frame s' m r key).2.2.1
    refine h.putWindow route opened home (fun same => ?_) fun other => by
      simp only [RowEvent.logged, if_neg other]
    obtain ⟨rfl, mode, allows⟩ := fits same
    have held := here same
    have keyed : ∀ w, r.content e.tableId = some w → w.Keyed s' := by
      intro w hw
      rw [hw] at held
      exact stable.keyed held
    rw [TableRegistry.content_putWindow_self, RowEvent.isEmpty_stored, if_neg Bool.false_ne_true]
    simp only [RowEvent.logged, if_pos same]
    exact stable.lay held (allows valid) hkey
      (RowEvent.lays_stored keyed mode key opens visits m)

/-! ## Flushes -/

variable {κ : Type} {e e' : Engine TrialStore κ} {t : TableId} {cooldown : Option Nat} {now : Nat}
  {outcome : Outcome TableFlush}

theorem placed_tableStep (h : Hosts s table P e.registry e.destination)
    (step : Engine.TableStep e t cooldown now e' outcome) :
    ∀ t' b w, e'.registry.Holds t' b w → w.path.schema = t'.schema ∧ w.path.name = t'.name := by
  cases step with
  | nothing _ => exact h.placed
  | cooled _ _ _ => exact h.placed
  | unknown _ _ _ => exact h.placed
  | failed holds _ _ =>
    refine h.placed_replace (TableRegistry.get?_set _ _ · _) ?_
    have here := h.placed t _ _ holds
    rintro _ ⟨⟩
    rw [h.named t _ holds.buffer]
    exact here
  | denied holds _ _ =>
    refine h.placed_replace (TableRegistry.get?_set _ _ · _) ?_
    have here := h.placed t _ _ holds
    rintro _ ⟨⟩
    rw [h.named t _ holds.buffer]
    exact here
  | written holds _ _ _ =>
    refine h.placed_replace (TableRegistry.get?_set _ _ · _) ?_
    rintro _ ⟨⟩

theorem content_adopt {b : TableBuffer} {w : Window} (named : e.registry.Named)
    (holds : e.registry.Holds t b w) (known : ColumnRegistry) :
    (e.registry.set b.tableId (b.setWindow (w.adopt known))).content t =
      some (w.adopt known) := by
  have filled : (w.adopt known).isEmpty = false := holds.filled
  rw [TableRegistry.content_set _ _ (named t b holds.buffer)]
  simp [TableBuffer.setWindow, filled]

section Self

variable (stable : FlushStable s P) (h : Hosts s table P e.registry e.destination)

include stable h

/-- What the store tells before it writes the window of the table are the columns of the table. -/
theorem known_self {b : TableBuffer} {w : Window}
    (holds : e.registry.Holds (s.tableId table) b w) {d : TrialStore} {known : ColumnRegistry}
    (tells : Destination.Tells e.destination w known d) :
    known = (e.destination.store.table (.ofTopic s table)).columns := by
  rw [TrialStore.known_of_tells tells, h.path_self stable.keyed holds]

/-- The window of the table is merged into the table. -/
theorem table_written {b : TableBuffer} {w : Window}
    (holds : e.registry.Holds (s.tableId table) b w) {d d' : TrialStore} {known : ColumnRegistry}
    (tells : Destination.Tells e.destination w known d) {commits : Bool}
    (write : Destination.write d (w.adopt known) = (.ok commits, d')) :
    d'.store.table (.ofTopic s table) =
      (e.destination.store.table (.ofTopic s table)).merge (w.adopt known) := by
  have held := h.holds
  rw [holds.content] at held
  have mode : (w.adopt known).mode = .replication := (stable.keyed held).2
  have here := h.path_self stable.keyed holds
  have place : (w.adopt known).path = .ofTopic s table := here
  rw [TrialStore.store_write mode write, ← place, Store.table_merge_self,
    TrialStore.store_probes tells.probes]

/-- The flush of the table itself writes the window, or leaves it. -/
theorem holds_self (step : Engine.TableStep e (s.tableId table) cooldown now e' outcome) :
    P (e'.registry.content (s.tableId table)) (e'.destination.store.table (.ofTopic s table)) := by
  have held := h.holds
  cases step with
  | nothing _ => exact held
  | cooled _ _ _ => exact held
  | unknown _ probes f =>
    rw [← TrialStore.store_probes probes] at held
    exact held
  | @failed b w holds d known tells f =>
    rw [holds.content] at held
    have adopted := stable.adopt held
    rw [← h.known_self stable holds tells, ← content_adopt h.named holds known,
      ← TrialStore.store_probes tells.probes] at adopted
    exact adopted
  | @denied b w holds d d' known tells write =>
    rw [holds.content] at held
    have merged := stable.remerge held
    rw [← h.known_self stable holds tells, ← content_adopt h.named holds known,
      ← h.table_written stable holds tells write] at merged
    exact merged
  | @written b w holds d d' known tells write finished =>
    rw [holds.content] at held
    have merged := stable.merge held
    have wiped : (e.registry.set b.tableId (b.wipe finished)).content (s.tableId table) = none :=
      TableRegistry.content_set e.registry (b.wipe finished) (h.named _ b holds.buffer)
    rw [← h.known_self stable holds tells, ← wiped, ← h.table_written stable holds tells write]
      at merged
    exact merged

end Self

/-- The flush of another table leaves the table alone. -/
theorem holds_other (h : Hosts s table P e.registry e.destination) (ne : t ≠ s.tableId table)
    (step : Engine.TableStep e t cooldown now e' outcome) :
    P (e'.registry.content (s.tableId table)) (e'.destination.store.table (.ofTopic s table)) := by
  have held := h.holds
  rw [← TableRegistry.content_congr (step.get?_of_ne h.named ne.symm)] at held
  have probed : ∀ {d : TrialStore} {w : Window}, Destination.Probes w e.destination d →
      d.store.table (.ofTopic s table) = e.destination.store.table (.ofTopic s table) := by
    intro d w probes
    rw [TrialStore.store_probes probes]
  have same : e'.destination.store.table (.ofTopic s table) =
      e.destination.store.table (.ofTopic s table) := by
    cases step with
    | nothing _ => rfl
    | cooled _ _ _ => rfl
    | unknown _ probes f => exact probed probes
    | failed holds tells f => exact probed tells.probes
    | denied holds tells write =>
      have elsewhere := h.path_other ne holds
      exact (TrialStore.table_write_of_ne write elsewhere).trans (probed tells.probes)
    | written holds tells write finished =>
      have elsewhere := h.path_other ne holds
      exact (TrialStore.table_write_of_ne write elsewhere).trans (probed tells.probes)
  rw [same]
  exact held

theorem tableStep (stable : FlushStable s P) (h : Hosts s table P e.registry e.destination)
    (step : Engine.TableStep e t cooldown now e' outcome) :
    Hosts s table P e'.registry e'.destination where
  named := step.named h.named
  placed := h.placed_tableStep step
  listed := by
    intro b hb
    obtain ⟨b', hb'⟩ := step.known h.named hb
    have listed := h.listed b' hb'
    simp only [TableRegistry.tablesOf] at listed ⊢
    rw [step.frame.1]
    exact listed
  holds := by
    by_cases same : t = s.tableId table
    · subst same
      exact h.holds_self stable step
    · exact h.holds_other same step

/-- A flush keeps what the flush of the table keeps. -/
theorem flush [Source κ] (stable : FlushStable s P)
    (h : Hosts s table P e.registry e.destination) (order : FlushOrder) (now : Nat) :
    Hosts s table P (e.flush order now).state.registry (e.flush order now).state.destination := by
  refine Engine.flush_induct (P := fun e => Hosts s table P e.registry e.destination) now
    (fun step h => h.tableStep stable step) (fun {e topic source} _ outcomes h => ?_) e order h
  obtain ⟨registry, destination⟩ := Engine.settle_keeps e topic source outcomes
  rw [registry, destination]
  exact h

/-- A flush in which no table of the topic failed or was left alone leaves no row of the table
buffered. -/
theorem vacant_flush [Source κ] (h : Hosts s table P e.registry e.destination)
    (fed : e.sources.contains s.topic) {order : FlushOrder} (takes : order.Takes s.topic)
    {now : Nat} (complete : FlushOutcomes.areComplete (e.outcomes order now s.topic)) :
    (e.flush order now).state.registry.Vacant (s.tableId table) := by
  by_cases listed : s.tableId table ∈ e.registry.tablesOf s.topic
  · exact Engine.vacant_of_outcomes h.named takes fed listed complete
  · refine Engine.vacant_flush h.named ?_ order now
    intro b hb
    exact absurd (h.listed b hb) listed

end Hosts

end ChangeCapture
