import ChangeCapture.Proofs.Engine.Accounts
import ChangeCapture.Proofs.Table.Rows

/-!
# What windows gather

The rows of a table wait until a window of the table is entered, which takes
them along (`Saved.waiting`, `Saved.taken`).  In every state of a run the window of
a table has the rows that wait for it and no others, and a window that was entered
has those that it took: merged by key in replication mode, in the order in which
they were saved in history mode (`Run.GathersRows`).

A window that merged rows shows, in each column of a key, the last value that a
row of the key has there, the placeholder aside (`Window.Merges`).  A row is written
once a window shows it with the rows that were taken along (`Saved.IsWritten`).
-/

namespace ChangeCapture

variable {δ : Type} [Destination δ]

/-! ## Rows that wait -/

namespace Saved

/-- The saved rows of a table that wait for a window to be entered, in order. -/
def waiting (saved : List Saved) (accepted : List Window) (t : TableId) : List Saved :=
  saved.filter fun s =>
    s.event.tableId == t && (accepted.drop s.entered).all fun w => w.tableId != t

/-- Lays a saved row over what a key has. -/
def lay (rows : SortedMap String Row) (s : Saved) : SortedMap String Row :=
  match s.event.savedKey with
  | .ok key =>
    rows.insert key (((rows.get? key).map (Row.carryOver · s.event.savedRow)).getD s.event.savedRow)
  | .error _ => rows

/-- Saved rows by key, each laid over those before it. -/
def keyed (saved : List Saved) : SortedMap String Row := saved.foldl lay .empty

/-- Saved rows in order. -/
def rows (saved : List Saved) : List Row := saved.map fun s => s.event.savedRow

variable {saved : List Saved} {accepted : List Window} {t : TableId}

theorem mem_waiting {s : Saved} :
    s ∈ waiting saved accepted t ↔ s ∈ saved ∧ s.event.tableId = t ∧
      ∀ w ∈ accepted.drop s.entered, w.tableId ≠ t := by
  simp [waiting]

theorem waiting_append (saved more : List Saved) (accepted : List Window) (t : TableId) :
    waiting (saved ++ more) accepted t = waiting saved accepted t ++ waiting more accepted t :=
  List.filter_append ..

/-- A row that was just saved waits. -/
theorem waiting_singleton {s : Saved} (entered : s.entered = accepted.length) (t : TableId) :
    waiting [s] accepted t = if s.event.tableId = t then [s] else [] := by
  simp [waiting, entered, List.filter_singleton]

/-- No row of a table waits once a window of the table was entered. -/
theorem waiting_enter_self (entered : ∀ s ∈ saved, s.entered ≤ accepted.length) {w : Window}
    (table : w.tableId = t) : waiting saved (accepted ++ [w]) t = [] := by
  refine List.eq_nil_iff_forall_not_mem.2 fun s mem => ?_
  obtain ⟨mem, -, none⟩ := mem_waiting.1 mem
  refine none w ?_ table
  rw [List.drop_append_of_le_length (entered s mem)]
  exact List.mem_append_right _ (List.mem_singleton_self w)

/-- The rows of a table wait on when a window of another table is entered. -/
theorem waiting_enter_of_ne (entered : ∀ s ∈ saved, s.entered ≤ accepted.length) {w : Window}
    (other : w.tableId ≠ t) : waiting saved (accepted ++ [w]) t = waiting saved accepted t := by
  refine List.filter_congr fun s mem => ?_
  have ne : ([w].all fun w => w.tableId != t) = true := by simpa using other
  rw [List.drop_append_of_le_length (entered s mem), List.all_append, ne, Bool.and_true]

/-- The saved rows that a window of the table takes along when it is entered after others: those
that were saved by then and waited. -/
def taken (saved : List Saved) (before : List Window) (t : TableId) : List Saved :=
  waiting (saved.filter (·.entered ≤ before.length)) before t

theorem mem_taken {s : Saved} {before : List Window} :
    s ∈ taken saved before t ↔ s ∈ saved ∧ s.entered ≤ before.length ∧ s.event.tableId = t ∧
      ∀ w ∈ before.drop s.entered, w.tableId ≠ t := by
  rw [taken, mem_waiting, List.mem_filter, decide_eq_true_eq, and_assoc]

/-- A window that is entered next takes all rows along that wait. -/
theorem taken_of_entered (entered : ∀ s ∈ saved, s.entered ≤ accepted.length) :
    taken saved accepted t = waiting saved accepted t := by
  rw [taken, List.filter_eq_self.2 fun s mem => decide_eq_true (entered s mem)]

/-- A window takes no row along that was saved after it was entered. -/
theorem taken_concat {s : Saved} {before : List Window} (later : before.length < s.entered) :
    taken (saved ++ [s]) before t = taken saved before t := by
  rw [taken, List.filter_append, List.filter_singleton,
    decide_eq_false (Nat.not_le_of_lt later), cond_false, List.append_nil, taken]

/-- A row that is gone was taken along by the first window of its table that was entered after it
was saved. -/
theorem IsGone.exists_taken {s : Saved} (gone : s.IsGone accepted) (mem : s ∈ saved) :
    ∃ before w, before ++ [w] <+: accepted ∧ s ∈ taken saved before w.tableId := by
  obtain ⟨v, hv, table⟩ := gone
  obtain ⟨w, first⟩ : ∃ w, (accepted.drop s.entered).find?
      (fun w => w.tableId == s.event.tableId) = some w :=
    Option.isSome_iff_exists.1 (List.find?_isSome.2 ⟨v, hv, beq_iff_eq.2 table⟩)
  obtain ⟨here, early, late, split, others⟩ := List.find?_eq_some_iff_append.1 first
  have here : w.tableId = s.event.tableId := beq_iff_eq.1 here
  have le : s.entered ≤ accepted.length := by
    by_contra beyond
    rw [List.drop_of_length_le (Nat.le_of_not_le beyond)] at hv
    cases hv
  have length : (accepted.take s.entered).length = s.entered := List.length_take_of_le le
  refine ⟨accepted.take s.entered ++ early, w, ⟨late, ?_⟩, mem_taken.2 ⟨mem, ?_, here.symm, ?_⟩⟩
  · rw [List.append_assoc, List.append_assoc, List.singleton_append, ← split,
      List.take_append_drop]
  · rw [List.length_append, length]
    exact Nat.le_add_right _ _
  · intro u hu
    rw [List.drop_left' length] at hu
    simpa [here] using others u hu

/-- A row that was taken along by a window that was entered is gone. -/
theorem isGone_of_taken {s : Saved} {before : List Window} {w : Window}
    (entered : before ++ [w] <+: accepted) (mem : s ∈ taken saved before w.tableId) :
    s.IsGone accepted := by
  obtain ⟨more, rfl⟩ := entered
  obtain ⟨-, le, table, -⟩ := mem_taken.1 mem
  rw [List.append_assoc, isGone_append le]
  exact .inr ⟨w, List.mem_append_left _ (List.mem_singleton_self w), table.symm⟩

end Saved

/-! ## Rows by key -/

theorem RowEvent.layered_eq_standing? (events : List RowEvent) (n : String) :
    layered events n = Json.standing? (events.filterMap (·.savedRow.get? n)) := by
  induction events using List.reverseRecOn with
  | nil => rfl
  | append_singleton events e ih =>
    rw [layered_append, ih, List.filterMap_append]
    cases carried : e.savedRow.get? n with
    | none => simp [carried]
    | some v => simp [carried, Json.standing?_concat]

namespace Saved

variable {rows : List Saved} {s : Saved} {key : String}

/-- The values that the saved rows of a key have for a column, in order. -/
def valuesOf (rows : List Saved) (key n : String) : List Json :=
  (RowEvent.ofKey (rows.map Saved.event) key).filterMap (·.savedRow.get? n)

theorem keyed_concat (rows : List Saved) (s : Saved) :
    keyed (rows ++ [s]) = lay (keyed rows) s := by
  rw [keyed, List.foldl_append, ← keyed, List.foldl_cons, List.foldl_nil]

theorem get?_lay (keys : SortedMap String Row) (s : Saved) (key : String) :
    (lay keys s).get? key =
      if s.event.hasKey key then some (Tracks.layer (keys.get? key) s.event.savedRow)
      else keys.get? key := by
  cases hkey : s.event.savedKey with
  | error f => simp [lay, RowEvent.hasKey, hkey]
  | ok k =>
    simp only [lay, RowEvent.hasKey, hkey]
    cases same : k == key with
    | true => rw [eq_of_beq same, SortedMap.get?_insert_self, if_pos rfl, Tracks.layer]
    | false =>
      rw [SortedMap.get?_insert_of_ne _ _ (Ne.symm (ne_of_beq_false same)),
        if_neg Bool.false_ne_true]

/-- A key has a row if one was saved under it. -/
theorem contains_keyed (rows : List Saved) (key : String) :
    (keyed rows).contains key ↔ ∃ s ∈ rows, s.event.savedKey = .ok key := by
  induction rows using List.reverseRecOn with
  | nil => simp [keyed, SortedMap.contains]
  | append_singleton rows s ih =>
    rw [SortedMap.contains] at ih ⊢
    rw [keyed_concat, get?_lay]
    split
    · rename_i here
      exact iff_of_true rfl ⟨s, List.mem_append_right _ (List.mem_singleton_self s),
        RowEvent.hasKey_iff.1 here⟩
    · rename_i other
      rw [RowEvent.hasKey_iff] at other
      simp [ih, other, or_and_right, exists_or]

/-- The values of a key are laid over each other in their order. -/
theorem value_keyed (rows : List Saved) (key n : String) :
    ((keyed rows).get? key).bind (·.get? n) = Json.standing? (valuesOf rows key n) := by
  unfold valuesOf
  rw [← RowEvent.layered_eq_standing?]
  induction rows using List.reverseRecOn with
  | nil => rfl
  | append_singleton rows s ih =>
    rw [keyed_concat, get?_lay, List.map_append, List.map_singleton]
    split
    · rename_i here
      rw [Option.bind_some, Tracks.get?_layer, ih,
        RowEvent.ofKey_append_self (RowEvent.hasKey_iff.1 here), RowEvent.layered_append]
    · rename_i other
      have others : RowEvent.ofKey [s.event] key = [] :=
        List.filter_eq_nil_iff.2 fun e mem => by rwa [List.mem_singleton.1 mem]
      rw [ih, RowEvent.ofKey_append, others, List.append_nil]

end Saved

/-! ## Windows that gather rows -/

namespace Window

/-- The rows of the window are the saved ones, by key or in order as its mode says. -/
def Gathers (w : Window) (saved : List Saved) : Prop :=
  match w.mode with
  | .replication => w.keyed = Saved.keyed saved
  | .history => w.appended = Saved.rows saved

variable {w w' : Window} {saved : List Saved}

theorem gathers_new (t : TableId) (name : String) (mode : Mode) (columns : ColumnRegistry)
    (primaryKeys : List String) (s : TopicSettings) :
    (new t name mode columns primaryKeys s).Gathers [] := by
  cases mode <;> rfl

theorem Gathers.congr (h : w.Gathers saved) (mode : w'.mode = w.mode)
    (keyed : w'.keyed = w.keyed) (appended : w'.appended = w.appended) : w'.Gathers saved := by
  simp only [Gathers] at h ⊢
  rwa [mode, keyed, appended]

theorem Gathers.rows (h : w.Gathers saved) (mode : w.mode = .history) :
    w.rows = Saved.rows saved := by
  unfold Gathers at h
  unfold Window.rows
  rw [mode] at h ⊢
  exact h

theorem Gathers.insert (h : w.Gathers saved) {s : Saved} {key : String}
    (hkey : s.event.savedKey = .ok key) (deleted : Bool) :
    (w.insert key s.event.savedRow deleted).Gathers (saved ++ [s]) := by
  unfold Gathers at h
  unfold Gathers Window.insert
  cases hm : w.mode with
  | replication =>
    simp only [hm] at h
    simp only [upsert, hm]
    rw [Saved.keyed, List.foldl_append, ← Saved.keyed, ← h]
    simp only [List.foldl_cons, List.foldl_nil, Saved.lay, hkey]
  | history =>
    simp only [hm] at h
    simp only [append, hm]
    rw [h, Saved.rows, Saved.rows, List.map_append, List.map_singleton]

/-- The rows of the window are what stands of the saved ones by key. -/
structure Merges (w : Window) (saved : List Saved) : Prop where
  /-- A key has a row if and only if one was saved under it. -/
  keys : ∀ key, w.keyed.contains key ↔ ∃ s ∈ saved, s.event.savedKey = .ok key
  /-- A column has the last value that a row of the key has there, the placeholder aside, and the
  placeholder if there is no other value. -/
  values : ∀ key n, w.value? key n = Json.standing? (Saved.valuesOf saved key n)

/-- The window shows the saved rows: what stands of them by key, or all of them in order. -/
def Shows (w : Window) (saved : List Saved) : Prop :=
  match w.mode with
  | .replication => w.Merges saved
  | .history => w.appended = Saved.rows saved

theorem Gathers.shows (h : w.Gathers saved) : w.Shows saved := by
  unfold Gathers at h
  unfold Shows
  cases mode : w.mode with
  | replication =>
    simp only [mode] at h
    refine ⟨fun key => ?_, fun key n => ?_⟩
    · rw [h, Saved.contains_keyed]
    · rw [value?, h, Saved.value_keyed]
  | history =>
    simp only [mode] at h
    exact h

end Window

/-- The row was written: a window that was entered took it along and shows it with the other rows
that it took. -/
def Saved.IsWritten (s : Saved) (saved : List Saved) (accepted : List Window) : Prop :=
  ∃ before w, before ++ [w] <+: accepted ∧ s ∈ taken saved before w.tableId ∧
    w.Shows (taken saved before w.tableId)

theorem Saved.IsWritten.isGone {s : Saved} {saved : List Saved} {accepted : List Window}
    (h : s.IsWritten saved accepted) : s.IsGone accepted := by
  obtain ⟨before, w, entered, mem, -⟩ := h
  exact isGone_of_taken entered mem

/-! ## Saving -/

namespace RowEvent

/-- A saved event is in the window of its table, after the rows that wait. -/
theorem gathers_stored {r : TableRegistry} {waiting : List Saved} {s : Saved} {key : String}
    (hkey : s.event.savedKey = .ok key) (settings : TopicSettings) (m : Message)
    (buffered : ∀ w, r.content s.event.tableId = some w →
      w.tableId = s.event.tableId ∧ w.Gathers waiting)
    (vacant : r.content s.event.tableId = none → waiting = []) :
    (s.event.stored settings m r key).tableId = s.event.tableId ∧
      (s.event.stored settings m r key).Gathers (waiting ++ [s]) := by
  have opened : (s.event.opened settings r).tableId = s.event.tableId ∧
      (s.event.opened settings r).Gathers waiting := by
    rcases s.event.opened_cases settings r with ⟨empty, fresh⟩ | ⟨b, w, holds, old⟩
    · rw [fresh, vacant (TableRegistry.content_getOrNew empty)]
      exact ⟨rfl, Window.gathers_new ..⟩
    · obtain ⟨table, gathers⟩ := buffered w holds.content
      rw [old]
      exact ⟨table, gathers.congr rfl rfl rfl⟩
  constructor
  · refine Eq.trans ?_ opened.1
    exact (Window.tableId_observe _ _).trans (Window.tableId_insert _ _ _ _)
  · refine (opened.2.insert hkey s.event.isDelete).congr ?_ ?_ ?_
    · exact Window.mode_observe _ _
    · exact Window.keyed_observe _ _
    · exact Window.appended_observe _ _

end RowEvent

/-! ## The invariant -/

namespace TableRegistry

/-- The windows with rows are those of another registry, perhaps with other columns. -/
def Recolumns (r r' : TableRegistry) : Prop :=
  ∀ t, ∃ columns : Window → ColumnRegistry,
    r'.content t = (r.content t).map fun w => { w with columns := columns w }

theorem Recolumns.of_content {r r' : TableRegistry} {t : TableId}
    (others : ∀ t', t' ≠ t → r'.content t' = r.content t')
    (here : ∃ columns : Window → ColumnRegistry,
      r'.content t = (r.content t).map fun w => { w with columns := columns w }) :
    r.Recolumns r' := by
  intro t'
  by_cases same : t' = t
  · rwa [same]
  · exact ⟨Window.columns, by rw [others t' same, Option.map_id']⟩

/-- The windows with rows are some of those of another registry, perhaps with other columns. -/
def Descends (r r' : TableRegistry) : Prop :=
  ∀ t v, r'.content t = some v →
    ∃ w columns, r.content t = some w ∧ v = { w with columns := columns }

theorem Descends.refl (r : TableRegistry) : r.Descends r := fun _ v hv => ⟨v, v.columns, hv, rfl⟩

theorem Descends.trans {r r' r'' : TableRegistry} (h : r.Descends r') (h' : r'.Descends r'') :
    r.Descends r'' := by
  intro t v hv
  obtain ⟨w, columns, hw, rfl⟩ := h' t v hv
  obtain ⟨w₀, columns₀, hw₀, rfl⟩ := h t w hw
  exact ⟨w₀, columns, hw₀, rfl⟩

theorem Recolumns.descends {r r' : TableRegistry} (h : r.Recolumns r') : r.Descends r' := by
  intro t v hv
  obtain ⟨columns, same⟩ := h t
  obtain ⟨w, hw, rfl⟩ := Option.map_eq_some_iff.1 (same.symm.trans hv)
  exact ⟨w, columns w, hw, rfl⟩

/-- A window that an event leaves that is refused has the rows that are buffered. -/
theorem recolumns_opened (r : TableRegistry) (e : RowEvent) (s : TopicSettings) (topic : String) :
    r.Recolumns (r.putWindow e.tableId topic (e.opened s r)) := by
  refine .of_content (t := e.tableId) (fun t' ne => content_putWindow_of_ne ne) ?_
  rw [content_putWindow_self]
  rcases e.opened_cases s r with ⟨empty, fresh⟩ | ⟨b, w, holds, old⟩
  · have vacant : (e.opened s r).isEmpty := by
      rw [fresh]
      cases hm : e.mode <;> rfl
    exact ⟨Window.columns, by rw [if_pos vacant, content_getOrNew empty]; rfl⟩
  · have filled : (e.opened s r).isEmpty = false := by
      rw [old]
      exact holds.filled
    refine ⟨fun w => e.visited (w.columns.addAll e.declared.columns), ?_⟩
    rw [filled, if_neg Bool.false_ne_true, holds.content, old]
    rfl

/-- A window that an event is saved into replaces the one of its table. -/
theorem content_stored (r : TableRegistry) (e : RowEvent) (s : TopicSettings) (m : Message)
    (key topic : String) (t : TableId) :
    (r.putWindow e.tableId topic (e.stored s m r key)).content t =
      if t = e.tableId then some (e.stored s m r key) else r.content t := by
  by_cases same : t = e.tableId
  · rw [same, content_putWindow_self, e.isEmpty_stored, if_pos rfl, if_neg Bool.false_ne_true]
  · rw [content_putWindow_of_ne same, if_neg same]

end TableRegistry

namespace Engine

/-- The flush of a table leaves all rows where they are, or it enters the window of the table. -/
theorem TableStep.content_cases {e e' : Engine (Ledger δ) MessageQueue} {t : TableId}
    {cooldown : Option Nat} {now : Nat} {outcome : Outcome TableFlush}
    (named : e.registry.Named) (step : TableStep e t cooldown now e' outcome) :
    (e.registry.Recolumns e'.registry ∧
        e'.destination.accepted = e.destination.accepted) ∨
      ∃ w columns, e.registry.content t = some w ∧ e'.registry.content t = none ∧
        (∀ t', t' ≠ t → e'.registry.content t' = e.registry.content t') ∧
        e'.destination.accepted = e.destination.accepted ++ [{ w with columns := columns }] := by
  have others : ∀ t', t' ≠ t → e'.registry.content t' = e.registry.content t' :=
    fun t' ne => TableRegistry.content_congr (step.get?_of_ne named ne)
  obtain ⟨ms, effect⟩ : ∃ ms, TableEffect e e' t ms := ⟨_, step.effect named⟩
  cases effect with
  | nothing _ same =>
    rw [same]
    exact .inl ⟨.of_content (t := t) (fun _ _ => rfl) ⟨Window.columns, Option.map_id'.symm⟩, rfl⟩
  | @kept b b' w columns before after entered =>
    refine .inl ⟨.of_content others ⟨fun _ => columns, ?_⟩, entered⟩
    rw [after.content, before.content]
    rfl
  | @written b w columns before after entered =>
    exact .inr ⟨w, columns, before.content, after.content, others, entered⟩

theorem TableStep.descends {e e' : Engine (Ledger δ) MessageQueue} {t : TableId}
    {cooldown : Option Nat} {now : Nat} {outcome : Outcome TableFlush}
    (named : e.registry.Named) (step : TableStep e t cooldown now e' outcome) :
    e.registry.Descends e'.registry := by
  rcases step.content_cases named with ⟨rows, -⟩ | ⟨w, columns, -, wiped, others, -⟩
  · exact rows.descends
  · intro t' v hv
    by_cases same : t' = t
    · rw [same, wiped] at hv
      cases hv
    · exact ⟨v, v.columns, (others t' same).symm.trans hv, rfl⟩

/-- The windows after a flush are some of those before it. -/
theorem descends_flush {e : Engine (Ledger δ) MessageQueue} (named : e.registry.Named)
    (order : FlushOrder) (now : Nat) :
    e.registry.Descends (e.flush order now).state.registry := by
  have kept := flush_induct
    (P := fun e' : Engine (Ledger δ) MessageQueue =>
      e'.registry.Named ∧ e.registry.Descends e'.registry) now
    (fun step kept => ⟨step.named kept.1, kept.2.trans (step.descends kept.1)⟩)
    (fun _ outcomes kept => by rwa [(settle_keeps _ _ _ outcomes).1]) e order ⟨named, .refl _⟩
  exact kept.2

/-- The window of every table gathers the rows that wait for it, and so did the windows that were
entered. -/
structure GathersRows (e : Engine (Ledger δ) MessageQueue) (saved : List Saved) : Prop where
  /-- Every buffer stands under the name of its table. -/
  named : e.registry.Named
  /-- The windows that had been entered when a row was saved are still there. -/
  entered : ∀ s ∈ saved, s.entered ≤ e.destination.accepted.length
  /-- A window with rows is of its table and gathers what waits. -/
  buffered : ∀ t w, e.registry.content t = some w →
    w.tableId = t ∧ w.Gathers (Saved.waiting saved e.destination.accepted t)
  /-- For a table without rows nothing waits. -/
  vacant : ∀ t, e.registry.content t = none →
    Saved.waiting saved e.destination.accepted t = []
  /-- A window that was entered gathers what it took along. -/
  taken : ∀ before w, before ++ [w] <+: e.destination.accepted →
    w.Gathers (Saved.taken saved before w.tableId)

namespace GathersRows

variable {e e' : Engine (Ledger δ) MessageQueue} {saved : List Saved}

omit [Destination δ] in
/-- A table for which a row waits has a window. -/
theorem content_of_mem (h : e.GathersRows saved) {t : TableId} {x : Saved}
    (mem : x ∈ Saved.waiting saved e.destination.accepted t) :
    ∃ w, e.registry.content t = some w := by
  cases content : e.registry.content t with
  | none =>
    rw [h.vacant t content] at mem
    cases mem
  | some w => exact ⟨w, rfl⟩

omit [Destination δ] in
theorem frame (h : e.GathersRows saved) (registry : e'.registry = e.registry)
    (accepted : e'.destination.accepted = e.destination.accepted) : e'.GathersRows saved := by
  obtain ⟨named, entered, buffered, vacant, taken⟩ := h
  rw [← registry, ← accepted] at *
  exact ⟨named, entered, buffered, vacant, taken⟩

omit [Destination δ] in
/-- A row that is gone was written. -/
theorem isWritten (h : e.GathersRows saved) {s : Saved} (mem : s ∈ saved)
    (gone : s.IsGone e.destination.accepted) : s.IsWritten saved e.destination.accepted := by
  obtain ⟨before, w, entered, took⟩ := gone.exists_taken mem
  exact ⟨before, w, entered, took, (h.taken before w entered).shows⟩

omit [Destination δ] in
theorem recolumns (h : e.GathersRows saved) (named : e'.registry.Named)
    (rows : e.registry.Recolumns e'.registry)
    (accepted : e'.destination.accepted = e.destination.accepted) : e'.GathersRows saved := by
  refine ⟨named, ?_, ?_, ?_, ?_⟩
  · rw [accepted]
    exact h.entered
  · intro t v hv
    obtain ⟨columns, same⟩ := rows t
    obtain ⟨w, hw, rfl⟩ := Option.map_eq_some_iff.1 (same.symm.trans hv)
    obtain ⟨table, gathers⟩ := h.buffered t w hw
    rw [accepted]
    exact ⟨table, gathers.congr rfl rfl rfl⟩
  · intro t none
    obtain ⟨columns, same⟩ := rows t
    rw [accepted]
    exact h.vacant t (Option.map_eq_none_iff.1 (same.symm.trans none))
  · rw [accepted]
    exact h.taken

omit [Destination δ] in
/-- A window that is entered takes along what waits for its table. -/
theorem enter (h : e.GathersRows saved) {w : Window}
    (gathers : w.Gathers (Saved.waiting saved e.destination.accepted w.tableId))
    (named : e'.registry.Named) (wiped : e'.registry.content w.tableId = none)
    (others : ∀ t, t ≠ w.tableId → e'.registry.content t = e.registry.content t)
    (accepted : e'.destination.accepted = e.destination.accepted ++ [w]) :
    e'.GathersRows saved := by
  refine ⟨named, ?_, ?_, ?_, ?_⟩
  · intro s mem
    rw [accepted, List.length_append]
    exact Nat.le_trans (h.entered s mem) (Nat.le_add_right _ _)
  · intro t v hv
    have ne : t ≠ w.tableId := by
      rintro rfl
      rw [wiped] at hv
      cases hv
    rw [accepted, Saved.waiting_enter_of_ne h.entered (Ne.symm ne)]
    exact h.buffered t v ((others t ne).symm.trans hv)
  · intro t none
    rw [accepted]
    by_cases same : t = w.tableId
    · exact Saved.waiting_enter_self h.entered same.symm
    · rw [Saved.waiting_enter_of_ne h.entered (Ne.symm same)]
      exact h.vacant t ((others t same).symm.trans none)
  · intro before v here
    rw [accepted, List.prefix_concat_iff] at here
    rcases here with last | here
    · obtain ⟨rfl, rfl⟩ := List.append_inj' last rfl |>.imp_right List.singleton_inj.1
      rwa [Saved.taken_of_entered h.entered]
    · exact h.taken before v here

/-- The flush of a table keeps its rows waiting, or it enters them all. -/
theorem tableStep (h : e.GathersRows saved) {t : TableId} {cooldown : Option Nat} {now : Nat}
    {outcome : Outcome TableFlush} (step : TableStep e t cooldown now e' outcome) :
    e'.GathersRows saved := by
  rcases step.content_cases h.named with ⟨rows, same⟩ | ⟨w, columns, hw, wiped, others, entered⟩
  · exact h.recolumns (step.named h.named) rows same
  · obtain ⟨rfl, gathers⟩ := h.buffered t w hw
    exact h.enter (w := { w with columns := columns }) (gathers.congr rfl rfl rfl)
      (step.named h.named) wiped others entered

theorem flush (h : e.GathersRows saved) (order : FlushOrder) (now : Nat) :
    (e.flush order now).state.GathersRows saved := by
  refine flush_induct (P := fun e : Engine (Ledger δ) MessageQueue => e.GathersRows saved) now
    (fun step kept => kept.tableStep step) (fun {e topic source} _ outcomes kept => ?_) e order h
  obtain ⟨registry, destination⟩ := settle_keeps e topic source outcomes
  exact kept.frame registry (congrArg Ledger.accepted destination)

omit [Destination δ] in
/-- An event that is refused leaves the rows as they are. -/
theorem refuse (h : e.GathersRows saved) (event : RowEvent) (s : TopicSettings) :
    GathersRows
      { e with registry := e.registry.putWindow event.tableId s.topic (event.opened s e.registry) }
      saved :=
  h.recolumns (h.named.putWindow _ _ _) (e.registry.recolumns_opened event s s.topic) rfl

omit [Destination δ] in
/-- An event that is saved adds a row to those that wait for its table. -/
theorem store (h : e.GathersRows saved) {event : RowEvent} {key : String}
    (hkey : event.savedKey = .ok key) (s : TopicSettings) (m : Message) :
    GathersRows
      { e with
        registry := e.registry.putWindow event.tableId s.topic (event.stored s m e.registry key) }
      (saved ++ [⟨s.topic, event, m, e.destination.accepted.length⟩]) := by
  have content := e.registry.content_stored event s m key s.topic
  have waits : ∀ t, Saved.waiting [⟨s.topic, event, m, e.destination.accepted.length⟩]
      e.destination.accepted t =
        if event.tableId = t then [⟨s.topic, event, m, e.destination.accepted.length⟩] else [] :=
    Saved.waiting_singleton rfl
  refine ⟨h.named.putWindow _ _ _, ?_, ?_, ?_, ?_⟩
  · intro x mem
    rcases List.mem_append.1 mem with mem | mem
    · exact h.entered x mem
    · obtain rfl := List.mem_singleton.1 mem
      exact Nat.le_refl _
  · intro t v hv
    replace hv := (content t).symm.trans hv
    rw [Saved.waiting_append, waits]
    split at hv
    · rename_i same
      subst same
      obtain rfl := Option.some.inj hv
      rw [if_pos rfl]
      exact RowEvent.gathers_stored
        (s := ⟨s.topic, event, m, e.destination.accepted.length⟩) hkey s m
        (h.buffered event.tableId) (h.vacant event.tableId)
    · rename_i other
      rw [if_neg (Ne.symm other), List.append_nil]
      exact h.buffered t v hv
  · intro t none
    replace none := (content t).symm.trans none
    rw [Saved.waiting_append, waits]
    split at none
    · cases none
    · rename_i other
      rw [if_neg (Ne.symm other), List.append_nil]
      exact h.vacant t none
  · intro before w here
    have later : before.length < e.destination.accepted.length := by
      have := here.length_le
      rwa [List.length_append] at this
    rw [Saved.taken_concat later]
    exact h.taken before w here

omit [Destination δ] in
theorem ingest (h : e.GathersRows saved) {s : TopicSettings} {mode : Mode} {now : Instant}
    {m : Message} {more : List Saved} (step : Run.IngestStep e s mode now m e' more) :
    e'.GathersRows (saved ++ more) := by
  cases step with
  | skipped => rwa [List.append_nil]
  | refused =>
    rw [List.append_nil]
    exact h.refuse _ s
  | saved _ hkey _ => exact h.store hkey s m

end GathersRows

end Engine

/-! ## Runs -/

namespace Run

/-- The saved rows of a table that wait for a window to be entered, in order. -/
def waiting (r : Run δ) (t : TableId) : List Saved := Saved.waiting r.saved r.accepted t

/-- The window of every table gathers the rows that wait for it, and so did the windows that were
entered. -/
def GathersRows (r : Run δ) : Prop := r.engine.GathersRows r.saved

omit [Destination δ] in
theorem gathersRows_start (thresholds : Thresholds) (destination : δ)
    (sources : SortedMap String MessageQueue) (retry : RetryPolicy) :
    (start thresholds destination sources retry).GathersRows := by
  refine ⟨?_, List.forall_mem_nil _, ?_, fun _ _ => rfl, ?_⟩
  · intro t b hb
    cases hb
  · intro t w hw
    cases hw
  · intro before w entered
    exact absurd (List.prefix_nil.1 entered) (List.append_ne_nil_of_right_ne_nil _ nofun)

namespace GathersRows

variable {r : Run δ}

omit [Destination δ] in
theorem push (h : r.GathersRows) (t : String) (partition : Int) (key value : Option ByteArray) :
    (r.push t partition key value).GathersRows :=
  h.frame rfl rfl

omit [Destination δ] in
theorem process (h : r.GathersRows) (s : TopicSettings) (mode : Mode) (now : Instant) :
    (r.process s mode now).GathersRows := by
  cases hm : r.next? s.topic with
  | none => rwa [process_of_none hm]
  | some m =>
    obtain ⟨q, q', more, -, -, step, saved⟩ := process_of_message hm mode now
    have read : (advanced r.engine s.topic q').GathersRows r.saved := h.frame rfl rfl
    unfold GathersRows
    rw [saved]
    exact read.ingest step

theorem flush (h : r.GathersRows) (order : FlushOrder) (now : Nat) :
    (r.flush order now).GathersRows :=
  Engine.GathersRows.flush h order now

variable {r' : Run δ} {topic : String} {own : TableId → Prop}

omit [Destination δ] in
theorem intake (h : r.GathersRows) (step : Intake topic own r r') : r'.GathersRows := by
  cases step with
  | push t partition key value => exact h.push t partition key value
  | process s mode now _ => exact h.process s mode now

omit [Destination δ] in
theorem takes (h : r.GathersRows) (path : Takes topic own r r') : r'.GathersRows := by
  induction path with
  | refl => exact h
  | tail _ step ih => exact ih.intake step

/-- A run goes on gathering the rows that wait. -/
theorem reaches (h : r.GathersRows) (path : Reaches topic own r r') : r'.GathersRows := by
  induction path with
  | refl => exact h
  | tail _ step ih =>
    cases step with
    | intake intake => exact ih.intake intake
    | flush order now => exact ih.flush order now

end GathersRows

end Run

end ChangeCapture
