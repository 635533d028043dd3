import ChangeCapture.Proofs.Engine.Following
import ChangeCapture.Proofs.Engine.Gathered

/-!
# Appends in order

A table in history mode is appended to.  The rows that were entered for it,
followed by those that are buffered, are the saved ones in order, each of them
once, and a table of the store has just the rows of the windows that went to it
(`Run.appends_in_order`).  A write that fails, as planned or since a row fits
into no batch, leaves the window and the store as they are.
-/

namespace ChangeCapture

/-! ## The store -/

/-- The rows that a window appends to a table of the destination. -/
def Window.appendsTo (w : Window) (p : TablePath) : List Row :=
  if w.mode = .history ∧ w.path = p then w.rows else []

theorem Window.appendsTo_of_ne {w : Window} {p : TablePath} (ne : w.path ≠ p) :
    w.appendsTo p = [] :=
  if_neg fun h => ne h.2

namespace Store

theorem appended_merge (s : Store) (w : Window) (p : TablePath) :
    ((s.merge w).table p).appended = (s.table p).appended := by
  by_cases same : p = w.path
  · rw [same, table_merge_self]
    rfl
  · rw [table_merge_of_ne s same]

end Store

namespace TrialStore

/-- A write that does not fail appends the rows of its window to the table of the window. -/
theorem appended_write {s s' : TrialStore} {w : Window} {b : Bool}
    (h : Destination.write s w = (.ok b, s')) (p : TablePath) :
    (s'.store.table p).appended = (s.store.table p).appended ++ w.appendsTo p := by
  by_cases same : w.path = p
  · subst same
    rcases write_cases h with ⟨⟨f, hf⟩, -⟩ | ⟨-, written⟩
    · cases hf
    · unfold Window.appendsTo
      cases hm : w.mode with
      | replication =>
        rw [hm] at written
        rw [written, Store.appended_merge, if_neg (fun h => nomatch h.1), List.append_nil]
      | history =>
        rw [hm] at written
        rw [Store.appended_append written, if_pos ⟨rfl, rfl⟩]
  · rw [table_write_of_ne h (Ne.symm same), Window.appendsTo_of_ne same, List.append_nil]

end TrialStore

/-- A write in history mode that does not fail allows a commit. -/
theorem Destination.write_history {δ : Type} [Destination δ] {d d' : δ} {w : Window} {b : Bool}
    (mode : w.mode = .history) (h : write d w = (.ok b, d')) : b = true := by
  unfold write at h
  rw [mode] at h
  have outcome : (append d w).1.map (fun () => true) = .ok b := (Prod.mk.inj h).1
  revert outcome
  cases (append d w).1 with
  | error f => exact nofun
  | ok _ => exact fun outcome => (Except.ok.inj outcome).symm

/-! ## The store behind the windows entered -/

/-- Every table of the store has what it had before and the rows of the windows entered. -/
def Ledger.Appended (before : TablePath → List Row) (l : Ledger TrialStore) : Prop :=
  ∀ p, (l.destination.store.table p).appended =
    before p ++ l.accepted.flatMap fun w => w.appendsTo p

namespace Ledger.Appended

variable {before : TablePath → List Row} {l l' : Ledger TrialStore} {w : Window}

theorem probes (h : l.Appended before) (path : Destination.Probes w l l') :
    l'.Appended before := by
  intro p
  rw [TrialStore.store_probes (probes_destination path), accepted_probes path]
  exact h p

/-- A write appends the rows of its window.  Only a merge is denied its commit, and it appends
nothing. -/
theorem write (h : l.Appended before) {b : Bool} (wrote : Destination.write l w = (.ok b, l')) :
    l'.Appended before := by
  intro p
  rw [TrialStore.appended_write (write_destination wrote), accepted_write wrote, h p,
    List.append_assoc]
  cases b with
  | true => simp [enter]
  | false =>
    have merges : w.appendsTo p = [] := if_neg fun h => by
      cases Destination.write_history h.1 wrote
    rw [merges, List.append_nil]
    rfl

end Ledger.Appended

namespace Engine

theorem TableStep.appended {e e' : Engine (Ledger TrialStore) MessageQueue} {t : TableId}
    {cooldown : Option Nat} {now : Nat} {outcome : Outcome TableFlush}
    {before : TablePath → List Row} (h : e.destination.Appended before)
    (step : TableStep e t cooldown now e' outcome) : e'.destination.Appended before := by
  cases step with
  | nothing _ => exact h
  | cooled _ _ _ => exact h
  | unknown _ probes _ => exact h.probes probes
  | failed _ tells _ => exact h.probes tells.probes
  | denied _ tells write => exact (h.probes tells.probes).write write
  | written _ tells write _ => exact (h.probes tells.probes).write write

end Engine

/-! ## Rows of a table -/

/-- The saved rows of a table. -/
def Saved.ofTable (saved : List Saved) (t : TableId) : List Saved :=
  saved.filter (·.event.tableId == t)

/-- The windows of a table. -/
def Window.ofTable (ws : List Window) (t : TableId) : List Window := ws.filter (·.tableId == t)

theorem Saved.ofTable_concat (saved : List Saved) (s : Saved) (t : TableId) :
    ofTable (saved ++ [s]) t = ofTable saved t ++ if s.event.tableId = t then [s] else [] := by
  simp [ofTable, List.filter_singleton]

theorem Window.ofTable_concat (ws : List Window) (w : Window) (t : TableId) :
    ofTable (ws ++ [w]) t = ofTable ws t ++ if w.tableId = t then [w] else [] := by
  simp [ofTable, List.filter_singleton]

/-- The window goes to its table, and it is in history mode if the table is `t`. -/
structure Window.Fits (t : TableId) (w : Window) : Prop where
  /-- It goes to the schema of its table. -/
  schema : w.path.schema = w.tableId.schema
  /-- It goes to the name of its table. -/
  name : w.path.name = w.tableId.name
  /-- The table `t` is in history mode. -/
  history : w.tableId = t → w.mode = .history

theorem Window.Fits.adopt {t : TableId} {w : Window} (h : w.Fits t) (columns : ColumnRegistry) :
    Window.Fits t { w with columns := columns } :=
  ⟨h.schema, h.name, h.history⟩

/-- What is appended to the table in a database is what the windows of the table have that went to
the database. -/
theorem Window.flatMap_appendsTo {t : TableId} {ws : List Window} (fit : ∀ w ∈ ws, w.Fits t)
    (database : String) :
    (ws.flatMap fun w => w.appendsTo ⟨database, t.schema, t.name⟩) =
      ((Window.ofTable ws t).filter (·.path.database == database)).flatMap Window.rows := by
  induction ws with
  | nil => rfl
  | cons w rest ih =>
    have ih := ih fun w mem => fit w (List.mem_cons_of_mem _ mem)
    obtain ⟨schema, name, history⟩ := fit w List.mem_cons_self
    unfold Window.ofTable at ih ⊢
    rw [List.flatMap_cons, ih, List.filter_cons]
    by_cases here : w.tableId = t
    · rw [if_pos (beq_iff_eq.2 here), List.filter_cons]
      by_cases there : w.path.database = database
      · have path : w.path = ⟨database, t.schema, t.name⟩ := by
          rw [← there, ← here, ← schema, ← name]
        rw [if_pos (beq_iff_eq.2 there), List.flatMap_cons, Window.appendsTo,
          if_pos ⟨history here, path⟩]
      · have elsewhere : w.path ≠ ⟨database, t.schema, t.name⟩ :=
          fun same => there (congrArg TablePath.database same)
        rw [if_neg (mt beq_iff_eq.1 there), Window.appendsTo_of_ne elsewhere, List.nil_append]
    · have elsewhere : w.path ≠ ⟨database, t.schema, t.name⟩ := by
        intro same
        rw [same] at schema name
        exact here (by cases t; exact congrArg₂ TableId.mk schema.symm name.symm)
      rw [if_neg (mt beq_iff_eq.1 here), Window.appendsTo_of_ne elsewhere, List.nil_append]

/-! ## The invariant -/

namespace Engine

/-- The rows of the table were entered or wait, in order, and the store has those entered. -/
structure LogsRows (e : Engine (Ledger TrialStore) MessageQueue) (saved : List Saved) (t : TableId)
    (before : TablePath → List Row) : Prop where
  /-- The windows gather the rows that wait. -/
  gathers : e.GathersRows saved
  /-- The store has the rows of the windows entered. -/
  appended : e.destination.Appended before
  /-- The windows go to their tables. -/
  placed : ∀ t' w, e.registry.content t' = some w → w.Fits t
  /-- The windows that were entered went to their tables. -/
  entered : ∀ w ∈ e.destination.accepted, w.Fits t
  /-- The rows of the table were entered or wait, in order. -/
  log : (Window.ofTable e.destination.accepted t).flatMap Window.rows ++
    Saved.rows (Saved.waiting saved e.destination.accepted t) = Saved.rows (Saved.ofTable saved t)

namespace LogsRows

variable {e e' : Engine (Ledger TrialStore) MessageQueue} {saved : List Saved} {t : TableId}
  {before : TablePath → List Row}

theorem tableStep (h : e.LogsRows saved t before) {t' : TableId} {cooldown : Option Nat}
    {now : Nat} {outcome : Outcome TableFlush} (step : TableStep e t' cooldown now e' outcome) :
    e'.LogsRows saved t before := by
  have placed : ∀ t' w, e'.registry.content t' = some w → w.Fits t := by
    intro t' v hv
    obtain ⟨w, columns, hw, rfl⟩ := step.descends h.gathers.named t' v hv
    exact (h.placed t' w hw).adopt columns
  have gathers := h.gathers.tableStep step
  have appended := step.appended h.appended
  rcases step.content_cases h.gathers.named with ⟨-, same⟩ | ⟨w, columns, hw, -, -, more⟩
  · refine ⟨gathers, appended, placed, ?_, ?_⟩
    · rw [same]
      exact h.entered
    · rw [same]
      exact h.log
  · have fits := (h.placed t' w hw).adopt columns
    have table : ({ w with columns := columns } : Window).tableId = t' :=
      (h.gathers.buffered t' w hw).1
    have rows : Window.Gathers { w with columns := columns } _ :=
      (h.gathers.buffered t' w hw).2.congr rfl rfl rfl
    generalize ({ w with columns := columns } : Window) = v at more fits table rows
    refine ⟨gathers, appended, placed, ?_, ?_⟩
    · rw [more]
      intro v' mem
      rcases List.mem_append.1 mem with mem | mem
      · exact h.entered v' mem
      · rwa [List.mem_singleton.1 mem]
    · rw [more, Window.ofTable_concat, List.flatMap_append, ← h.log]
      by_cases here : v.tableId = t
      · obtain rfl : t' = t := table.symm.trans here
        rw [Saved.waiting_enter_self h.gathers.entered here, if_pos here,
          ← rows.rows (fits.history here)]
        simp [Saved.rows]
      · rw [Saved.waiting_enter_of_ne h.gathers.entered here, if_neg here]
        simp

theorem frame (h : e.LogsRows saved t before) (registry : e'.registry = e.registry)
    (accepted : e'.destination.accepted = e.destination.accepted)
    (store : e'.destination.destination.store = e.destination.destination.store) :
    e'.LogsRows saved t before := by
  refine ⟨h.gathers.frame registry accepted, fun p => ?_, ?_, ?_, ?_⟩
  · rw [store, accepted]
    exact h.appended p
  · rw [registry]
    exact h.placed
  · rw [accepted]
    exact h.entered
  · rw [accepted]
    exact h.log

theorem flush (h : e.LogsRows saved t before) (order : FlushOrder) (now : Nat) :
    (e.flush order now).state.LogsRows saved t before := by
  refine flush_induct
    (P := fun e : Engine (Ledger TrialStore) MessageQueue => e.LogsRows saved t before) now
    (fun step kept => kept.tableStep step) (fun {e topic source} _ outcomes kept => ?_) e order h
  obtain ⟨registry, destination⟩ := settle_keeps e topic source outcomes
  exact kept.frame registry (congrArg Ledger.accepted destination)
    (congrArg (fun l : Ledger TrialStore => l.destination.store) destination)

theorem refuse (h : e.LogsRows saved t before) (event : RowEvent) (s : TopicSettings) :
    LogsRows
      { e with registry := e.registry.putWindow event.tableId s.topic (event.opened s e.registry) }
      saved t before := by
  refine ⟨h.gathers.refuse event s, h.appended, ?_, h.entered, h.log⟩
  intro t' v hv
  obtain ⟨w, columns, hw, rfl⟩ :=
    (e.registry.recolumns_opened event s s.topic).descends t' v hv
  exact (h.placed t' w hw).adopt columns

/-- The window that an event is saved into goes to its table. -/
theorem fits_stored (h : e.LogsRows saved t before) {event : RowEvent} {s : TopicSettings}
    (here : event.tableId = ⟨s.schema, event.table⟩)
    (history : event.tableId = t → event.mode = .history) (m : Message) {key : String}
    (table : (event.stored s m e.registry key).tableId = event.tableId) :
    (event.stored s m e.registry key).Fits t := by
  obtain ⟨-, mode, path, -⟩ := event.stored_frame s m e.registry key
  have buffered : ∀ b w, e.registry.Holds event.tableId b w →
      w.tableId = event.tableId ∧ w.Fits t := fun b w holds =>
    ⟨(h.gathers.buffered _ w holds.content).1, h.placed _ w holds.content⟩
  obtain ⟨schema, name⟩ := RowEvent.path_opened here fun b w holds => by
    obtain ⟨table, fits⟩ := buffered b w holds
    rw [← table]
    exact ⟨fits.schema, fits.name⟩
  refine ⟨?_, ?_, fun own => ?_⟩
  · rw [path, table, schema]
  · rw [path, table, name]
  · rw [table] at own
    rw [mode]
    rcases event.opened_cases s e.registry with ⟨-, fresh⟩ | ⟨b, w, holds, old⟩
    · rw [fresh]
      exact history own
    · obtain ⟨table, fits⟩ := buffered b w holds
      rw [old]
      exact fits.history (table.trans own)

theorem store (h : e.LogsRows saved t before) {event : RowEvent} {s : TopicSettings}
    (here : event.tableId = ⟨s.schema, event.table⟩)
    (history : event.tableId = t → event.mode = .history) {key : String}
    (hkey : event.savedKey = .ok key) (m : Message) :
    LogsRows
      { e with
        registry := e.registry.putWindow event.tableId s.topic (event.stored s m e.registry key) }
      (saved ++ [⟨s.topic, event, m, e.destination.accepted.length⟩]) t before := by
  have gathers := h.gathers.store hkey s m
  have content := e.registry.content_stored event s m key s.topic
  refine ⟨gathers, h.appended, ?_, h.entered, ?_⟩
  · intro t' w hw
    have table := (gathers.buffered t' w hw).1
    replace hw := (content t').symm.trans hw
    split at hw
    · rename_i same
      obtain rfl := Option.some.inj hw
      exact h.fits_stored here history m (table.trans same)
    · exact h.placed t' w hw
  · show _ ++ Saved.rows (Saved.waiting (saved ++ _) e.destination.accepted t) = _
    rw [Saved.waiting_append, Saved.waiting_singleton rfl, Saved.ofTable_concat]
    unfold Saved.rows
    rw [List.map_append, List.map_append, ← List.append_assoc]
    exact congrArg (· ++ _) h.log

end LogsRows

end Engine

/-! ## Runs -/

namespace Run

/-- An event is saved, if it can be. -/
def save (r : Run TrialStore) (s : TopicSettings) (m : Message) (event : RowEvent) :
    Run TrialStore :=
  let (registry, outcome) := event.save s m r.engine.registry
  { engine := { r.engine with registry := registry }
    saved :=
      match outcome with
      | .ok _ => r.saved ++ [⟨s.topic, event, m, r.accepted.length⟩]
      | .error _ => r.saved }

/-- Other failures are planned. -/
def plan (r : Run TrialStore) (failures : Nat) (tableFailures : SortedMap String Nat)
    (deniesCommits : Bool) : Run TrialStore :=
  { r with
    engine.destination.destination.failures := failures
    engine.destination.destination.tableFailures := tableFailures
    engine.destination.destination.deniesCommits := deniesCommits }

/-- A step of saves and flushes.  The table `t` is fed in history mode. -/
inductive LogStep (t : TableId) : Run TrialStore → Run TrialStore → Prop where
  /-- An event is saved, if it can be. -/
  | save (r : Run TrialStore) (s : TopicSettings) (m : Message) (event : RowEvent)
    (here : event.tableId = ⟨s.schema, event.table⟩)
    (history : event.tableId = t → event.mode = .history) : LogStep t r (r.save s m event)
  /-- Failures are planned, or denials. -/
  | plan (r : Run TrialStore) (failures : Nat) (tableFailures : SortedMap String Nat)
    (deniesCommits : Bool) : LogStep t r (r.plan failures tableFailures deniesCommits)
  /-- Tables are flushed. -/
  | flush (r : Run TrialStore) (order : FlushOrder) (now : Nat) : LogStep t r (r.flush order now)

/-- Saves and flushes lead from one state of a run to the other. -/
def Logs (t : TableId) : Run TrialStore → Run TrialStore → Prop :=
  Relation.ReflTransGen (LogStep t)

/-- The rows that the destination has of a table in a database, in order. -/
def appendedTo (r : Run TrialStore) (p : TablePath) : List Row :=
  (r.engine.destination.destination.store.table p).appended

/-- The rows that are buffered for a table, in order. -/
def bufferedRows (r : Run TrialStore) (t : TableId) : List Row :=
  match r.engine.registry.content t with
  | some w => w.rows
  | none => []

/-- The windows of a table that were entered, in order. -/
def enteredOf (r : Run TrialStore) (t : TableId) : List Window := Window.ofTable r.accepted t

/-- The rows that were saved for a table, in order. -/
def savedRows (r : Run TrialStore) (t : TableId) : List Row :=
  Saved.rows (Saved.ofTable r.saved t)

/-- The rows of a table are appended in order, each of them once.  The destination had the rows
`before`. -/
structure AppendsInOrder (r : Run TrialStore) (t : TableId) (before : TablePath → List Row) :
    Prop where
  /-- The rows of the windows entered and those that are buffered are the saved ones. -/
  log : (r.enteredOf t).flatMap Window.rows ++ r.bufferedRows t = r.savedRows t
  /-- The table has the rows of the windows that went to its database. -/
  stored : ∀ database, r.appendedTo ⟨database, t.schema, t.name⟩ =
    before ⟨database, t.schema, t.name⟩ ++
      ((r.enteredOf t).filter (·.path.database == database)).flatMap Window.rows
  /-- If all windows went to one database, the rows of the table there and those that are buffered
  are the saved ones. -/
  whole : ∀ database, (∀ w ∈ r.enteredOf t, w.path.database = database) →
    r.appendedTo ⟨database, t.schema, t.name⟩ ++ r.bufferedRows t =
      before ⟨database, t.schema, t.name⟩ ++ r.savedRows t

variable {t : TableId} {before : TablePath → List Row} {r r' : Run TrialStore}

theorem logsRows_start (t : TableId) (thresholds : Thresholds) (d : TrialStore)
    (sources : SortedMap String MessageQueue) (retry : RetryPolicy) :
    (start thresholds d sources retry).engine.LogsRows
      (start thresholds d sources retry).saved t fun p => (d.store.table p).appended := by
  refine ⟨gathersRows_start thresholds d sources retry, ?_, ?_, List.forall_mem_nil _, rfl⟩
  · intro p
    exact (List.append_nil _).symm
  · intro t' w hw
    cases hw

theorem logsRows_save (h : r.engine.LogsRows r.saved t before) {s : TopicSettings} (m : Message)
    {event : RowEvent} (here : event.tableId = ⟨s.schema, event.table⟩)
    (history : event.tableId = t → event.mode = .history) :
    (r.save s m event).engine.LogsRows (r.save s m event).saved t before := by
  have step := event.save_step s m r.engine.registry
  unfold save
  revert step
  generalize event.save s m r.engine.registry = result
  obtain ⟨registry, outcome⟩ := result
  intro step
  cases step with
  | invalid f breaks => exact h
  | refused f valid => exact h.refuse event s
  | saved valid hkey opens visits => exact h.store here history hkey m

theorem logsRows_logs (h : r.engine.LogsRows r.saved t before) (path : Logs t r r') :
    r'.engine.LogsRows r'.saved t before := by
  induction path with
  | refl => exact h
  | tail _ step ih =>
    cases step with
    | save s m event here history => exact logsRows_save ih m here history
    | plan failures tableFailures deniesCommits => exact ih.frame rfl rfl rfl
    | flush order now => exact ih.flush order now

/-- In every state of a run of saves and flushes, whichever writes fail, the rows of a table in
history mode are appended in order, each of them once. -/
theorem appends_in_order {thresholds : Thresholds} {d : TrialStore}
    {sources : SortedMap String MessageQueue} {retry : RetryPolicy}
    (path : Logs t (start thresholds d sources retry) r) :
    r.AppendsInOrder t fun p => (d.store.table p).appended := by
  have h := logsRows_logs (logsRows_start t thresholds d sources retry) path
  have buffered : r.bufferedRows t = Saved.rows (r.waiting t) := by
    unfold bufferedRows
    cases content : r.engine.registry.content t with
    | none =>
      have none : r.waiting t = [] := h.gathers.vacant t content
      rw [none]
      rfl
    | some w =>
      obtain ⟨table, gathers⟩ := h.gathers.buffered t w content
      exact gathers.rows ((h.placed t w content).history table)
  have log : (r.enteredOf t).flatMap Window.rows ++ r.bufferedRows t = r.savedRows t := by
    rw [buffered]
    exact h.log
  have stored : ∀ database, r.appendedTo ⟨database, t.schema, t.name⟩ =
      (d.store.table ⟨database, t.schema, t.name⟩).appended ++
        ((r.enteredOf t).filter (·.path.database == database)).flatMap Window.rows := by
    intro database
    refine (h.appended ⟨database, t.schema, t.name⟩).trans ?_
    rw [Window.flatMap_appendsTo h.entered database]
    rfl
  refine ⟨log, stored, fun database one => ?_⟩
  have all : (r.enteredOf t).filter (·.path.database == database) = r.enteredOf t :=
    List.filter_eq_self.2 fun w mem => beq_iff_eq.2 (one w mem)
  rw [stored, all, List.append_assoc, log]

/-- The table of the sample run. -/
def sampleTable : TableId := ⟨"public", "orders__history"⟩

/-- A change in history mode. -/
def sampleEvent (id : Int) : RowEvent where
  table := "orders__history"
  tableId := sampleTable
  data := .ofList [("id", .int id)]
  hints := none
  columns := none
  isDelete := false
  primaryKeys := ["id"]
  time := ⟨0⟩
  mode := .history

/-- A change in history mode is saved. -/
def sampleSave (r : Run TrialStore) (id : Int) : Run TrialStore :=
  r.save (Sample.settings "orders") (Sample.message "orders" id .empty .empty) (sampleEvent id)

theorem logs_sampleSave (r : Run TrialStore) (id : Int) :
    Logs sampleTable r (r.sampleSave id) :=
  .single (.save r _ _ (sampleEvent id) rfl fun _ => rfl)

/-- A run before its first step, in which a write is tried once. -/
def sampleBlank : Run TrialStore :=
  start ⟨10, 100⟩ (.new (.new 1000)) (.ofList [("orders", .new "orders" .latestPerPartition)])
    (.new 0 0 1 fun _ => true)

/-- The flush of a row fails. -/
def sampleFailed : Run TrialStore :=
  ((sampleBlank.sampleSave 1).plan 1 .empty false).flush .shutdown 0

/-- The row is flushed with another one, and a third one is buffered. -/
def sampleRetried : Run TrialStore :=
  ((sampleFailed.sampleSave 2).flush .shutdown 0).sampleSave 3

theorem appends_in_order_sampleRetried :
    ((sampleRetried.engine.destination.destination.counts.failures = 1 ∧
        (sampleRetried.appendedTo ⟨"shop", "public", "orders__history"⟩).length = 2) ∧
      (sampleRetried.bufferedRows sampleTable).length = 1) ∧
      sampleRetried.AppendsInOrder sampleTable fun p =>
        ((TrialStore.new (.new 1000)).store.table p).appended := by
  refine ⟨by decide +kernel, ?_⟩
  have failed : Logs sampleTable sampleBlank sampleFailed :=
    ((logs_sampleSave sampleBlank 1).tail (.plan _ 1 .empty false)).tail (.flush _ .shutdown 0)
  have flushed := (failed.trans (logs_sampleSave sampleFailed 2)).tail (.flush _ .shutdown 0)
  exact appends_in_order (flushed.trans (logs_sampleSave _ 3))

end Run

end ChangeCapture
