import ChangeCapture.Proofs.Engine.Following
import ChangeCapture.Trial.Sample

/-!
# Where the flushes fall

A table that is fed with events and flushed now and then, the last time in
full, ends up the same wherever the flushes fall, and whichever of them fail or
are denied their commit (`Feed.converges`).  A row is there if the last event
of its key does not delete it for good.  The columns of a row that is never
deleted for good have the last values that its events carry.
-/

namespace ChangeCapture

namespace RowEvent

/-- The row that an event saves is marked as the event is. -/
theorem marked_of_ofChange {s : TopicSettings} {now : Instant} {key : Row} {c : Change}
    {e : RowEvent} (h : ofChange s .replication now key c = .ok e)
    (plain : SystemColumn.deleted ∉ s.columnsToHash) (clear : e.Clear)
    (valid : e.validate = .ok ()) :
    e.savedRow.get? SystemColumn.deleted = some (.bool e.isDelete) := by
  have marked := contains_deleted_of_valid (ofChange_parts h).2.1 valid
  have normal : ColumnName.normalize SystemColumn.deleted = SystemColumn.deleted := by
    decide +kernel
  have value := value?_normalize clear (deleted_of_ofChange h plain marked)
  rw [normal] at value
  rw [get?_savedRow clear, value]
  rfl

end RowEvent

/-! ## Runs -/

/-- An engine over a store with planned failures, with the events that it saved. -/
structure Feed (κ : Type) where
  /-- The engine. -/
  engine : Engine TrialStore κ
  /-- The events that were saved, in order. -/
  saved : List RowEvent

namespace Feed

variable {κ : Type}

/-- An engine before its first event. -/
def start (thresholds : Thresholds) (d : TrialStore) (sources : SortedMap String κ)
    (retry : RetryPolicy) : Feed κ :=
  ⟨.new thresholds d sources retry, []⟩

/-- An event is saved, if it can be. -/
def save (f : Feed κ) (s : TopicSettings) (m : Message) (e : RowEvent) : Feed κ :=
  let (registry, outcome) := e.save s m f.engine.registry
  { engine := { f.engine with registry := registry }
    saved :=
      match outcome with
      | .ok _ => f.saved ++ [e]
      | .error _ => f.saved }

/-- A change is shaped into an event, which is saved. -/
def deliver (f : Feed κ) (s : TopicSettings) (mode : Mode) (now : Instant) (key : Row) (c : Change)
    (m : Message) : Feed κ :=
  match RowEvent.ofChange s mode now key c with
  | .ok e => f.save s m e
  | .error _ => f

/-- Other failures are planned. -/
def plan (f : Feed κ) (failures : Nat) (tableFailures : SortedMap String Nat)
    (deniesCommits : Bool) : Feed κ :=
  { f with
    engine.destination.failures := failures
    engine.destination.tableFailures := tableFailures
    engine.destination.deniesCommits := deniesCommits }

/-- Tables are flushed. -/
def flush [Source κ] (f : Feed κ) (order : FlushOrder) (now : Nat) : Feed κ :=
  { f with engine := (f.engine.flush order now).state }

/-- The stored table of a topic. -/
def stored (f : Feed κ) (s : TopicSettings) (table : String) : StoredTable :=
  f.engine.destination.store.table (.ofTopic s table)

/-- The events of a table. -/
def eventsOf (f : Feed κ) (t : TableId) : List RowEvent :=
  f.saved.filter fun e => decide (e.tableId = t)

/-- The events of a row of a table. -/
def history (f : Feed κ) (t : TableId) (key : String) : List RowEvent :=
  RowEvent.ofKey (f.eventsOf t) key

variable (s : TopicSettings) (table : String)

/-- A step of a run.  The table is fed in replication mode under the settings `s`, with clear
columns. -/
inductive Step [Source κ] : Feed κ → Feed κ → Prop where
  /-- A change is taken in. -/
  | deliver (f : Feed κ) (s' : TopicSettings) (mode : Mode) (now : Instant) (key : Row) (c : Change)
    (m : Message)
    (fits : ∀ e, RowEvent.ofChange s' mode now key c = .ok e → e.tableId = s.tableId table →
      s' = s ∧ mode = .replication ∧ e.Clear) :
    Step f (f.deliver s' mode now key c m)
  /-- Failures are planned, or denials. -/
  | plan (f : Feed κ) (failures : Nat) (tableFailures : SortedMap String Nat)
    (deniesCommits : Bool) : Step f (f.plan failures tableFailures deniesCommits)
  /-- Tables are flushed. -/
  | flush (f : Feed κ) (order : FlushOrder) (now : Nat) : Step f (f.flush order now)

/-- Steps lead from one state of a run to the other. -/
def Reaches [Source κ] : Feed κ → Feed κ → Prop := Relation.ReflTransGen (Step s table)

/-- The store follows the events of the run. -/
def Tracked (f : Feed κ) : Prop :=
  Follows s table f.engine.registry f.engine.destination
    (f.eventsOf (s.tableId table))

/-- The stored table says what the events say. -/
structure Converged (f : Feed κ) : Prop where
  /-- A row is there if and only if the last event of its key does not delete it for good. -/
  rows : ∀ key, (f.stored s table).rows.contains key ↔
    RowEvent.Present s (f.history (s.tableId table) key)
  /-- A column of a row that is never deleted for good has the last value that an event carries. -/
  values : ∀ key, RowEvent.Lasting s (f.history (s.tableId table) key) → ∀ n v,
    RowEvent.settled (f.history (s.tableId table) key) n = some v → v.isNull = false →
      (f.stored s table).value? key n = some v
  /-- If that value is null, or if there is none, the column is absent, null or the placeholder. -/
  blanks : ∀ key, RowEvent.Lasting s (f.history (s.tableId table) key) → ∀ n,
    (∀ v, RowEvent.settled (f.history (s.tableId table) key) n = some v → v.isNull) →
      Json.Blank ((f.stored s table).value? key n)

variable {s table}

/-! ## What runs keep -/

/-- The events of the table, when another event is saved. -/
theorem eventsOf_append (f : Feed κ) (engine : Engine TrialStore κ) (e : RowEvent) (t : TableId) :
    (⟨engine, f.saved ++ [e]⟩ : Feed κ).eventsOf t =
      if e.tableId = t then f.eventsOf t ++ [e] else f.eventsOf t := by
  simp only [eventsOf]
  rw [List.filter_append]
  split <;> simp [*]

variable (s table) in
/-- Something holds of the events of the table, of its window and of what is stored of it. -/
def Keeps (P : List RowEvent → Option Window → StoredTable → Prop) (f : Feed κ) : Prop :=
  Hosts s table (P (f.eventsOf (s.tableId table))) f.engine.registry f.engine.destination

section Keeps

variable {P : List RowEvent → Option Window → StoredTable → Prop} {allowed : RowEvent → Prop}
  {f : Feed κ}

theorem Keeps.save (h : f.Keeps s table P) (stable : SaveStable s allowed P)
    {s' : TopicSettings} {e : RowEvent} (route : e.tableId = ⟨s'.schema, e.table⟩)
    (fits : e.tableId = s.tableId table →
      s' = s ∧ e.mode = .replication ∧ (e.validate = .ok () → allowed e)) (m : Message) :
    (f.save s' m e).Keeps s table P := by
  have kept := Hosts.save stable h route fits (e.save_step s' m f.engine.registry)
  simp only [Keeps, Feed.save]
  cases outcome : (e.save s' m f.engine.registry).2 with
  | error fault =>
    rw [outcome] at kept
    exact kept
  | ok reason =>
    rw [outcome] at kept
    rw [eventsOf_append]
    exact kept

theorem Keeps.deliver (h : f.Keeps s table P) (stable : SaveStable s allowed P)
    {s' : TopicSettings} {mode : Mode} {now : Instant} {key : Row} {c : Change}
    (fits : ∀ e, RowEvent.ofChange s' mode now key c = .ok e → e.tableId = s.tableId table →
      s' = s ∧ mode = .replication ∧ (e.validate = .ok () → allowed e)) (m : Message) :
    (f.deliver s' mode now key c m).Keeps s table P := by
  simp only [Feed.deliver]
  cases made : RowEvent.ofChange s' mode now key c with
  | error fault => exact h
  | ok e =>
    obtain ⟨route, hmode, -⟩ := RowEvent.ofChange_parts made
    refine h.save stable route (fun same => ?_) m
    obtain ⟨settings, mode, allows⟩ := fits e made same
    exact ⟨settings, hmode.trans mode, allows⟩

theorem Keeps.plan (h : f.Keeps s table P) (failures : Nat) (tableFailures : SortedMap String Nat)
    (deniesCommits : Bool) : (f.plan failures tableFailures deniesCommits).Keeps s table P :=
  ⟨h.named, h.placed, h.listed, h.holds⟩

theorem Keeps.flush [Source κ] (h : f.Keeps s table P)
    (stable : FlushStable s (P (f.eventsOf (s.tableId table)))) (order : FlushOrder) (now : Nat) :
    (f.flush order now).Keeps s table P :=
  Hosts.flush stable h order now

end Keeps

/-! ## Following the events -/

theorem tracked_iff_keeps {f : Feed κ} :
    f.Tracked s table ↔ f.Keeps s table fun events w? t => Tracks s w? t events :=
  follows_iff_hosts

theorem tracked_start (thresholds : Thresholds) {d : TrialStore}
    (absent : d.store.tables.get? (.ofTopic s table) = none) (sources : SortedMap String κ)
    (retry : RetryPolicy) : (start thresholds d sources retry).Tracked s table := by
  refine tracked_iff_keeps.2 (Hosts.start thresholds ?_)
  show Tracks s none (d.store.table _) []
  rw [Store.table_of_absent absent]
  exact Tracks.start s

theorem Tracked.step [Source κ] (plain : SystemColumn.deleted ∉ s.columnsToHash) {f f' : Feed κ}
    (h : f.Tracked s table) (step : Step s table f f') : f'.Tracked s table := by
  rw [tracked_iff_keeps] at h ⊢
  cases step with
  | deliver s' mode now key c m fits =>
    refine h.deliver (Tracks.saveStable s) (fun e made same => ?_) m
    obtain ⟨rfl, rfl, clear⟩ := fits e made same
    exact ⟨rfl, rfl, fun valid => ⟨clear, RowEvent.marked_of_ofChange made plain clear valid⟩⟩
  | plan failures tableFailures deniesCommits => exact h.plan failures tableFailures deniesCommits
  | flush order now => exact h.flush (Tracks.flushStable s _) order now

theorem Tracked.reaches [Source κ] (plain : SystemColumn.deleted ∉ s.columnsToHash) {f f' : Feed κ}
    (h : f.Tracked s table) (path : Reaches s table f f') : f'.Tracked s table := by
  induction path with
  | refl => exact h
  | tail _ step ih => exact ih.step plain step

/-- A run keeps which topics have a source. -/
theorem contains_reaches [Source κ] {f f' : Feed κ} (path : Reaches s table f f') (topic : String) :
    f'.engine.sources.contains topic = f.engine.sources.contains topic := by
  induction path with
  | refl => rfl
  | @tail f' _ _ step ih =>
    rw [← ih]
    cases step with
    | deliver s' mode now key c m _ =>
      simp only [deliver]
      cases RowEvent.ofChange s' mode now key c with
      | error fault => rfl
      | ok e => rfl
    | plan failures tableFailures deniesCommits => rfl
    | flush order now => exact f'.engine.contains_flush order now topic

/-! ## The end of a run -/

/-- With no row buffered, the stored table says what the events say. -/
theorem Tracked.converged {f : Feed κ} (h : f.Tracked s table)
    (vacant : f.engine.registry.Vacant (s.tableId table)) : f.Converged s table := by
  have tracks := h.tracks
  rw [vacant.content] at tracks
  exact {
    rows := fun key => tracks.rows key rfl
    values := fun _ lasting _ _ last full => tracks.value_of_settled lasting last full
    blanks := fun _ lasting _ last => tracks.blank_of_settled lasting last }

/-- A run that feeds a table which the store does not have yet, and flushes it now and then, ends
with the table that the events tell once a flush takes the topic and no table of it fails or is
left alone. -/
theorem converges [Source κ] (plain : SystemColumn.deleted ∉ s.columnsToHash)
    {thresholds : Thresholds} {d : TrialStore}
    (absent : d.store.tables.get? (.ofTopic s table) = none) {sources : SortedMap String κ}
    (fed : sources.contains s.topic) {retry : RetryPolicy} {f : Feed κ}
    (path : Reaches s table (start thresholds d sources retry) f) {order : FlushOrder}
    (takes : order.Takes s.topic) {now : Nat}
    (complete : FlushOutcomes.areComplete (f.engine.outcomes order now s.topic)) :
    (f.flush order now).Converged s table := by
  have tracked := (tracked_start thresholds absent sources retry).reaches plain path
  have fed' : f.engine.sources.contains s.topic := (contains_reaches path s.topic).trans fed
  exact (tracked.step plain (.flush f order now)).converged
    ((tracked_iff_keeps.1 tracked).vacant_flush fed' takes complete)

/-! ## A sample run -/

/-- The settings of the sample run. -/
def sampleSettings : TopicSettings := Sample.settings "people"

/-- The key of the sample row. -/
def sampleKey : Row := .ofList [("id", .int 1)]

/-- A change of the sample row. -/
def sampleChange (fields : List (String × Json)) : Change :=
  Sample.change "people" .update (some (sampleKey.insertMany fields))

/-- A change of the sample row is taken in. -/
def sampleDeliver (f : Feed MessageQueue) (fields : List (String × Json)) : Feed MessageQueue :=
  f.deliver sampleSettings .replication ⟨0⟩ sampleKey (sampleChange fields)
    (Sample.message "people" 0 .empty .empty)

/-- Tables are flushed, with failures planned or denials. -/
def sampleFlush (f : Feed MessageQueue) (failures : Nat) (deniesCommits : Bool) :
    Feed MessageQueue :=
  (f.plan failures .empty deniesCommits).flush .shutdown 0

/-- A run before its first step, in which a write is tried once. -/
def sampleStart : Feed MessageQueue :=
  start ⟨10, 100⟩ (.new (.new 1000)) (.ofList [("people", .new "people" .latestPerPartition)])
    (.new 0 0 1 fun _ => true)

/-- A flush fails, the next one is denied its commit, and another one would be allowed it. -/
def sampleFeed : Feed MessageQueue :=
  let named := (sampleStart.sampleDeliver [("name", .string "Ada")]).sampleFlush 1 false
  let aged := named.sampleDeliver [("name", .string Json.unavailable), ("age", .int 36)]
  (aged.sampleFlush 0 true).plan 0 .empty false

theorem reaches_sampleFlush (f : Feed MessageQueue) (failures : Nat) (deniesCommits : Bool) :
    Reaches sampleSettings "people" f (f.sampleFlush failures deniesCommits) :=
  .tail (.single (.plan f failures .empty deniesCommits)) (.flush _ .shutdown 0)

theorem reaches_sampleDeliver (f : Feed MessageQueue) {fields : List (String × Json)}
    (distinct : ((RowEvent.collectData sampleSettings .replication (sampleChange fields) sampleKey
      ⟨0⟩).keys.map ColumnName.normalize).Nodup)
    (named : "" ∉ (RowEvent.collectData sampleSettings .replication (sampleChange fields) sampleKey
      ⟨0⟩).keys.map ColumnName.normalize) :
    Reaches sampleSettings "people" f (f.sampleDeliver fields) := by
  refine .single (.deliver f sampleSettings .replication ⟨0⟩ sampleKey (sampleChange fields) _ ?_)
  intro e made _
  obtain ⟨-, -, -, hints, data, collected, shaped⟩ := RowEvent.ofChange_parts made
  obtain rfl := Except.ok.inj collected
  have same : e.data = RowEvent.collectData sampleSettings .replication (sampleChange fields)
    sampleKey ⟨0⟩ := shaped
  refine ⟨rfl, rfl, ?_, ?_, ?_⟩
  · rw [same]
    exact distinct
  · intro n mem empty
    rw [same] at mem
    exact named (List.mem_map.2 ⟨n, mem, empty⟩)
  · intro h hh
    rw [hints] at hh
    cases hh

theorem converges_sampleFeed :
    (sampleFeed.saved.length = 2 ∧ sampleFeed.engine.destination.store.merges = 1) ∧
      (sampleFeed.flush .shutdown 0).Converged sampleSettings "people" := by
  refine ⟨by decide +kernel, ?_⟩
  have first : Reaches sampleSettings "people" sampleStart
      ((sampleStart.sampleDeliver [("name", .string "Ada")]).sampleFlush 1 false) :=
    (reaches_sampleDeliver _ (by decide +kernel) (by decide +kernel)).trans
      (reaches_sampleFlush _ 1 false)
  have path : Reaches sampleSettings "people" sampleStart sampleFeed :=
    (first.trans (reaches_sampleDeliver _ (by decide +kernel) (by decide +kernel))).trans
      ((reaches_sampleFlush _ 0 true).tail (.plan _ 0 .empty false))
  have complete : FlushOutcomes.areComplete
      (sampleFeed.engine.outcomes .shutdown 0 sampleSettings.topic) := by
    decide +kernel
  have takes : FlushOrder.shutdown.Takes sampleSettings.topic := by
    intro t ht
    cases ht
  exact converges (by decide) rfl (by decide +kernel) path takes complete

end Feed

end ChangeCapture
