import ChangeCapture.Proofs.Engine.Interchange
import ChangeCapture.Proofs.Engine.Topics
import ChangeCapture.Trial.Sample

/-!
# The states of an engine

An engine starts without a table.  It takes in messages and flushes tables, and the
destination and the sources change as they like (`Engine.Reachable`).  In every state
that is reached so, every window stands at the place of its table
(`Engine.Reachable.apart`), and every topic that is listed has a table
(`Engine.Reachable.peopled`).
-/

namespace ChangeCapture

/-! ## Windows at their places -/

namespace TableRegistry

variable {r : TableRegistry}

theorem Apart.new (thresholds : Thresholds) : (TableRegistry.new thresholds).Apart := by
  refine ⟨.new thresholds, fun t b w hb => ?_⟩
  cases hb

theorem Apart.putWindow (h : r.Apart) {t : TableId} (fed : String) {w : Window}
    (table : w.tableId = t) (tidy : w.Tidy)
    (place : w.path.schema = t.schema ∧ w.path.name = t.name) : (r.putWindow t fed w).Apart := by
  refine ⟨h.orderly.putWindow fed table tidy, fun t' b v hb hv => ?_⟩
  rw [get?_putWindow] at hb
  split at hb
  · rename_i same
    obtain rfl := Option.some.inj hb
    obtain rfl := Option.some.inj hv
    rw [same]
    exact place
  · exact h.placed t' b v hb hv

/-- An event is saved into a window at the place of its table. -/
theorem Apart.save (h : r.Apart) {event : RowEvent} {s : TopicSettings} {m : Message}
    {r' : TableRegistry} {outcome : Outcome (Option FlushReason)}
    (route : event.tableId = ⟨s.schema, event.table⟩) (step : event.SaveStep s m r r' outcome) :
    r'.Apart := by
  have arranged := h.orderly.arranged s.topic
  have place := RowEvent.path_opened (r := r) route
    fun b w holds => h.placed _ b w holds.buffer holds.window
  cases step with
  | invalid => exact h
  | refused =>
    exact h.putWindow _ (RowEvent.tableId_opened arranged) (RowEvent.tidy_opened arranged) place
  | saved =>
    refine h.putWindow _ (RowEvent.tableId_stored arranged) (RowEvent.tidy_stored arranged) ?_
    rw [(event.stored_frame s m r _).2.2.1]
    exact place

theorem Apart.ingest (h : r.Apart) (s : TopicSettings) (mode : Mode) (now : Instant)
    (m : Message) : (r.ingest s mode now m).1.Apart := by
  unfold TableRegistry.ingest
  cases shaped : RowEvent.ofMessage s mode now m with
  | error f => exact h
  | ok event? =>
    cases event? with
    | none => exact h
    | some event =>
      exact h.save (RowEvent.tableId_ofMessage shaped).1 (event.save_step s m r)

/-! ## Topics with tables -/

/-- Every topic that is listed has a table. -/
def Peopled (r : TableRegistry) : Prop :=
  ∀ topic tables, r.topics.get? topic = some tables → tables ≠ []

theorem Peopled.new (thresholds : Thresholds) : (TableRegistry.new thresholds).Peopled := nofun

theorem Peopled.putWindow (h : r.Peopled) (t : TableId) (fed : String) (w : Window) :
    (r.putWindow t fed w).Peopled := by
  intro topic tables ht
  have ht : (r.register t fed).topics.get? topic = some tables := ht
  unfold register at ht
  split at ht
  · exact h topic tables ht
  · rw [SortedMap.get?_insert] at ht
    split at ht
    · simp [← Option.some.inj ht]
    · exact h topic tables ht

theorem Peopled.save (h : r.Peopled) {event : RowEvent} {s : TopicSettings} {m : Message}
    {r' : TableRegistry} {outcome : Outcome (Option FlushReason)}
    (step : event.SaveStep s m r r' outcome) : r'.Peopled := by
  cases step with
  | invalid => exact h
  | refused => exact h.putWindow _ _ _
  | saved => exact h.putWindow _ _ _

theorem Peopled.ingest (h : r.Peopled) (s : TopicSettings) (mode : Mode) (now : Instant)
    (m : Message) : (r.ingest s mode now m).1.Peopled := by
  unfold TableRegistry.ingest
  cases RowEvent.ofMessage s mode now m with
  | error f => exact h
  | ok event? =>
    cases event? with
    | none => exact h
    | some event => exact h.save (event.save_step s m r)

/-- A topic is listed if and only if it owns a table. -/
theorem Peopled.mem_topics_iff (h : r.Peopled) (topic : String) :
    topic ∈ r.topics.toList.map Prod.fst ↔ r.tablesOf topic ≠ [] := by
  constructor
  · intro mem
    obtain ⟨⟨topic, tables⟩, isIn, rfl⟩ := List.mem_map.1 mem
    have ht := SortedMap.get?_eq_some_iff.2 isIn
    simpa [tablesOf, SortedMap.getD, ht] using h topic tables ht
  · intro owns
    cases ht : r.topics.get? topic with
    | none => simp [tablesOf, SortedMap.getD, ht] at owns
    | some tables => exact List.mem_map_of_mem (SortedMap.get?_eq_some_iff.1 ht)

end TableRegistry

/-! ## Reachable states -/

namespace Engine

variable {δ κ : Type} [Destination δ] [Source κ]

/-- The states that an engine reaches from one before its first message.  A flush may be over
before anything else takes place, or messages are taken in between its tables. -/
inductive Reachable : Engine δ κ → Prop where
  /-- No message was taken in. -/
  | start (thresholds : Thresholds) (d : δ) (sources : SortedMap String κ) (retry : RetryPolicy) :
    Reachable (.new thresholds d sources retry)
  /-- The destination and the sources change from outside. -/
  | outside {e : Engine δ κ} (h : Reachable e) (d : δ) (sources : SortedMap String κ) :
    Reachable { e with destination := d, sources := sources }
  /-- A message is taken in. -/
  | ingest {e : Engine δ κ} (h : Reachable e) (s : TopicSettings) (mode : Mode) (now : Instant)
    (m : Message) : Reachable (e.ingest s mode now m).1
  /-- A table is flushed. -/
  | table {e : Engine δ κ} (h : Reachable e) (t : TableId) (cooldown : Option Nat)
    (now : Nat) : Reachable (e.flushTable t cooldown now).state
  /-- The flush of a topic ends. -/
  | settle {e : Engine δ κ} (h : Reachable e) (topic : String) (source : κ)
    (outcomes : List (Outcome TableFlush)) : Reachable (e.settle topic source outcomes).1
  /-- Tables are flushed as an order says. -/
  | flush {e : Engine δ κ} (h : Reachable e) (order : FlushOrder) (now : Nat) :
    Reachable (e.flush order now).state

variable {e : Engine δ κ}

/-- In a reachable state every window stands at the place of its table. -/
theorem Reachable.apart (h : e.Reachable) : e.registry.Apart := by
  induction h with
  | start thresholds => exact .new thresholds
  | outside _ d sources ih => exact ih
  | ingest _ s mode now m ih => exact ih.ingest s mode now m
  | @table e _ t cooldown now ih => exact (e.flushTable_step t cooldown now).apart ih
  | settle _ topic source outcomes ih => rwa [(settle_keeps _ _ _ outcomes).1]
  | flush _ order now ih =>
    exact flush_induct (P := fun e => e.registry.Apart) now TableStep.apart
      (fun _ outcomes h => by rwa [(settle_keeps _ _ _ outcomes).1]) _ order ih

/-- In a reachable state every topic that is listed has a table. -/
theorem Reachable.peopled (h : e.Reachable) : e.registry.Peopled := by
  induction h with
  | start thresholds => exact .new thresholds
  | outside _ d sources ih => exact ih
  | ingest _ s mode now m ih => exact ih.ingest s mode now m
  | @table e _ t cooldown now ih =>
    intro topic tables
    rw [(e.flushTable_step t cooldown now).frame.1]
    exact ih topic tables
  | settle _ topic source outcomes ih => rwa [(settle_keeps _ _ _ outcomes).1]
  | flush _ order now ih =>
    intro topic tables
    rw [topics_flush]
    exact ih topic tables

/-! ## Sample states -/

/-- An engine with a source for one topic, over a store. -/
def trialStart : Engine TrialStore MessageQueue :=
  .new ⟨100, 100⟩ (.new (.new 1000)) (SortedMap.empty.insert "retail" (.new "retail" .everyMessage))
    (.new 0 0 2 fun _ => true)

/-- The engine after it took in a row of a table from a topic. -/
def trialTake (e : Engine TrialStore MessageQueue) (topic table : String) :
    Engine TrialStore MessageQueue :=
  let key := "\x7b\"id\":1\x7d"
  let source := "\x7b\"table\":\"" ++ table ++ "\"\x7d"
  let value := "\x7b\"op\":\"c\",\"after\":\x7b\"id\":1\x7d,\"source\":" ++ source ++ "\x7d"
  (e.ingest (Sample.settings topic) .replication ⟨0⟩
    (Sample.message topic 0 key.toUTF8 value.toUTF8)).1

theorem reachable_trialTake {e : Engine TrialStore MessageQueue} (h : e.Reachable)
    (topic table : String) : (e.trialTake topic table).Reachable :=
  h.ingest _ _ _ _

/-- The engine after failures of the next writes of a table were planned. -/
def trialPlan (e : Engine TrialStore MessageQueue) (table : String) (count : Nat) :
    Engine TrialStore MessageQueue :=
  { e with destination := e.destination.failNextFor table count, sources := e.sources }

theorem reachable_trialPlan {e : Engine TrialStore MessageQueue} (h : e.Reachable) (table : String)
    (count : Nat) : (e.trialPlan table count).Reachable :=
  h.outside _ _

/-- Two tables of a topic and one of a topic without a source have a row.  The next two writes of
the first one will fail, and then no try is left. -/
def trialFailing : Engine TrialStore MessageQueue :=
  (((trialStart.trialTake "retail" "items").trialTake "retail" "orders").trialTake
    "online" "visits").trialPlan "items" 2

theorem reachable_trialFailing : trialFailing.Reachable := by
  have start : trialStart.Reachable := .start _ _ _ _
  exact reachable_trialPlan (reachable_trialTake (reachable_trialTake
    (reachable_trialTake start "retail" "items") "retail" "orders") "online" "visits") "items" 2

end Engine

end ChangeCapture
