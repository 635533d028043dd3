import ChangeCapture.Proofs.Engine.Bounded
import ChangeCapture.Proofs.Engine.Endings
import ChangeCapture.Proofs.Engine.Reachable
import ChangeCapture.Proofs.Engine.Topics
import ChangeCapture.Proofs.Message.Positions

/-!
# Flushes in any order

A flush may take the topics, and the tables of each topic, in any order (`Reorders`).
Each table ends as it does alone, so the buffers, the destination, the kinds of the
faults and the greatest offsets that are committed are the same
(`Engine.flush_in_any_order`).  All positions that are committed or held are the same
for a topic that acknowledges each partition in one way (`Engine.AcksUniformly`).
Other topics may commit more of them in one order than in another
(`Engine.order_matters_sampleCrossed`).
-/

namespace ChangeCapture

open FlushOutcomes (messages areComplete joined faults kinds)

/-! ## The end of a topic -/

namespace TopicEnd

variable {topic : String} {held : List Message} {outcomes outcomes' : List (Outcome TableFlush)}

theorem kinds_perm (source : Option MessageQueue) (same : outcomes.Perm outcomes') :
    (kinds (TopicEnd.of topic source held outcomes).outcome).Perm
      (kinds (TopicEnd.of topic source held outcomes').outcome) := by
  cases source with
  | none => exact .refl _
  | some q =>
    rw [kinds_of q.accepts, kinds_of q.accepts]
    exact same.flatMap_right _

theorem due_perm (held : List Message) (same : outcomes.Perm outcomes') :
    (messages outcomes ++ held).Perm (messages outcomes' ++ held) :=
  (FlushOutcomes.messages_perm same).append_right held

theorem due_eq_nil_iff (held : List Message) (same : outcomes.Perm outcomes') :
    messages outcomes' ++ held = [] ↔ messages outcomes ++ held = [] :=
  ⟨fun none => (none ▸ due_perm held same).eq_nil,
    fun none => (none ▸ (due_perm held same).symm).eq_nil⟩

theorem queue_perm (source : Option MessageQueue) (same : outcomes.Perm outcomes') :
    (TopicEnd.of topic source held outcomes').source.map MessageQueue.withoutCommits =
      (TopicEnd.of topic source held outcomes).source.map MessageQueue.withoutCommits := by
  cases source with
  | none => rfl
  | some q =>
    simp only [TopicEnd.of, FlushOutcomes.areComplete_perm same, due_eq_nil_iff held same]
    split
    · rfl
    · split
      · exact congrArg some (MessageQueue.commit_perm (due_perm held same) q)
      · rfl

/-- If each partition is acknowledged in one way, the positions at the end of a topic do not depend
on the order of its tables. -/
theorem positions_perm (source : Option MessageQueue)
    (uniform : Message.Uniform (messages outcomes ++ held)) (same : outcomes.Perm outcomes') :
    (TopicEnd.of topic source held outcomes').source.map MessageQueue.commitPositions =
        (TopicEnd.of topic source held outcomes).source.map MessageQueue.commitPositions ∧
      (TopicEnd.of topic source held outcomes').held.map Message.position =
        (TopicEnd.of topic source held outcomes).held.map Message.position := by
  have due := due_perm held same
  cases source with
  | none => exact ⟨rfl, rfl⟩
  | some q =>
    simp only [TopicEnd.of, FlushOutcomes.areComplete_perm same, due_eq_nil_iff held same]
    split
    · exact ⟨rfl, rfl⟩
    · split
      · exact ⟨congrArg some (MessageQueue.commitPositions_perm uniform due q), rfl⟩
      · exact ⟨rfl, Message.positions_perm uniform due⟩

end TopicEnd

/-! ## Other orders -/

/-- The same topics, and the same tables of each, in other orders. -/
def Reorders (topics topics' : List (String × List TableId)) : Prop :=
  ∃ between, List.Forall₂ (fun x y => y.1 = x.1 ∧ x.2.Perm y.2) topics between ∧
    between.Perm topics'

namespace Reorders

variable {topics topics' : List (String × List TableId)}

theorem refl (topics : List (String × List TableId)) : Reorders topics topics :=
  ⟨topics, List.forall₂_same.2 fun _ _ => ⟨rfl, .refl _⟩, .refl _⟩

theorem of_perm (topic : String) {tables tables' : List TableId} (same : tables.Perm tables') :
    Reorders [(topic, tables)] [(topic, tables')] :=
  ⟨[(topic, tables')], .cons ⟨rfl, same⟩ .nil, .refl _⟩

/-- What is the same for two orders of the tables of a topic is the same for all topics. -/
theorem flatMap {α : Type} {f : String × List TableId → List α} (h : Reorders topics topics')
    (same : ∀ x y, y.1 = x.1 → x.2.Perm y.2 → (f x).Perm (f y)) :
    (topics.flatMap f).Perm (topics'.flatMap f) := by
  obtain ⟨between, tables, order⟩ := h
  refine List.Perm.trans ?_ (order.flatMap_right f)
  induction tables generalizing topics' with
  | nil => exact .refl _
  | cons pair _ ih => exact (same _ _ pair.1 pair.2).append (ih (.refl _))

theorem exists_mem (h : Reorders topics topics') {y : String × List TableId}
    (mem : y ∈ topics') : ∃ x ∈ topics, y.1 = x.1 ∧ x.2.Perm y.2 := by
  obtain ⟨between, tables, order⟩ := h
  have mem := order.mem_iff.2 mem
  clear order
  induction tables with
  | nil => cases mem
  | cons pair _ ih =>
    rcases List.mem_cons.1 mem with rfl | mem
    · exact ⟨_, List.mem_cons_self, pair⟩
    · obtain ⟨x, isIn, same⟩ := ih mem
      exact ⟨x, List.mem_cons_of_mem _ isIn, same⟩

theorem names (h : Reorders topics topics') :
    (topics.map Prod.fst).Perm (topics'.map Prod.fst) := by
  simp only [List.map_eq_flatMap]
  exact h.flatMap fun x y name _ => .of_eq (by rw [name])

theorem lists (h : Reorders topics topics') {r : TableRegistry} (lists : Engine.Lists r topics) :
    Engine.Lists r topics' := by
  refine ⟨h.names.nodup_iff.1 lists.once, fun y mem => ?_, fun y mem t isIn => ?_⟩
  · obtain ⟨x, isIn, -, same⟩ := h.exists_mem mem
    exact same.nodup_iff.1 (lists.each x isIn)
  · obtain ⟨x, isIn', name, same⟩ := h.exists_mem mem
    rw [name]
    exact lists.listed x isIn' t (same.mem_iff.2 isIn)

end Reorders

namespace Engine

section Order

variable {δ κ : Type}

/-- If the messages of a topic that wait are of one partition, they are acknowledged in one way. -/
def AcksUniformly (e : Engine δ κ) (topic : String) : Prop :=
  Message.Uniform (e.registry.pending topic ++ e.held.getD topic [])

variable [Destination δ] [Source κ] {e : Engine δ κ} {topic : String}

omit [Source κ] in
theorem messages_subset {tables : List TableId} (cooldown : Option Nat) (now : Nat)
    (listed : ∀ t ∈ tables, t ∈ e.registry.tablesOf topic) :
    messages (tables.map fun t => (e.flushTable t cooldown now).outcome) ⊆
      e.registry.pending topic := by
  intro m mem
  simp only [messages, List.flatMap_map, List.mem_flatMap] at mem
  obtain ⟨t, isIn, mem⟩ := mem
  refine List.mem_flatMap.2 ⟨t, listed t isIn, ?_⟩
  have step := e.flushTable_step t cooldown now
  revert step mem
  generalize (e.flushTable t cooldown now).state = e'
  generalize (e.flushTable t cooldown now).outcome = outcome
  intro mem step
  cases step with
  | nothing _ => cases mem
  | cooled _ _ _ => cases mem
  | unknown _ _ _ => cases mem
  | failed _ _ _ => cases mem
  | denied _ _ _ => cases mem
  | written holds _ _ _ =>
    rw [TableRegistry.messagesOf_of_window holds.buffer holds.window]
    exact mem

/-- Flushes topics in the order given. -/
def flushInOrder (e : Engine δ κ) (cooldown : Option Nat) (now : Nat)
    (topics : List (String × List TableId)) : Timed (Engine δ κ) Unit :=
  let (e, outcomes, paused) := e.flushTopics cooldown now topics
  ⟨e, joined (faults outcomes), paused⟩

/-- A flush goes through the topics that it selects in the order in which they are listed. -/
theorem flush_eq_flushInOrder {order : FlushOrder} {topics : List (String × List TableId)}
    (selected : e.selection order = .ok topics) (now : Nat) :
    e.flush order now = e.flushInOrder order.cooldown now topics := by
  simp only [flush, selected]
  rfl

end Order

/-- Two flushes of one state lead to the same, if messages are told by their positions. -/
structure Agrees (e : Engine PlannedStore MessageQueue)
    (a b : Timed (Engine PlannedStore MessageQueue) Unit) : Prop where
  /-- The buffers are the same, and when they were flushed. -/
  registry : b.state.registry = a.state.registry
  /-- The tables of the destination and its counts are the same. -/
  destination : b.state.destination = a.state.destination
  /-- The pauses are the same. -/
  paused : b.paused = a.paused
  /-- The faults are of the same kinds. -/
  kinds : (kinds a.outcome).Perm (kinds b.outcome)
  /-- The same messages wait at the sources, and the same greatest offsets are committed. -/
  queues : ∀ topic, (b.state.sources.get? topic).map MessageQueue.withoutCommits =
    (a.state.sources.get? topic).map MessageQueue.withoutCommits
  /-- The same positions are committed. -/
  commits : ∀ topic, e.AcksUniformly topic →
    (b.state.sources.get? topic).map MessageQueue.commitPositions =
      (a.state.sources.get? topic).map MessageQueue.commitPositions
  /-- The same positions are held. -/
  held : ∀ topic, e.AcksUniformly topic →
    (b.state.held.getD topic []).map Message.position =
      (a.state.held.getD topic []).map Message.position

section Planned

variable {e : Engine PlannedStore MessageQueue} {topics topics' : List (String × List TableId)}

theorem taken_perm (reorders : Reorders topics topics') :
    (e.taken topics).Perm (e.taken topics') := by
  refine reorders.flatMap fun x y name same => ?_
  rw [name]
  split
  · exact same
  · exact .refl _

theorem kinds_ending {x y : String × List TableId} (name : y.1 = x.1) (same : x.2.Perm y.2)
    (cooldown : Option Nat) (now : Nat) :
    (FlushOutcomes.kinds (e.ending cooldown now x).outcome).Perm
      (FlushOutcomes.kinds (e.ending cooldown now y).outcome) := by
  unfold ending
  rw [name]
  exact TopicEnd.kinds_perm _ (same.map _)

theorem queue_ending {x y : String × List TableId} (name : y.1 = x.1) (same : x.2.Perm y.2)
    (cooldown : Option Nat) (now : Nat) :
    (e.ending cooldown now y).source.map MessageQueue.withoutCommits =
      (e.ending cooldown now x).source.map MessageQueue.withoutCommits := by
  unfold ending
  rw [name]
  exact TopicEnd.queue_perm _ (same.map _)

theorem positions_ending {x y : String × List TableId} (name : y.1 = x.1) (same : x.2.Perm y.2)
    (listed : ∀ t ∈ x.2, t ∈ e.registry.tablesOf x.1) (uniform : e.AcksUniformly x.1)
    (cooldown : Option Nat) (now : Nat) :
    (e.ending cooldown now y).source.map MessageQueue.commitPositions =
        (e.ending cooldown now x).source.map MessageQueue.commitPositions ∧
      (e.ending cooldown now y).held.map Message.position =
        (e.ending cooldown now x).held.map Message.position := by
  unfold ending
  rw [name]
  refine TopicEnd.positions_perm _ (uniform.subset ?_) (same.map _)
  exact List.append_subset.2 ⟨fun m mem =>
    List.mem_append_left _ (messages_subset cooldown now listed mem), List.subset_append_right _ _⟩

/-- A topic ends as its tables tell in both orders, or it is left alone in both. -/
theorem flushTopics_agree (apart : e.registry.Apart) (lists : Lists e.registry topics)
    (reorders : Reorders topics topics') (cooldown : Option Nat) (now : Nat) (topic : String) :
    let a := (e.flushTopics cooldown now topics).1
    let b := (e.flushTopics cooldown now topics').1
    (b.sources.get? topic).map MessageQueue.withoutCommits =
        (a.sources.get? topic).map MessageQueue.withoutCommits ∧
      (e.AcksUniformly topic →
        (b.sources.get? topic).map MessageQueue.commitPositions =
            (a.sources.get? topic).map MessageQueue.commitPositions ∧
          (b.held.getD topic []).map Message.position =
            (a.held.getD topic []).map Message.position) := by
  intro a b
  by_cases listed : topic ∈ topics'.map Prod.fst
  · obtain ⟨y, mem', rfl⟩ := List.mem_map.1 listed
    obtain ⟨x, mem, name, same⟩ := reorders.exists_mem mem'
    obtain ⟨source, held, -⟩ := (flushTopics_endings apart lists cooldown now).2 x mem
    obtain ⟨source', held', -⟩ :=
      (flushTopics_endings apart (reorders.lists lists) cooldown now).2 y mem'
    rw [source', held', name, source, held]
    exact ⟨queue_ending name same cooldown now, fun uniform =>
      positions_ending name same (lists.listed x mem) uniform cooldown now⟩
  · obtain ⟨source, held⟩ := e.flushTopics_frame cooldown now
      fun mem => listed (reorders.names.mem_iff.1 mem)
    obtain ⟨source', held'⟩ := e.flushTopics_frame cooldown now listed
    rw [source', held', source, held]
    exact ⟨rfl, fun _ => ⟨rfl, rfl⟩⟩

/-- Flushes of the same tables agree. -/
theorem flushInOrder_agrees (apart : e.registry.Apart) (lists : Lists e.registry topics)
    (reorders : Reorders topics topics') (cooldown : Option Nat) (now : Nat) :
    e.Agrees (e.flushInOrder cooldown now topics) (e.flushInOrder cooldown now topics') := by
  have once := nodup_taken apart.orderly lists
  have same : (e.taken topics).Perm (e.taken topics') := taken_perm reorders
  have tables := flushTables_perm apart once same cooldown now
  obtain ⟨registry, destination, paused⟩ := e.flushTopics_tables cooldown now topics
  obtain ⟨registry', destination', paused'⟩ := e.flushTopics_tables cooldown now topics'
  have ends := flushTopics_agree apart lists reorders cooldown now
  refine ⟨?_, ?_, ?_, ?_, fun topic => (ends topic).1,
    fun topic uniform => ((ends topic).2 uniform).1,
    fun topic uniform => ((ends topic).2 uniform).2⟩
  · exact registry'.trans (tables ▸ registry.symm)
  · exact destination'.trans (tables ▸ destination.symm)
  · show (e.flushTopics cooldown now topics').2.2 = (e.flushTopics cooldown now topics).2.2
    rw [paused, paused', (flushTables_outcomes apart once cooldown now).2,
      (flushTables_outcomes apart (same.nodup_iff.1 once) cooldown now).2]
    exact ((same.map _).foldr_eq _).symm
  · show (FlushOutcomes.kinds (joined (faults (e.flushTopics cooldown now topics).2.1))).Perm
      (FlushOutcomes.kinds (joined (faults (e.flushTopics cooldown now topics').2.1)))
    rw [FlushOutcomes.kinds_joined, FlushOutcomes.kinds_joined, FlushOutcomes.flatMap_faults,
      FlushOutcomes.flatMap_faults, (flushTopics_endings apart lists cooldown now).1,
      (flushTopics_endings apart (reorders.lists lists) cooldown now).1, List.flatMap_map,
      List.flatMap_map]
    exact reorders.flatMap fun x y name perm => kinds_ending name perm cooldown now

end Planned

end Engine

/-! ## Runs -/

namespace Engine

/-- A step of a run over a store whose failures and denials are planned. -/
inductive Turn : Engine PlannedStore MessageQueue → Engine PlannedStore MessageQueue → Prop where
  /-- Failures and denials are planned. -/
  | plan (e : Engine PlannedStore MessageQueue) (plans : TablePath → WritePlan) :
    Turn e { e with destination := { e.destination with plans := plans } }
  /-- The source of a topic changes by itself, as when messages arrive. -/
  | arrive (e : Engine PlannedStore MessageQueue) (topic : String)
    (f : MessageQueue → MessageQueue) : Turn e { e with sources := e.sources.modify topic f }
  /-- A reader takes in the next message. -/
  | read (e : Engine PlannedStore MessageQueue) (s : TopicSettings) (mode : Mode)
    (now : Instant) : Turn e (e.intake s mode now).1
  /-- A message is taken in that no reader has read. -/
  | take (e : Engine PlannedStore MessageQueue) (s : TopicSettings) (mode : Mode) (now : Instant)
    (m : Message) : Turn e (e.ingest s mode now m).1
  /-- The tables that an order selects are flushed, in one order or another. -/
  | flush (e : Engine PlannedStore MessageQueue) {order : FlushOrder} (now : Nat)
    {topics topics' : List (String × List TableId)} (selected : e.selection order = .ok topics)
    (reorders : Reorders topics topics') :
    Turn e (e.flushInOrder order.cooldown now topics').state

/-- Steps of a run lead from one state to the other. -/
def Turns : Engine PlannedStore MessageQueue → Engine PlannedStore MessageQueue → Prop :=
  Relation.ReflTransGen Turn

variable {e e' : Engine PlannedStore MessageQueue}

theorem Turn.apart (step : Turn e e') (apart : e.registry.Apart) : e'.registry.Apart := by
  cases step with
  | plan plans => exact apart
  | arrive topic f => exact apart
  | read s mode now =>
    rw [← e.registry_read s.topic] at apart
    rcases e.intake_cases s mode now with ⟨same, -⟩ | ⟨m, -, same⟩
    · rwa [same]
    · rw [same]
      exact apart.ingest s mode now m
  | take s mode now m => exact apart.ingest s mode now m
  | flush now selected reorders =>
    exact flushTopics_induct (P := fun e => e.registry.Apart) now TableStep.apart
      (fun _ outcomes h => by rwa [(settle_keeps _ _ _ outcomes).1]) _ _ e apart

theorem Turns.apart {thresholds : Thresholds} {destination : PlannedStore}
    {sources : SortedMap String MessageQueue} {retry : RetryPolicy}
    (run : Turns (.new thresholds destination sources retry) e) : e.registry.Apart := by
  induction run with
  | refl => exact .new thresholds
  | tail _ step ih => exact step.apart ih

/-- In every state of a run, the topics of a flush and the tables of each topic may be taken in any
order.  The buffers, the destination, the kinds of the faults and the greatest offsets that are
committed are the same, and all positions that are committed or held are the same for every topic
that acknowledges each partition in one way.  A table ends as it does alone, and nothing that is
planned for the others tells how. -/
theorem flush_in_any_order {thresholds : Thresholds} {destination : PlannedStore}
    {sources : SortedMap String MessageQueue} {retry : RetryPolicy}
    (run : Turns (.new thresholds destination sources retry) e) {order : FlushOrder}
    {topics topics' : List (String × List TableId)} (selected : e.selection order = .ok topics)
    (reorders : Reorders topics topics') (now : Nat) :
    e.Agrees (e.flush order now) (e.flushInOrder order.cooldown now topics') ∧
      (∀ x ∈ topics', e.tableOutcomes order.cooldown now x.1 topics' =
        x.2.map fun t => (e.flushTable t order.cooldown now).outcome) ∧
      ∀ (t : TableId) (d : PlannedStore),
        (∀ p : TablePath, p.schema = t.schema → p.name = t.name →
          d.site p = e.destination.site p) →
        (({ e with destination := d } : Engine PlannedStore MessageQueue).flushTable t
          order.cooldown now).outcome = (e.flushTable t order.cooldown now).outcome := by
  have apart := run.apart
  have lists := lists_selection apart.orderly selected
  refine ⟨?_, ?_, fun t d same => outcome_of_site apart same _ _⟩
  · rw [flush_eq_flushInOrder selected]
    exact flushInOrder_agrees apart lists reorders _ _
  · intro x mem
    exact ((flushTopics_endings apart (reorders.lists lists) _ _).2 x mem).2.2

/-! ## Sample runs -/

/-- An engine with two topics in one schema, before its first message.  The one is acknowledged up
to an offset and the other message by message. -/
def samplePlanned : Engine PlannedStore MessageQueue :=
  .new ⟨100, 100⟩ ⟨.new 1000, ⟨0, 0, 0, 0, 0⟩, fun _ => ⟨0, 0, false⟩⟩
    ((SortedMap.empty.insert "online" (.new "online" .everyMessage)).insert "retail"
      (.new "retail" .latestPerPartition))
    (.new 0 0 1 fun _ => true)

/-- A row of a table arrives at a topic, and its reader takes it in. -/
def sampleIntake (e : Engine PlannedStore MessageQueue) (topic table : String) :
    Engine PlannedStore MessageQueue :=
  let key := "\x7b\"id\":1\x7d"
  let source := "\x7b\"table\":\"" ++ table ++ "\"\x7d"
  let value := "\x7b\"op\":\"c\",\"after\":\x7b\"id\":1\x7d,\"source\":" ++ source ++ "\x7d"
  let arrived := e.sources.modify topic (·.push 0 (some key.toUTF8) (some value.toUTF8))
  ({ e with sources := arrived }.intake (Sample.settings topic) .replication ⟨0⟩).1

theorem turns_sampleIntake (run : Turns samplePlanned e) (topic table : String) :
    Turns samplePlanned (e.sampleIntake topic table) :=
  .tail (.tail run (.arrive e topic _)) (.read _ _ _ _)

/-- A table of the sample topics. -/
def sampleTable (name : String) : TableId := ⟨"public", name⟩

/-- Two tables in the order in which they came up. -/
def sampleOrder : List (String × List TableId) :=
  [("retail", [sampleTable "items", sampleTable "orders"])]

/-- The two tables in the other order. -/
def sampleReversed : List (String × List TableId) :=
  [("retail", [sampleTable "orders", sampleTable "items"])]

theorem reorders_sampleReversed : Reorders sampleOrder sampleReversed :=
  .of_perm "retail" (.swap ..)

/-- Two tables of a topic have rows, and the next write of the one will fail. -/
def sampleFailing : Engine PlannedStore MessageQueue :=
  let e := (samplePlanned.sampleIntake "retail" "items").sampleIntake "retail" "orders"
  let plans := fun p : TablePath => ⟨0, if p.name = "items" then 1 else 0, false⟩
  { e with destination := { e.destination with plans := plans } }

/-- The write of the one table fails, and the other one is written in either order. -/
theorem flush_in_any_order_sampleFailing :
    sampleFailing.Agrees (sampleFailing.flush .shutdown 0)
        (sampleFailing.flushInOrder none 0 sampleReversed) ∧
      (∀ x ∈ sampleReversed, sampleFailing.tableOutcomes none 0 x.1 sampleReversed =
        x.2.map fun t => (sampleFailing.flushTable t none 0).outcome) ∧
      ((sampleFailing.flush .shutdown 0).state.held.getD "retail" []).map Message.position =
        [(0, 1)] := by
  have run : Turns samplePlanned sampleFailing :=
    .tail (turns_sampleIntake (turns_sampleIntake .refl "retail" "items") "retail" "orders")
      (.plan _ _)
  have topics : sampleFailing.registry.topics.toList = sampleOrder := by decide +kernel
  have selected : sampleFailing.selection .shutdown = .ok sampleOrder := congrArg Except.ok topics
  obtain ⟨agrees, alone, -⟩ := flush_in_any_order run selected reorders_sampleReversed 0
  exact ⟨agrees, alone, by decide +kernel⟩

/-- A topic has flushed a table.  Then another topic of the schema feeds the table, and the topic
itself feeds a second one. -/
def sampleCrossed : Engine PlannedStore MessageQueue :=
  let e := samplePlanned.sampleIntake "retail" "items"
  let e := (e.flushInOrder none 0 [("retail", [sampleTable "items"])]).state
  (e.sampleIntake "online" "items").sampleIntake "retail" "orders"

/-- With both ways to acknowledge in one partition, the positions that are committed depend on the
order of the tables. -/
theorem order_matters_sampleCrossed :
    Turns samplePlanned sampleCrossed ∧
      sampleCrossed.selection .shutdown = .ok sampleOrder ∧
      Reorders sampleOrder sampleReversed ∧
      ((sampleCrossed.flush .shutdown 0).state.sources.get? "retail").map
          MessageQueue.commitPositions =
        some [[(0, 0)], [(0, 1)]] ∧
      ((sampleCrossed.flushInOrder none 0 sampleReversed).state.sources.get? "retail").map
          MessageQueue.commitPositions =
        some [[(0, 0)], [(0, 0), (0, 1)]] := by
  have first : (samplePlanned.sampleIntake "retail" "items").registry.topics.toList =
      [("retail", [sampleTable "items"])] := by decide +kernel
  have topics : sampleCrossed.registry.topics.toList = sampleOrder := by decide +kernel
  have selected : (samplePlanned.sampleIntake "retail" "items").selection .shutdown =
      .ok [("retail", [sampleTable "items"])] := congrArg Except.ok first
  have flushed := (turns_sampleIntake .refl "retail" "items").tail
    (.flush _ 0 selected (.refl _))
  exact ⟨turns_sampleIntake (turns_sampleIntake flushed "online" "items") "retail" "orders",
    congrArg Except.ok topics, reorders_sampleReversed, by decide +kernel, by decide +kernel⟩

end Engine

end ChangeCapture
