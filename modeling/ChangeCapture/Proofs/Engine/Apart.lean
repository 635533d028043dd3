import ChangeCapture.Proofs.Engine.Topics

/-!
# Topics that stay apart

The queue of a topic gets commits of its own messages only, and each saved
message is acknowledged by one in the books of its own topic, in all runs over
the topics of an accepted source just when no topic fills a table that another
one brings up (`SourceSettings.keepsTopicsApart_iff`).  Accepted settings may
send two topics to one table (`Run.commits_cross_topics`): its buffer then
belongs to the topic that brought it up, with the messages of both.
-/

namespace ChangeCapture

variable {δ : Type} [Destination δ]

/-- The commits and the books of every topic have its own messages. -/
structure Run.KeepsTopicsApart (r : Run δ) : Prop where
  /-- The messages that were committed to the queue of a topic are of the topic. -/
  committed : ∀ topic q, r.queue? topic = some q → ∀ m ∈ q.commits.flatten, m.topic = topic
  /-- A saved message is of its topic, and one in the books of the topic acknowledges it. -/
  recorded : ∀ s ∈ r.saved, s.message.topic = s.topic ∧
    ∃ m ∈ r.engine.books s.topic, m.Acknowledges s.message

omit [Destination δ] in
theorem Run.KeepsTopicsApart.topic_of_committed {r : Run δ} (h : r.KeepsTopicsApart)
    {topic topic' : String} {topics : List String}
    (committed : (r.queue? topic).map (·.commits.flatten.map Message.topic) = some topics)
    (mem : topic' ∈ topics) : topic' = topic := by
  obtain ⟨q, source, rfl⟩ := Option.map_eq_some_iff.1 committed
  obtain ⟨m, hm, rfl⟩ := List.mem_map.1 mem
  exact h.committed topic q source m hm

namespace SourceSettings

/-- No topic fills a table that another one brings up. -/
def SharesNoTable (source : SourceSettings) (mode : Mode) : Prop :=
  ∀ s ∈ source.topics, ∀ s' ∈ source.topics, s ≠ s' → ∀ t, s.BringsUp mode t → ¬ s'.Fills mode t

/-- In all runs the topics stay apart. -/
def KeepsTopicsApart (source : SourceSettings) (mode : Mode) : Prop :=
  ∀ (δ : Type) [Destination δ] (thresholds : Thresholds) (destination : δ)
    (sources : SortedMap String MessageQueue) (retry : RetryPolicy), Run.Fresh sources →
    ∀ r, Run.Works source.topics mode (Run.start thresholds destination sources retry) r →
      r.KeepsTopicsApart

end SourceSettings

namespace Run

variable {topics : List TopicSettings} {mode : Mode} {sources : SortedMap String MessageQueue}

/-! ## The invariant -/

/-- Every table was brought up by the topic of its buffer. -/
def RaisedBy (topics : List TopicSettings) (mode : Mode) (r : TableRegistry) : Prop :=
  ∀ t b, r.get? t = some b → ∃ s ∈ topics, s.topic = b.topic ∧ s.BringsUp mode t

/-- What holds of all topics between two steps.  The run started with the queues `sources`. -/
structure Separate (topics : List TopicSettings) (mode : Mode)
    (sources : SortedMap String MessageQueue) (r : Run δ) : Prop where
  /-- The messages of every topic are in its books. -/
  books : ∀ topic ack, sources.get? topic = some (.new topic ack) → r.KeepsBooks topic ack
  /-- The topics that have a queue are those that had one at the start. -/
  queues : ∀ topic, r.engine.sources.contains topic = sources.contains topic
  /-- The topics of saved messages had a queue at the start. -/
  fed : ∀ s ∈ r.saved, sources.contains s.topic
  /-- The buffers stand under the names of their tables. -/
  named : r.engine.registry.Named
  /-- Every table was brought up by the topic of its buffer. -/
  raised : RaisedBy topics mode r.engine.registry

omit [Destination δ] in
theorem separate_start (topics : List TopicSettings) (mode : Mode)
    (sources : SortedMap String MessageQueue) (thresholds : Thresholds) (destination : δ)
    (retry : RetryPolicy) :
    (start thresholds destination sources retry).Separate topics mode sources := by
  refine ⟨fun topic ack feed => keepsBooks_start feed thresholds destination retry,
    fun _ => rfl, List.forall_mem_nil _, ?_, ?_⟩
  · intro t b hb
    cases hb
  · intro t b hb
    cases hb

theorem RaisedBy.putWindow {r : TableRegistry} (h : RaisedBy topics mode r) {s : TopicSettings}
    (mem : s ∈ topics) {t : TableId} (brings : s.BringsUp mode t) (w : Window) :
    RaisedBy topics mode (r.putWindow t s.topic w) := by
  intro t' b hb
  rw [TableRegistry.get?_putWindow] at hb
  split at hb
  · rename_i same
    subst same
    rw [← Option.some.inj hb]
    cases hold : r.get? t' with
    | none =>
      rw [TableRegistry.getOrNew_of_none _ hold]
      exact ⟨s, mem, rfl, brings⟩
    | some old =>
      rw [TableRegistry.getOrNew_of_get? _ hold]
      exact h t' old hold
  · exact h t' b hb

theorem RaisedBy.tableStep {e e' : Engine (Ledger δ) MessageQueue} {t : TableId}
    {cooldown : Option Nat} {now : Nat} {outcome : Outcome TableFlush}
    (h : RaisedBy topics mode e.registry) (named : e.registry.Named)
    (step : Engine.TableStep e t cooldown now e' outcome) : RaisedBy topics mode e'.registry := by
  rcases step.replaces named with same | ⟨b, b', there, -, topic, -, replaced⟩
  · rwa [same]
  · intro t' b'' hb
    rw [replaced, TableRegistry.get?_set] at hb
    split at hb
    · rename_i same
      rw [← Option.some.inj hb, topic, same]
      exact h t b there
    · exact h t' b'' hb

namespace Separate

variable {r : Run δ}

omit [Destination δ] in
theorem push (h : r.Separate topics mode sources) (t : String) (partition : Int)
    (key value : Option ByteArray) :
    (r.push t partition key value).Separate topics mode sources := by
  exact ⟨fun topic ack feed => (h.books topic ack feed).push t partition key value,
    fun topic => (r.contains_push t partition key value topic).trans (h.queues topic), h.fed,
    h.named, h.raised⟩

omit [Destination δ] in
/-- A table that a reader fills belongs to its topic. -/
theorem topic_getOrNew (h : r.Separate topics mode sources)
    (alone : ∀ s ∈ topics, ∀ s' ∈ topics, s ≠ s' → ∀ t, s.BringsUp mode t → ¬ s'.Fills mode t)
    {s : TopicSettings} (mem : s ∈ topics) {t : TableId} (fills : s.Fills mode t) :
    (r.engine.registry.getOrNew t s.topic).topic = s.topic := by
  cases hb : r.engine.registry.get? t with
  | none =>
    rw [TableRegistry.getOrNew_of_none _ hb]
    rfl
  | some b =>
    rw [TableRegistry.getOrNew_of_get? _ hb]
    obtain ⟨s', mem', topic, brings⟩ := h.raised t b hb
    rw [← topic]
    by_contra ne
    exact alone s' mem' s mem (fun same => ne (same ▸ rfl)) t brings fills

omit [Destination δ] in
theorem process (h : r.Separate topics mode sources)
    (alone : ∀ s ∈ topics, ∀ s' ∈ topics, s ≠ s' → ∀ t, s.BringsUp mode t → ¬ s'.Fills mode t)
    {s : TopicSettings} (mem : s ∈ topics) (now : Instant) :
    (r.process s mode now).Separate topics mode sources := by
  cases hm : r.next? s.topic with
  | none => rwa [process_of_none hm]
  | some m =>
    obtain ⟨q, q', more, hq, -, step, saved⟩ := process_of_message hm mode now
    have fed : sources.contains s.topic := by
      rw [← h.queues]
      exact Option.isSome_iff_exists.2 ⟨q, hq⟩
    refine ⟨fun topic ack feed => (h.books topic ack feed).process ?_,
      fun topic => (r.contains_process s mode now topic).trans (h.queues topic), ?_, ?_, ?_⟩
    · intro m' event hm' shaped saves
      obtain rfl := Option.some.inj (hm.symm.trans hm')
      have fills : s.Fills mode event.tableId := by
        obtain ⟨x, hx⟩ := List.exists_mem_of_ne_nil more fun none => saves (by simp [saved, none])
        obtain rfl : event = x.event := by simpa [shaped] using (step.of_mem hx).1
        exact step.fills hx
      rw [h.topic_getOrNew alone mem fills]
    · rw [saved]
      intro x hx
      rcases List.mem_append.1 hx with hx | hx
      · exact h.fed x hx
      · rw [(step.of_mem hx).2.2.1]
        exact fed
    · rcases step.registry_cases with same | ⟨event, w, -, -, put⟩
      · rw [same]
        exact h.named
      · rw [put]
        exact h.named.putWindow _ _ _
    · rcases step.registry_cases with same | ⟨event, w, shaped, valid, put⟩
      · rw [same]
        exact h.raised
      · rw [put]
        exact h.raised.putWindow mem ⟨m, now, event, shaped, rfl, valid⟩ w

theorem flush (h : r.Separate topics mode sources) (order : FlushOrder) (now : Nat) :
    (r.flush order now).Separate topics mode sources := by
  obtain ⟨named, raised⟩ := Engine.flush_induct
    (P := fun e : Engine (Ledger δ) MessageQueue =>
      e.registry.Named ∧ RaisedBy topics mode e.registry) now
    (fun step kept => ⟨step.named kept.1, kept.2.tableStep kept.1 step⟩)
    (fun _ outcomes kept => by rwa [(Engine.settle_keeps _ _ _ outcomes).1]) r.engine order
    ⟨h.named, h.raised⟩
  exact ⟨fun topic ack feed => (h.books topic ack feed).flush order now,
    fun topic => (r.engine.contains_flush order now topic).trans (h.queues topic), h.fed, named,
    raised⟩

theorem works {r' : Run δ} (h : r.Separate topics mode sources)
    (alone : ∀ s ∈ topics, ∀ s' ∈ topics, s ≠ s' → ∀ t, s.BringsUp mode t → ¬ s'.Fills mode t)
    (path : Works topics mode r r') : r'.Separate topics mode sources := by
  induction path with
  | refl => exact h
  | tail _ step ih =>
    cases step with
    | push t partition key value => exact ih.push t partition key value
    | process mem now => exact ih.process alone mem now
    | flush order now => exact ih.flush order now

omit [Destination δ] in
theorem keepsTopicsApart (h : r.Separate topics mode sources) (fresh : Fresh sources) :
    r.KeepsTopicsApart := by
  have books : ∀ topic, sources.contains topic → ∃ ack, r.KeepsBooks topic ack := by
    intro topic there
    obtain ⟨q, hq⟩ := Option.isSome_iff_exists.1 there
    obtain ⟨ack, rfl⟩ := fresh topic q hq
    exact ⟨ack, h.books topic ack hq⟩
  constructor
  · intro topic q hq m mem
    obtain ⟨ack, q', kept⟩ := books topic (by
      rw [← h.queues]
      exact Option.isSome_iff_exists.2 ⟨q, hq⟩)
    obtain rfl := Option.some.inj (kept.source.symm.trans hq)
    have booked : m ∈ r.engine.books topic := by
      simp only [Engine.books]
      rw [Engine.committed_of_source kept.source]
      exact List.mem_append_right _ (List.mem_append_right _ mem)
    exact (kept.gives.alike_taken m (kept.booked.known.subset booked)).1
  · intro s mem
    obtain ⟨ack, q, kept⟩ := books s.topic (h.fed s mem)
    have own : s.message ∈ r.messagesOf s.topic :=
      List.mem_map_of_mem (Saved.mem_ofTopic.2 ⟨mem, rfl⟩)
    exact ⟨(kept.gives.alike_taken _ own).1, kept.booked.acknowledged _ own⟩

end Separate

/-! ## Two topics with one table -/

/-- If a topic brings up a table and another one fills it, there is a run in which a message of the
second topic is missing in its books. -/
theorem exists_unrecorded {s s' : TopicSettings} (mem : s ∈ topics) (mem' : s' ∈ topics)
    (ne : s.topic ≠ s'.topic) {t : TableId} (brings : s.BringsUp mode t) (fills : s'.Fills mode t)
    (thresholds : Thresholds) (destination : δ) (retry : RetryPolicy) :
    ∃ r, Works topics mode (start thresholds destination (twoQueues s s') retry) r ∧
      ∃ x ∈ r.saved, r.engine.books x.topic = [] := by
  obtain ⟨r₁, works₁, first⟩ :=
    exists_delivers mem brings (queue_first ne thresholds destination retry) rfl
  have source : r₁.queue? s'.topic = some (.new s'.topic .latestPerPartition) :=
    (first.others s'.topic ne.symm).trans (queue_second thresholds destination retry)
  obtain ⟨r₂, works₂, second, x, saved, topic, -⟩ := exists_delivers_saved mem' fills source rfl
  refine ⟨r₂, works₁.trans works₂, x, saved, ?_⟩
  have lists : r₂.engine.registry.tablesOf s'.topic = [] :=
    (tablesOf_of_delivers first second rfl s'.topic).trans (if_neg ne.symm)
  have held : r₂.engine.held = .empty := second.frame.2.trans first.frame.2
  obtain ⟨q, source', commits⟩ := second.source _ source
  rw [topic]
  simp only [Engine.books, TableRegistry.pending]
  rw [lists, held, Engine.committed_of_source source', commits]
  rfl

end Run

namespace SourceSettings

/-- The topics of an accepted source stay apart in all runs just when no topic fills a table that
another one brings up. -/
theorem keepsTopicsApart_iff {source : SourceSettings} (accepted : source.validate = .ok ())
    (mode : Mode) : source.KeepsTopicsApart mode ↔ source.SharesNoTable mode := by
  constructor
  · intro apart s mem s' mem' ne t brings fills
    have names : s.topic ≠ s'.topic := fun same => ne (topics_distinct accepted mem mem' same)
    obtain ⟨r, path, x, saved, books⟩ := Run.exists_unrecorded mem mem' names brings fills
      ⟨0, 0⟩ (Store.new 0) .flush
    have kept := apart Store ⟨0, 0⟩ (Store.new 0) _ .flush (Run.fresh_twoQueues s s') r path
    obtain ⟨-, m, recorded, -⟩ := kept.recorded x saved
    rw [books] at recorded
    cases recorded
  · intro alone δ _ thresholds destination sources retry fresh r path
    have start := Run.separate_start source.topics mode sources thresholds destination retry
    exact (start.works alone path).keepsTopicsApart fresh

/-- Two topics with schemas of their own. -/
def sampleSchemas : SourceSettings :=
  .memory [Sample.settings "orders", .new "shop" "archive" "archive"]

theorem keepsTopicsApart_iff_sampleSchemas :
    sampleSchemas.validate = .ok () ∧ sampleSchemas.KeepsTopicsApart .replication := by
  have accepted : sampleSchemas.validate = .ok () := by decide
  refine ⟨accepted, (keepsTopicsApart_iff accepted .replication).2 ?_⟩
  intro s mem s' mem' ne t brings fills
  have schemas : ∀ s ∈ sampleSchemas.topics, ∀ s' ∈ sampleSchemas.topics,
      s ≠ s' → s.schema ≠ s'.schema := by
    decide
  exact schemas s mem s' mem' ne (brings.schema.symm.trans fills.schema)

end SourceSettings

namespace Run

/-- A run over both topics before its first step. -/
def sampleOpening : Run TrialStore := sampleBefore sampleStore sampleRetail sampleOnline

/-- A row of one topic and two of the other one are saved. -/
def sampleMixed : Run TrialStore :=
  ((sampleOpening.sampleDeliver sampleRetail "1").sampleDeliver sampleOnline "2").sampleDeliver
    sampleOnline "3"

theorem works_sampleMixed :
    Works sampleShared.topics .replication sampleOpening sampleMixed := by
  have retail : sampleRetail ∈ sampleShared.topics := List.mem_cons_self
  have online : sampleOnline ∈ sampleShared.topics :=
    List.mem_cons_of_mem _ (List.mem_singleton_self _)
  exact ((works_sampleDeliver _ retail "1").trans (works_sampleDeliver _ online "2")).trans
    (works_sampleDeliver _ online "3")

/-- All tables are flushed. -/
def sampleCrossed : Run TrialStore := sampleMixed.flush .shutdown 0

theorem works_sampleCrossed :
    Works sampleShared.topics .replication sampleOpening sampleCrossed :=
  works_sampleMixed.tail (.flush sampleMixed .shutdown 0)

theorem sampleCrossed_books :
    (sampleCrossed.queue? "retail").map (·.commits.flatten.map Message.topic) = some ["online"] ∧
      (Saved.ofTopic "online" sampleCrossed.saved).length = 2 ∧
      sampleCrossed.engine.books "online" = [] := by
  decide +kernel

/-- The topic that brought up a table gets commits of the other one, whose books stay empty. -/
theorem commits_cross_topics :
    sampleShared.validate = .ok () ∧
      Works sampleShared.topics .replication sampleOpening sampleCrossed ∧
      (sampleCrossed.queue? "retail").map (·.commits.flatten.map Message.topic) =
        some ["online"] ∧
      ((Saved.ofTopic "online" sampleCrossed.saved).length = 2 ∧
        sampleCrossed.engine.books "online" = []) ∧
      ¬ sampleShared.KeepsTopicsApart .replication := by
  obtain ⟨crossed, books⟩ := sampleCrossed_books
  refine ⟨by decide, works_sampleCrossed, crossed, books, fun apart => ?_⟩
  have kept := apart TrialStore ⟨10, 100⟩ sampleStore (twoQueues sampleRetail sampleOnline) _
    (fresh_twoQueues _ _) sampleCrossed works_sampleCrossed
  exact absurd (kept.topic_of_committed crossed (List.mem_singleton_self _)) (by decide)

end Run

end ChangeCapture
