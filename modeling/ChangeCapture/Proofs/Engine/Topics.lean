import ChangeCapture.Proofs.Engine.Books
import ChangeCapture.Proofs.RowEvent.Shaping
import ChangeCapture.Settings.Basic
import ChangeCapture.Trial.Sample

/-!
# Runs over several topics

A run over the topics of a source interleaves producers, the readers of all its
topics and flushes (`Run.Works`).  A table comes up under the topic whose reader
first finds a valid event for it (`TopicSettings.BringsUp`), and it holds rows of
every topic that has an event for it that can be saved (`TopicSettings.Fills`).
Whether two topics share a table is a matter of their settings alone.
-/

namespace ChangeCapture

/-! ## Accepted topics -/

namespace SourceSettings

theorem checkTopics_distinct {seen : List String} {topics : List TopicSettings}
    (h : checkTopics seen topics = .ok ()) :
    (topics.map TopicSettings.topic).Nodup ∧ ∀ s ∈ topics, s.topic ∉ seen := by
  induction topics generalizing seen with
  | nil => exact ⟨List.nodup_nil, nofun⟩
  | cons s rest ih =>
    unfold checkTopics at h
    cases valid : s.validate with
    | error problem => simp [valid, bind, Except.bind] at h
    | ok =>
      simp only [valid, bind, Except.bind] at h
      split at h
      · cases h
      · rename_i fresh
        obtain ⟨distinct, unseen⟩ := ih h
        rw [List.map_cons, List.nodup_cons]
        refine ⟨⟨fun mem => ?_, distinct⟩, fun s' mem => ?_⟩
        · obtain ⟨s', mem, same⟩ := List.mem_map.1 mem
          exact unseen s' mem (same ▸ List.mem_cons_self)
        · rcases List.mem_cons.1 mem with rfl | mem
          · exact fresh
          · exact fun seen => unseen s' mem (List.mem_cons_of_mem _ seen)

/-- The topics of an accepted source are known by their names. -/
theorem topics_distinct {source : SourceSettings} (accepted : source.validate = .ok ())
    {s s' : TopicSettings} (mem : s ∈ source.topics) (mem' : s' ∈ source.topics)
    (same : s.topic = s'.topic) : s = s' := by
  have checked : checkTopics [] source.topics = .ok () := by
    unfold validate at accepted
    cases source with
    | kafka broker =>
      simp only [bind, Except.bind] at accepted
      split at accepted
      · cases accepted
      · split at accepted
        · cases accepted
        · exact accepted
    | memory topics =>
      simp only [bind, Except.bind] at accepted
      split at accepted
      · cases accepted
      · exact accepted
  exact List.inj_on_of_nodup_map (checkTopics_distinct checked).1 mem mem' same

end SourceSettings

/-! ## The tables of a topic -/

namespace RowEvent

/-- The event of a message depends on its key and its value only. -/
theorem ofMessage_congr {s : TopicSettings} {mode : Mode} {now : Instant} {m m' : Message}
    (key : m'.key = m.key) (value : m'.value = m.value) {event : RowEvent}
    (h : ofMessage s mode now m = .ok (some event)) :
    ofMessage s mode now m' = .ok (some event) := by
  rw [← h]
  unfold ofMessage Message.isTombstone at h ⊢
  rw [key, value]
  cases hk : m.key with
  | some k => rfl
  | none =>
    rw [hk] at h
    split at h <;> cases h

/-- An event goes to a table of the schema of its topic. -/
theorem tableId_ofMessage {s : TopicSettings} {mode : Mode} {now : Instant} {m : Message}
    {event : RowEvent} (h : ofMessage s mode now m = .ok (some event)) :
    event.tableId = ⟨s.schema, event.table⟩ ∧ event.mode = mode := by
  unfold ofMessage at h
  split at h
  · cases h
  · split at h
    · cases h
    · obtain ⟨key, -, h⟩ := Outcome.bind_eq_ok.1 h
      obtain ⟨change, -, h⟩ := Outcome.bind_eq_ok.1 h
      cases shaped : ofChange s mode now key change with
      | error f => simp [shaped, Functor.map, Except.map] at h
      | ok e =>
        obtain rfl : e = event := by simpa [shaped, Functor.map, Except.map] using h
        exact ⟨(ofChange_parts shaped).1, (ofChange_parts shaped).2.1⟩

end RowEvent

namespace TopicSettings

/-- Some message of the topic has a valid event for the table. -/
def BringsUp (s : TopicSettings) (mode : Mode) (t : TableId) : Prop :=
  ∃ m now event, RowEvent.ofMessage s mode now m = .ok (some event) ∧ event.tableId = t ∧
    event.validate = .ok ()

/-- Some message of the topic has an event for the table that can be saved. -/
def Fills (s : TopicSettings) (mode : Mode) (t : TableId) : Prop :=
  ∃ m now event, RowEvent.ofMessage s mode now m = .ok (some event) ∧ event.tableId = t ∧
    event.Savable

theorem Fills.bringsUp {s : TopicSettings} {mode : Mode} {t : TableId} (h : s.Fills mode t) :
    s.BringsUp mode t := by
  obtain ⟨m, now, event, shaped, table, savable⟩ := h
  exact ⟨m, now, event, shaped, table, savable.valid⟩

theorem BringsUp.schema {s : TopicSettings} {mode : Mode} {t : TableId} (h : s.BringsUp mode t) :
    t.schema = s.schema := by
  obtain ⟨m, now, event, shaped, rfl, -⟩ := h
  rw [(RowEvent.tableId_ofMessage shaped).1]

theorem Fills.schema {s : TopicSettings} {mode : Mode} {t : TableId} (h : s.Fills mode t) :
    t.schema = s.schema :=
  h.bringsUp.schema

end TopicSettings

namespace Run

variable {δ : Type} [Destination δ]

omit [Destination δ] in
/-- A topic fills the tables of the rows that it saves. -/
theorem IngestStep.fills {e e' : Engine (Ledger δ) MessageQueue} {s : TopicSettings} {mode : Mode}
    {now : Instant} {m : Message} {more : List Saved} (h : IngestStep e s mode now m e' more)
    {x : Saved} (mem : x ∈ more) : s.Fills mode x.event.tableId := by
  obtain ⟨shaped, savable, -⟩ := h.of_mem mem
  exact ⟨m, now, x.event, shaped, rfl, savable⟩

/-! ## Steps -/

/-- A step of a run over the topics of a source. -/
inductive Work (topics : List TopicSettings) (mode : Mode) : Run δ → Run δ → Prop where
  /-- A message is added to a queue. -/
  | push (r : Run δ) (t : String) (partition : Int) (key value : Option ByteArray) :
    Work topics mode r (r.push t partition key value)
  /-- A message of a topic is taken in. -/
  | process (r : Run δ) {s : TopicSettings} (mem : s ∈ topics) (now : Instant) :
    Work topics mode r (r.process s mode now)
  /-- Tables are flushed. -/
  | flush (r : Run δ) (order : FlushOrder) (now : Nat) : Work topics mode r (r.flush order now)

/-- Steps over the topics of a source lead from one state of a run to the other. -/
def Works (topics : List TopicSettings) (mode : Mode) : Run δ → Run δ → Prop :=
  Relation.ReflTransGen (Work topics mode)

/-- The queues are those before the first message. -/
def Fresh (sources : SortedMap String MessageQueue) : Prop :=
  ∀ topic q, sources.get? topic = some q → ∃ ack, q = .new topic ack

/-! ## Delivery of one message -/

/-- A message is pushed and taken in. -/
def deliver (r : Run δ) (s : TopicSettings) (mode : Mode) (now : Instant) (m : Message) : Run δ :=
  (r.push s.topic m.partition m.key m.value).process s mode now

theorem works_deliver {topics : List TopicSettings} {mode : Mode} (r : Run δ) {s : TopicSettings}
    (mem : s ∈ topics) (now : Instant) (m : Message) :
    Works topics mode r (r.deliver s mode now m) :=
  .tail (.single (.push r s.topic m.partition m.key m.value)) (.process _ mem now)

omit [Destination δ] in
/-- A message that is delivered to an empty queue is taken in. -/
theorem deliver_event {r : Run δ} {s : TopicSettings} {q : MessageQueue}
    (source : r.queue? s.topic = some q) (idle : q.pending = []) (mode : Mode) (now : Instant)
    (m : Message) :
    ∃ m' q' more, m'.key = m.key ∧ m'.value = m.value ∧
      IngestStep
        { r.engine with
          sources := (r.engine.sources.modify s.topic
            (·.push m.partition m.key m.value)).insert s.topic q' }
        s mode now m' (r.deliver s mode now m).engine more ∧
      (r.deliver s mode now m).saved = r.saved ++ more ∧
      (r.deliver s mode now m).queue? s.topic = some q' ∧ q'.commits = q.commits ∧
      ∀ topic, topic ≠ s.topic → (r.deliver s mode now m).queue? topic = r.queue? topic := by
  have pushed : (r.push s.topic m.partition m.key m.value).queue? s.topic =
      some (q.push m.partition m.key m.value) := by
    show (r.engine.sources.modify s.topic _).get? s.topic = _
    rw [SortedMap.get?_modify, if_pos rfl]
    exact congrArg (Option.map _) source
  have pending : (q.push m.partition m.key m.value).pending =
      [q.nextMessage m.partition m.key m.value] := by
    simp [MessageQueue.push, idle]
  have reads : (q.push m.partition m.key m.value).read =
      (.message ((q.push m.partition m.key m.value).stamped
        (q.nextMessage m.partition m.key m.value)),
        { q.push m.partition m.key m.value with pending := [] }) := by
    simp only [MessageQueue.read, pending]
  have next : (r.push s.topic m.partition m.key m.value).next? s.topic =
      some ((q.push m.partition m.key m.value).stamped
        (q.nextMessage m.partition m.key m.value)) := by
    unfold queue? at pushed
    simp only [next?, Engine.read, pushed, Source.read, reads]
  obtain ⟨source', q', more, hsource, read, step, saved⟩ := process_of_message next mode now
  obtain rfl := Option.some.inj (hsource.symm.trans pushed)
  obtain ⟨-, taken⟩ := Prod.mk.inj (read.symm.trans reads)
  refine ⟨(q.push m.partition m.key m.value).stamped (q.nextMessage m.partition m.key m.value),
    q', more, rfl, rfl, step, saved, ?_, by rw [taken]; rfl, fun topic ne => ?_⟩
  · show (r.deliver s mode now m).engine.sources.get? s.topic = _
    rw [deliver, step.frame.2.1]
    exact SortedMap.get?_insert_self _ _ _
  · show (r.deliver s mode now m).engine.sources.get? topic = _
    rw [deliver, step.frame.2.1]
    refine (SortedMap.get?_insert_of_ne _ _ ne).trans ?_
    show (r.engine.sources.modify s.topic _).get? topic = _
    rw [SortedMap.get?_modify, if_neg ne]
    rfl

/-- One message that a topic delivers leads from one state to the other, and brings up a table. -/
structure Delivers (s : TopicSettings) (t : TableId) (r r' : Run δ) : Prop where
  /-- A window is put into the table. -/
  window : ∃ w, r'.engine.registry = r.engine.registry.putWindow t s.topic w
  /-- The destination and the held messages are as they were. -/
  frame : r'.engine.destination = r.engine.destination ∧ r'.engine.held = r.engine.held
  /-- What was saved is still there. -/
  saved : r.saved <+: r'.saved
  /-- Nothing is committed to the queue of the topic. -/
  source : ∀ q, r.queue? s.topic = some q →
    ∃ q', r'.queue? s.topic = some q' ∧ q'.commits = q.commits
  /-- The other queues are as they were. -/
  others : ∀ topic, topic ≠ s.topic → r'.queue? topic = r.queue? topic

/-- A topic that brings up a table delivers a message that does so. -/
theorem exists_delivers {topics : List TopicSettings} {mode : Mode} {s : TopicSettings}
    (mem : s ∈ topics) {t : TableId} (brings : s.BringsUp mode t) {r : Run δ} {q : MessageQueue}
    (source : r.queue? s.topic = some q) (idle : q.pending = []) :
    ∃ r', Works topics mode r r' ∧ Delivers s t r r' := by
  obtain ⟨m, now, event, shaped, rfl, valid⟩ := brings
  obtain ⟨m', q', more, key, value, step, saved, source', commits, others⟩ :=
    deliver_event source idle mode now m
  refine ⟨_, works_deliver r mem now m, step.registry (RowEvent.ofMessage_congr key value shaped)
    valid, ⟨step.frame.1, step.frame.2.2⟩, ⟨more, saved.symm⟩, ?_, others⟩
  intro q₀ hq₀
  obtain rfl := Option.some.inj (source.symm.trans hq₀)
  exact ⟨q', source', commits⟩

/-- A topic that fills a table delivers a message whose row is saved. -/
theorem exists_delivers_saved {topics : List TopicSettings} {mode : Mode} {s : TopicSettings}
    (mem : s ∈ topics) {t : TableId} (fills : s.Fills mode t) {r : Run δ} {q : MessageQueue}
    (source : r.queue? s.topic = some q) (idle : q.pending = []) :
    ∃ r', Works topics mode r r' ∧ Delivers s t r r' ∧
      ∃ x ∈ r'.saved, x.topic = s.topic ∧ x.event.tableId = t := by
  obtain ⟨m, now, event, shaped, rfl, savable⟩ := fills
  obtain ⟨m', q', more, key, value, step, saved, source', commits, others⟩ :=
    deliver_event source idle mode now m
  have shaped := RowEvent.ofMessage_congr key value shaped
  obtain ⟨key, -, registry, rfl⟩ := step.saves shaped savable
  refine ⟨_, works_deliver r mem now m, ⟨⟨_, registry⟩, ⟨step.frame.1, step.frame.2.2⟩,
    ⟨_, saved.symm⟩, ?_, others⟩, ?_⟩
  · intro q₀ hq₀
    obtain rfl := Option.some.inj (source.symm.trans hq₀)
    exact ⟨q', source', commits⟩
  · rw [saved]
    exact ⟨_, List.mem_append_right _ (List.mem_singleton_self _), rfl, rfl⟩

/-- The queues of two topics before the first message. -/
def twoQueues (s s' : TopicSettings) : SortedMap String MessageQueue :=
  (SortedMap.empty.insert s.topic (.new s.topic .latestPerPartition)).insert s'.topic
    (.new s'.topic .latestPerPartition)

theorem fresh_twoQueues (s s' : TopicSettings) : Fresh (twoQueues s s') := by
  intro topic q h
  unfold twoQueues at h
  rw [SortedMap.get?_insert, SortedMap.get?_insert] at h
  split at h
  · rename_i same
    exact ⟨_, same ▸ (Option.some.inj h).symm⟩
  · split at h
    · rename_i same
      exact ⟨_, same ▸ (Option.some.inj h).symm⟩
    · cases h

variable {s s' : TopicSettings}

omit [Destination δ] in
theorem queue_first (ne : s.topic ≠ s'.topic) (thresholds : Thresholds) (destination : δ)
    (retry : RetryPolicy) :
    (start thresholds destination (twoQueues s s') retry).queue? s.topic =
      some (.new s.topic .latestPerPartition) := by
  show ((SortedMap.insert _ s'.topic _).get? s.topic : Option MessageQueue) = _
  rw [SortedMap.get?_insert_of_ne _ _ ne, SortedMap.get?_insert_self]

omit [Destination δ] in
theorem queue_second (thresholds : Thresholds) (destination : δ) (retry : RetryPolicy) :
    (start thresholds destination (twoQueues s s') retry).queue? s'.topic =
      some (.new s'.topic .latestPerPartition) :=
  SortedMap.get?_insert_self _ _ _

omit [Destination δ] in
/-- A new table that two topics bring up is listed under the first one. -/
theorem tablesOf_of_delivers {t : TableId} {r r₁ r₂ : Run δ} (first : Delivers s t r r₁)
    (second : Delivers s' t r₁ r₂) (none : r.engine.registry.get? t = none) (topic : String) :
    r₂.engine.registry.tablesOf topic =
      if topic = s.topic then r.engine.registry.tablesOf s.topic ++ [t]
      else r.engine.registry.tablesOf topic := by
  obtain ⟨w, registry⟩ := first.window
  obtain ⟨w', registry'⟩ := second.window
  have there : r₁.engine.registry.get? t =
      some ((r.engine.registry.getOrNew t s.topic).setWindow w) := by
    rw [registry, TableRegistry.get?_putWindow_self]
  rw [registry', TableRegistry.tablesOf_putWindow_of_get? there, registry]
  exact TableRegistry.tablesOf_putWindow_of_none none s.topic w topic

/-! ## Sample messages for two topics -/

/-- A message for a row of the table `orders`. -/
def sampleOrder (id : String) : Message :=
  let key := "\x7b\"id\":" ++ id ++ "\x7d"
  let source := "\x7b\"table\":\"orders\"\x7d"
  let value := "\x7b\"op\":\"c\",\"after\":" ++ key ++ ",\"source\":" ++ source ++ "\x7d"
  Sample.message "orders" 0 key.toUTF8 value.toUTF8

/-- A message of a topic for a row of the table `orders` is pushed and taken in. -/
def sampleDeliver (r : Run δ) (s : TopicSettings) (id : String) : Run δ :=
  r.deliver s .replication ⟨0⟩ (sampleOrder id)

theorem works_sampleDeliver {topics : List TopicSettings} (r : Run δ) {s : TopicSettings}
    (mem : s ∈ topics) (id : String) : Works topics .replication r (r.sampleDeliver s id) :=
  works_deliver r mem ⟨0⟩ (sampleOrder id)

/-- A run over two topics before its first step. -/
def sampleBefore (destination : δ) (s s' : TopicSettings) : Run δ :=
  start ⟨10, 100⟩ destination (twoQueues s s') (.new 0 0 1 fun _ => true)

/-- A store before its first table. -/
def sampleStore : TrialStore := .new (.new 1000)

/-- A topic. -/
def sampleRetail : TopicSettings := Sample.settings "retail"

/-- A topic with the tables of the other one. -/
def sampleOnline : TopicSettings := Sample.settings "online"

/-- Two topics that write to one table. -/
def sampleShared : SourceSettings := .memory [sampleRetail, sampleOnline]

end Run

end ChangeCapture
