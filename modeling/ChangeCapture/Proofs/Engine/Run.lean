import ChangeCapture.Proofs.Engine.Flush
import ChangeCapture.Proofs.Message.Queue
import ChangeCapture.Proofs.RowEvent.Saving
import ChangeCapture.Trial.Sample
import ChangeCapture.Trial.Store

/-!
# Serial runs

A serial run interleaves whole steps: a producer adds a message to the queue of
a topic, a reader takes in the next message of a topic, and tables are flushed.
The destination is any destination whatever, so its writes may fail and its
commits may be denied in any combination.

A run keeps account of what a destination and an engine forget: the windows
that the destination took and allowed to commit (`Ledger`), and the messages
whose events were saved (`Saved`).
-/

namespace ChangeCapture

variable {δ : Type} [Destination δ]

/-! ## Destinations that keep account -/

/-- A destination with the windows that it took and allowed to commit, in order. -/
structure Ledger (δ : Type) where
  /-- The destination. -/
  destination : δ
  /-- The windows that it took and allowed to commit. -/
  accepted : List Window

namespace Ledger

/-- Enters a window if the outcome of its write allows a commit. -/
def enter (accepted : List Window) (w : Window) : Outcome Bool → List Window
  | .ok true => accepted ++ [w]
  | _ => accepted

instance : Destination (Ledger δ) where
  describe l p :=
    ((Destination.describe l.destination p).1,
      ⟨(Destination.describe l.destination p).2, l.accepted⟩)
  merge l w :=
    ((Destination.merge l.destination w).1,
      ⟨(Destination.merge l.destination w).2,
        enter l.accepted w (Destination.merge l.destination w).1⟩)
  append l w :=
    ((Destination.append l.destination w).1,
      ⟨(Destination.append l.destination w).2,
        enter l.accepted w ((Destination.append l.destination w).1.map fun () => true)⟩)

/-- A write enters its window if its outcome allows a commit. -/
theorem accepted_write {l l' : Ledger δ} {w : Window} {outcome : Outcome Bool}
    (h : Destination.write l w = (outcome, l')) : l'.accepted = enter l.accepted w outcome := by
  unfold Destination.write at h
  split at h
  · injection h with h1 h2
    rw [← h1, ← h2]
  · injection h with h1 h2
    rw [← h1, ← h2]

/-- A write to a ledger is a write to its destination. -/
theorem write_destination {l l' : Ledger δ} {w : Window} {outcome : Outcome Bool}
    (h : Destination.write l w = (outcome, l')) :
    Destination.write l.destination w = (outcome, l'.destination) := by
  unfold Destination.write at h ⊢
  split at h
  · injection h with h1 h2
    rw [← h1, ← h2]
  · injection h with h1 h2
    rw [← h1, ← h2]

theorem probes_destination {l l' : Ledger δ} {w : Window} (h : Destination.Probes w l l') :
    Destination.Probes w l.destination l'.destination := by
  induction h with
  | refl => exact .refl _
  | tail _ step ih =>
    refine ih.tail ?_
    cases step with
    | describe p => exact .describe _ p
    | fail fails => exact .fail (write_destination fails)

/-- Nothing is entered between two writes that do not fail. -/
theorem accepted_probes {l l' : Ledger δ} {w : Window} (h : Destination.Probes w l l') :
    l'.accepted = l.accepted := by
  refine h.eq_of_invariant (f := accepted) ?_
  intro l l' step
  cases step with
  | describe p => rfl
  | fail h => exact accepted_write h

end Ledger

/-! ## Saved messages -/

/-- A message whose event was saved. -/
structure Saved where
  /-- The topic whose reader took it in. -/
  topic : String
  /-- The event. -/
  event : RowEvent
  /-- The message. -/
  message : Message
  /-- The number of windows that had been entered by then. -/
  entered : Nat

/-! ## Runs -/

/-- An engine with the messages that were saved so far, in order. -/
structure Run (δ : Type) where
  /-- The engine. -/
  engine : Engine (Ledger δ) MessageQueue
  /-- The messages that were saved, in order. -/
  saved : List Saved

namespace Run

/-- A run before its first step. -/
def start (thresholds : Thresholds) (destination : δ) (sources : SortedMap String MessageQueue)
    (retry : RetryPolicy) : Run δ :=
  ⟨.new thresholds ⟨destination, []⟩ sources retry, []⟩

/-- The queue of a topic. -/
def queue? (r : Run δ) (topic : String) : Option MessageQueue := r.engine.sources.get? topic

/-- The windows that were entered so far. -/
def accepted (r : Run δ) : List Window := r.engine.destination.accepted

/-- A producer adds a message to the queue of a topic. -/
def push (r : Run δ) (topic : String) (partition : Int) (key value : Option ByteArray) : Run δ :=
  { r with engine.sources := r.engine.sources.modify topic (·.push partition key value) }

/-- What is saved of a message. -/
def savedOf (e : Engine (Ledger δ) MessageQueue) (s : TopicSettings) (mode : Mode) (now : Instant)
    (m : Message) : List Saved :=
  match RowEvent.ofMessage s mode now m with
  | .ok (some event) =>
    match (event.save s m e.registry).2 with
    | .ok _ => [⟨s.topic, event, m, e.destination.accepted.length⟩]
    | .error _ => []
  | _ => []

/-- The reader of a topic takes in the next message, if there is one. -/
def process (r : Run δ) (s : TopicSettings) (mode : Mode) (now : Instant) : Run δ :=
  match r.engine.read s.topic with
  | (e, some (.ok (.message m))) =>
    { engine := (e.ingest s mode now m).1
      saved := r.saved ++ savedOf e s mode now m }
  | (e, _) => { r with engine := e }

/-- Tables are flushed. -/
def flush (r : Run δ) (order : FlushOrder) (now : Nat) : Run δ :=
  { r with engine := (r.engine.flush order now).state }

/-- The message that the reader of a topic finds next. -/
def next? (r : Run δ) (topic : String) : Option Message :=
  match (r.engine.read topic).2 with
  | some (.ok (.message m)) => some m
  | _ => none

/-- The reader at hand feeds one of the tables `own` if and only if it is the reader of `topic`. -/
def Feeds (r : Run δ) (topic : String) (own : TableId → Prop) (s : TopicSettings) (mode : Mode)
    (now : Instant) : Prop :=
  ∀ m event, r.next? s.topic = some m → RowEvent.ofMessage s mode now m = .ok (some event) →
    (own event.tableId ↔ s.topic = topic)

/-! ## Taking in a message -/

/-- How the intake of a message ends, and what is saved of it. -/
inductive IngestStep (e : Engine (Ledger δ) MessageQueue) (s : TopicSettings) (mode : Mode)
    (now : Instant) (m : Message) : Engine (Ledger δ) MessageQueue → List Saved → Prop where
  /-- The message holds no valid event. -/
  | skipped (none : ∀ event, RowEvent.ofMessage s mode now m = .ok (some event) →
      event.validate ≠ .ok ()) : IngestStep e s mode now m e []
  /-- The event is valid but cannot be saved, and leaves columns behind. -/
  | refused {event : RowEvent} (h : RowEvent.ofMessage s mode now m = .ok (some event))
    (valid : event.validate = .ok ()) (fails : ¬ event.Savable) :
    IngestStep e s mode now m
      { e with
        registry := e.registry.putWindow event.tableId s.topic (event.opened s e.registry) } []
  /-- The event can be saved, and it is. -/
  | saved {event : RowEvent} (h : RowEvent.ofMessage s mode now m = .ok (some event))
    {key : String} (hkey : event.savedKey = .ok key) (savable : event.Savable) :
    IngestStep e s mode now m
      { e with
        registry := e.registry.putWindow event.tableId s.topic
          (event.stored s m e.registry key) }
      [⟨s.topic, event, m, e.destination.accepted.length⟩]

omit [Destination δ] in
theorem ingest_step (e : Engine (Ledger δ) MessageQueue) (s : TopicSettings) (mode : Mode)
    (now : Instant) (m : Message) :
    IngestStep e s mode now m (e.ingest s mode now m).1 (savedOf e s mode now m) := by
  simp only [Engine.ingest, TableRegistry.ingest, savedOf]
  cases h : RowEvent.ofMessage s mode now m with
  | error f => exact .skipped fun event h' => by simp [h] at h'
  | ok event? =>
    cases event? with
    | none => exact .skipped fun event h' => by simp [h] at h'
    | some event =>
      have step := event.save_step s m e.registry
      have saves := event.save_isOk_iff s m e.registry
      revert step saves
      simp only
      generalize event.save s m e.registry = result
      obtain ⟨registry, outcome⟩ := result
      intro step saves
      cases step with
      | invalid f breaks =>
        refine .skipped fun event' h' valid => ?_
        obtain rfl : event = event' := by simpa [h] using h'
        simp [breaks] at valid
      | refused f valid => exact .refused h valid fun savable => by simpa using saves.2 savable
      | saved valid hkey opens visits => exact .saved h hkey (saves.1 ⟨_, rfl⟩)

omit [Destination δ] in
/-- The intake of a message changes the tables only. -/
theorem IngestStep.frame {e e' : Engine (Ledger δ) MessageQueue} {s : TopicSettings} {mode : Mode}
    {now : Instant} {m : Message} {more : List Saved} (h : IngestStep e s mode now m e' more) :
    e'.destination = e.destination ∧ e'.sources = e.sources ∧ e'.held = e.held := by
  cases h <;> exact ⟨rfl, rfl, rfl⟩

omit [Destination δ] in
/-- The tables stay as they are, or a valid event puts a window into its table. -/
theorem IngestStep.registry_cases {e e' : Engine (Ledger δ) MessageQueue} {s : TopicSettings}
    {mode : Mode} {now : Instant} {m : Message} {more : List Saved}
    (h : IngestStep e s mode now m e' more) :
    e'.registry = e.registry ∨
      ∃ event w, RowEvent.ofMessage s mode now m = .ok (some event) ∧ event.validate = .ok () ∧
        e'.registry = e.registry.putWindow event.tableId s.topic w := by
  cases h with
  | skipped => exact .inl rfl
  | refused h valid => exact .inr ⟨_, _, h, valid, rfl⟩
  | saved h hkey savable => exact .inr ⟨_, _, h, savable.valid, rfl⟩

omit [Destination δ] in
/-- A valid event brings up its table. -/
theorem IngestStep.registry {e e' : Engine (Ledger δ) MessageQueue} {s : TopicSettings}
    {mode : Mode} {now : Instant} {m : Message} {more : List Saved}
    (h : IngestStep e s mode now m e' more) {event : RowEvent}
    (shaped : RowEvent.ofMessage s mode now m = .ok (some event))
    (valid : event.validate = .ok ()) :
    ∃ w, e'.registry = e.registry.putWindow event.tableId s.topic w := by
  cases h with
  | skipped none => exact absurd valid (none event shaped)
  | @refused event' shaped' =>
    obtain rfl : event = event' := by simpa [shaped] using shaped'
    exact ⟨_, rfl⟩
  | @saved event' shaped' =>
    obtain rfl : event = event' := by simpa [shaped] using shaped'
    exact ⟨_, rfl⟩

omit [Destination δ] in
/-- What is saved is of the topic, and it can be saved. -/
theorem IngestStep.of_mem {e e' : Engine (Ledger δ) MessageQueue} {s : TopicSettings}
    {mode : Mode} {now : Instant} {m : Message} {more : List Saved}
    (h : IngestStep e s mode now m e' more) {x : Saved} (mem : x ∈ more) :
    RowEvent.ofMessage s mode now m = .ok (some x.event) ∧ x.event.Savable ∧ x.topic = s.topic ∧
      x.message = m ∧ x.entered = e.destination.accepted.length := by
  cases h with
  | skipped => cases mem
  | refused => cases mem
  | saved h hkey savable =>
    rw [List.mem_singleton.1 mem]
    exact ⟨h, savable, rfl, rfl, rfl⟩

omit [Destination δ] in
/-- An event that can be saved is saved. -/
theorem IngestStep.saves {e e' : Engine (Ledger δ) MessageQueue} {s : TopicSettings}
    {mode : Mode} {now : Instant} {m : Message} {more : List Saved}
    (h : IngestStep e s mode now m e' more) {event : RowEvent}
    (shaped : RowEvent.ofMessage s mode now m = .ok (some event)) (savable : event.Savable) :
    ∃ key, event.savedKey = .ok key ∧
      e'.registry =
        e.registry.putWindow event.tableId s.topic (event.stored s m e.registry key) ∧
      more = [⟨s.topic, event, m, e.destination.accepted.length⟩] := by
  cases h with
  | skipped none => exact absurd savable.valid (none event shaped)
  | @refused event' shaped' _ fails =>
    obtain rfl : event = event' := by simpa [shaped] using shaped'
    exact absurd savable fails
  | @saved event' shaped' key hkey =>
    obtain rfl : event = event' := by simpa [shaped] using shaped'
    exact ⟨key, hkey, rfl, rfl⟩

omit [Destination δ] in
/-- A reader that finds no message changes nothing. -/
theorem process_of_none {r : Run δ} {s : TopicSettings} (h : r.next? s.topic = none)
    (mode : Mode) (now : Instant) : r.process s mode now = r := by
  unfold next? Engine.read at h
  unfold process Engine.read
  cases hq : r.engine.sources.get? s.topic with
  | none => rfl
  | some q =>
    simp only [hq, Source.read] at h ⊢
    have same : q.read.2 = q := by
      refine MessageQueue.read_none fun m hm => ?_
      simp [hm] at h
    split at h
    · cases h
    · rename_i none
      split
      · rename_i m he
        injection he with h1 h2
        injection h2 with h2
        injection h2 with h2
        exact absurd (by rw [h2]) (none m)
      · rename_i he
        injection he with h1 h2
        rw [← h1, same, SortedMap.insert_of_get? hq]

/-- An engine with a source in place of the one of a topic. -/
def advanced (e : Engine (Ledger δ) MessageQueue) (topic : String) (q : MessageQueue) :
    Engine (Ledger δ) MessageQueue :=
  { e with sources := e.sources.insert topic q }

omit [Destination δ] in
/-- What a reader does that finds a message. -/
theorem process_of_message {r : Run δ} {s : TopicSettings} {m : Message}
    (h : r.next? s.topic = some m) (mode : Mode) (now : Instant) :
    ∃ q q' more, r.queue? s.topic = some q ∧ q.read = (.message m, q') ∧
      IngestStep (advanced r.engine s.topic q') s mode now m (r.process s mode now).engine more ∧
      (r.process s mode now).saved = r.saved ++ more := by
  unfold next? Engine.read at h
  cases hq : r.engine.sources.get? s.topic with
  | none => simp [hq] at h
  | some q =>
    simp only [hq, Source.read] at h
    split at h
    · rename_i m' he
      injection h with h
      subst h
      injection he with he
      injection he with he
      have hp : r.process s mode now =
          { engine := ((advanced r.engine s.topic q.read.2).ingest s mode now m').1
            saved := r.saved ++ savedOf (advanced r.engine s.topic q.read.2) s mode now m' } := by
        unfold process Engine.read
        simp only [hq, Source.read, he]
        rfl
      rw [hp]
      exact ⟨q, q.read.2, _, hq, by rw [← he], ingest_step _ s mode now m', rfl⟩
    · cases h

omit [Destination δ] in
/-- A message is pushed to a queue that is there. -/
theorem contains_push (r : Run δ) (topic : String) (partition : Int)
    (key value : Option ByteArray) (other : String) :
    (r.push topic partition key value).engine.sources.contains other =
      r.engine.sources.contains other :=
  r.engine.sources.contains_modify topic other _

omit [Destination δ] in
/-- A reader keeps which topics have a queue. -/
theorem contains_process (r : Run δ) (s : TopicSettings) (mode : Mode) (now : Instant)
    (other : String) :
    (r.process s mode now).engine.sources.contains other = r.engine.sources.contains other := by
  cases hm : r.next? s.topic with
  | none => rw [process_of_none hm]
  | some m =>
    obtain ⟨q, q', more, hq, -, step, -⟩ := process_of_message hm mode now
    rw [step.frame.2.1]
    exact SortedMap.contains_insert_of_get? hq q' other

/-! ## Steps -/

variable (topic : String) (own : TableId → Prop)

/-- A step of a producer or of a reader.  The tables `own` are fed by the reader of `topic`
alone. -/
inductive Intake : Run δ → Run δ → Prop where
  /-- A message is added to a queue. -/
  | push (r : Run δ) (t : String) (partition : Int) (key value : Option ByteArray) :
    Intake r (r.push t partition key value)
  /-- A message is taken in. -/
  | process (r : Run δ) (s : TopicSettings) (mode : Mode) (now : Instant)
    (feeds : r.Feeds topic own s mode now) : Intake r (r.process s mode now)

/-- A step of a serial run. -/
inductive Step : Run δ → Run δ → Prop where
  /-- A step of a producer or of a reader. -/
  | intake {r r' : Run δ} (h : Intake topic own r r') : Step r r'
  /-- Tables are flushed. -/
  | flush (r : Run δ) (order : FlushOrder) (now : Nat) : Step r (r.flush order now)

/-- Steps lead from one state of a run to the other. -/
def Reaches : Run δ → Run δ → Prop := Relation.ReflTransGen (Step topic own)

/-- Steps of producers and readers lead from one state of a run to the other. -/
def Takes : Run δ → Run δ → Prop := Relation.ReflTransGen (Intake topic own)

variable {topic own} in
omit [Destination δ] in
theorem Takes.trans {r r' r'' : Run δ} (h : Takes topic own r r') (h' : Takes topic own r' r'') :
    Takes topic own r r'' :=
  Relation.ReflTransGen.trans h h'

variable {topic own} in
theorem Takes.reaches {r r' : Run δ} (h : Takes topic own r r') : Reaches topic own r r' := by
  induction h with
  | refl => exact .refl
  | tail _ step ih => exact ih.tail (.intake step)

/-! ## A sample run -/

/-- A run over one topic before its first step.  One write of the table `items` is going to fail. -/
def sampleStart (attempts : Nat) : Run TrialStore :=
  start ⟨10, 100⟩ ((TrialStore.new (.new 1000)).failNextFor "items" 1)
    (SortedMap.empty.insert "orders" (.new "orders" .latestPerPartition))
    (.new 0 0 attempts fun _ => true)

/-- A message for a row of a table is pushed and taken in. -/
def sampleFeed (r : Run δ) (table id : String) : Run δ :=
  let key := "\x7b\"id\":" ++ id ++ "\x7d"
  let source := "\x7b\"table\":\"" ++ table ++ "\"\x7d"
  let value := "\x7b\"op\":\"c\",\"after\":" ++ key ++ ",\"source\":" ++ source ++ "\x7d"
  (r.push "orders" 0 (some key.toUTF8) (some value.toUTF8)).process
    (Sample.settings "orders") .replication ⟨0⟩

omit [Destination δ] in
theorem takes_sampleFeed (r : Run δ) (table id : String) :
    Takes "orders" (fun _ => True) r (r.sampleFeed table id) := by
  refine .tail (.single (.push r "orders" 0 _ _)) (.process _ _ _ _ ?_)
  intro m event _ _
  exact iff_of_true trivial rfl

end Run

end ChangeCapture
