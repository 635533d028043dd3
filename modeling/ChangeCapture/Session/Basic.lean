import ChangeCapture.Engine.Attempt
import ChangeCapture.Session.Turns

/-!
# Sessions

A session runs an engine with workers beside each other in simulated time.  A
reader takes in the messages of a topic, a ticker flushes all topics at fixed
intervals, and a writer is the part of a flush that writes one table.  The
caller starts them and may flush or wait as well.

One worker runs at a time, until it has to wait: for its source, for the end
of a pause, for its turn at a topic or a table, or for the writers of its
flush.  Workers that can go on stand in a line.  The caller goes on when the
line is empty, and time passes only when everyone waits.

Who takes in a message or flushes a topic has the turn at the topic.  Who saves
a row or writes a table has the turn at the table, a writer also in the pauses
between its attempts.
-/

namespace ChangeCapture

/-! ## Workers -/

/-- Where a reader stands. -/
inductive ReaderState where
  /-- It is about to read, after this many reads in a row that failed. -/
  | reading (failures : Nat)
  /-- It waits for its source. -/
  | listening
  /-- It pauses before it reads, after this many reads in a row that failed. -/
  | resting (wake failures : Nat)
  /-- It waits for its turn at the topic, to take in a message. -/
  | queuing (m : Message)
  /-- It waits for its turn at a table, to save the row of a message. -/
  | saving (m : Message) (t : TableId)
  /-- It flushes the topic. -/
  | flushing

/-- Where a ticker stands. -/
inductive TickerState where
  /-- It has not begun. -/
  | starting
  /-- It waits until it is due. -/
  | waiting (due : Nat)
  /-- It flushes all topics, and is due again at this time. -/
  | sweeping (due : Nat)

/-- Where a writer stands. -/
inductive WriterState where
  /-- It waits for its turn at the table. -/
  | queuing
  /-- It pauses before an attempt. -/
  | pausing (wake : Nat) (stage : WriteStage) (attempt : Nat)

/-- A worker. -/
inductive Worker where
  /-- A reader of a topic. -/
  | reader (s : TopicSettings) (state : ReaderState)
  /-- A ticker with its interval. -/
  | ticker (interval : Nat) (state : TickerState)
  /-- A writer of a table, for the flush of a topic by another worker. -/
  | writer (owner : WorkerId) (topic : String) (t : TableId) (cooldown : Option Nat)
    (state : WriterState)

namespace Worker

/-- When a worker that pauses goes on. -/
def wake? : Worker → Option Nat
  | .reader _ (.resting wake _) => some wake
  | .ticker _ (.waiting due) => some due
  | .writer _ _ _ _ (.pausing wake _ _) => some wake
  | _ => none

/-- Whether a worker reads this topic and waits for its source. -/
def listensTo (topic : String) : Worker → Bool
  | .reader s .listening => s.topic == topic
  | _ => false

/-- Whether the signal to stop ends the waiting of a worker. -/
def heedsSignal : Worker → Bool
  | .reader _ .listening => true
  | .ticker _ (.waiting _) => true
  | _ => false

end Worker

/-! ## Flushes in progress -/

/-- Where the flush of a topic stands. -/
inductive TopicFlush where
  /-- It waits for its turn at the topic. -/
  | queuing (tables : List TableId)
  /-- This many writers are not through. -/
  | writing (left : Nat) (outcomes : List (Outcome TableFlush))
  /-- It is through. -/
  | done (outcome : Outcome Unit)

namespace TopicFlush

/-- The outcome, once the topic is through. -/
def outcome? : TopicFlush → Option (Outcome Unit)
  | done outcome => some outcome
  | _ => none

/-- Takes note of a writer that is through. -/
def note (outcome : Outcome TableFlush) : TopicFlush → TopicFlush
  | writing left outcomes => .writing (left - 1) (outcomes ++ [outcome])
  | t => t

end TopicFlush

/-- A flush in progress. -/
structure FlushRun where
  /-- What is flushed. -/
  order : FlushOrder
  /-- The topics. -/
  topics : List (String × TopicFlush)

namespace FlushRun

/-- The outcome, once all topics are through. -/
def outcome? (f : FlushRun) : Option (Outcome Unit) := do
  let outcomes ← f.topics.mapM fun t => t.2.outcome?
  some (FlushOutcomes.joined (FlushOutcomes.faults outcomes))

/-- Takes note of a writer of a topic that is through. -/
def note (f : FlushRun) (topic : String) (outcome : Outcome TableFlush) : FlushRun :=
  { f with
    topics := f.topics.map fun t => if t.1 == topic then (t.1, t.2.note outcome) else t }

end FlushRun

/-! ## Sessions -/

/-- An engine with workers. -/
structure Session (δ κ : Type) where
  /-- The engine. -/
  engine : Engine δ κ
  /-- How rows reach the destination. -/
  mode : Mode
  /-- When the session started. -/
  start : Instant
  /-- The milliseconds that have passed since. -/
  clock : Nat
  /-- Whether the signal to stop was given. -/
  isStopping : Bool
  /-- The workers that are not through. -/
  workers : SortedMap WorkerId Worker
  /-- The workers that can go on, in order. -/
  ready : List WorkerId
  /-- The flushes in progress, by the worker that waits for them. -/
  flushes : SortedMap WorkerId FlushRun
  /-- The turns at the topics. -/
  topicTurns : Turns String
  /-- The turns at the tables. -/
  tableTurns : Turns TableId
  /-- The number of the last worker. -/
  lastWorker : WorkerId
  /-- The readers that nobody waited for yet. -/
  readers : List (String × WorkerId)
  /-- The ticker that nobody waited for yet. -/
  ticker : Option WorkerId

namespace Session

variable {δ κ : Type}

/-- The number of the caller. -/
def caller : WorkerId := 0

/-- A session before its first worker. -/
def new (engine : Engine δ κ) (mode : Mode) (start : Instant) : Session δ κ :=
  ⟨engine, mode, start, 0, false, .empty, [], .empty, .empty, .empty, caller, [], none⟩

/-- The time of day. -/
def now (s : Session δ κ) : Instant := s.start.later s.clock

/-! ### The line -/

/-- Puts a worker at the end of the line, unless it stands there. -/
def awaken (s : Session δ κ) (w : WorkerId) : Session δ κ :=
  if w == caller || s.ready.contains w then s else { s with ready := s.ready ++ [w] }

/-- Puts workers at the end of the line. -/
def awakenThose (s : Session δ κ) (p : Worker → Bool) : Session δ κ :=
  s.workers.toList.foldl (fun s (w, worker) => if p worker then s.awaken w else s) s

/-- Lets a worker go on at once. -/
def proceed (s : Session δ κ) (w : WorkerId) : Session δ κ := { s with ready := w :: s.ready }

/-- Changes what a worker is at. -/
def become (s : Session δ κ) (w : WorkerId) (worker : Worker) : Session δ κ :=
  { s with workers := s.workers.insert w worker }

/-- Lets a worker go on at once with something else. -/
def continueAs (s : Session δ κ) (w : WorkerId) (worker : Worker) : Session δ κ :=
  (s.become w worker).proceed w

/-- Adds a worker at the end of the line. -/
def spawn (s : Session δ κ) (worker : Worker) : Session δ κ :=
  let w := s.lastWorker + 1
  ({ s with lastWorker := w }.become w worker).awaken w

/-- Takes away a worker that is through. -/
def retire (s : Session δ κ) (w : WorkerId) : Session δ κ :=
  { s with workers := s.workers.erase w }

/-! ### Turns -/

/-- Gives a topic to the next in line. -/
def passTopic (s : Session δ κ) (topic : String) : Session δ κ :=
  let turns := s.topicTurns.pass topic
  let s := { s with topicTurns := turns }
  ((turns.holder? topic).map s.awaken).getD s

/-- Gives a table to the next in line. -/
def passTable (s : Session δ κ) (t : TableId) : Session δ κ :=
  let turns := s.tableTurns.pass t
  let s := { s with tableTurns := turns }
  ((turns.holder? t).map s.awaken).getD s

/-! ### Sources and destination -/

/-- Changes the destination from outside. -/
def changeDestination (s : Session δ κ) (f : δ → δ) : Session δ κ :=
  { s with engine := { s.engine with destination := f s.engine.destination } }

/-- Changes the source of a topic from outside.  Its readers take notice. -/
def changeSource (s : Session δ κ) (topic : String) (f : κ → κ) : Session δ κ :=
  match s.engine.sources.get? topic with
  | none => s
  | some source =>
    { s with
      engine := { s.engine with sources := s.engine.sources.insert topic (f source) }
    }.awakenThose (Worker.listensTo topic)

end Session

end ChangeCapture
