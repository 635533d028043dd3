import ChangeCapture.Engine.Ingest
import ChangeCapture.Message.Source
import ChangeCapture.Message.Summary
import ChangeCapture.Retry
import ChangeCapture.Store.Destination

/-!
# The engine

The engine joins the buffered tables, the destination that they are flushed
to, and the sources whose messages are committed after a flush.  Messages of a
topic that could not be flushed as a whole are held until the next flush.
-/

namespace ChangeCapture

/-- Tables, destination and sources. -/
structure Engine (δ κ : Type) where
  /-- The buffered tables. -/
  registry : TableRegistry
  /-- The destination. -/
  destination : δ
  /-- The sources by topic. -/
  sources : SortedMap String κ
  /-- The messages that are written but not committed, by topic. -/
  held : SortedMap String (List Message)
  /-- How often a write is tried. -/
  retry : RetryPolicy

/-- Which tables a flush takes, and why. -/
structure FlushOrder where
  /-- The time within which a flushed table is left alone, in milliseconds. -/
  cooldown : Option Nat
  /-- The topic to flush, or none to flush all. -/
  topic : Option String
  /-- Why the flush takes place. -/
  reason : FlushReason
  /-- Whether the flush waits until no message of a topic is being taken in. -/
  locks : Bool
  deriving DecidableEq, Repr

namespace FlushOrder

/-- A flush of one topic, by the reader that takes in its messages. -/
def immediate (topic : String) (reason : FlushReason) : FlushOrder :=
  ⟨none, some topic, reason, false⟩

/-- The last flush, of all topics. -/
def shutdown : FlushOrder := ⟨none, none, .shutdown, true⟩

/-- A flush of all tables that were not flushed within the cooldown. -/
def sweep (cooldown : Nat) : FlushOrder := ⟨some cooldown, none, .time, true⟩

end FlushOrder

namespace Engine

variable {δ κ : Type}

/-- An engine before its first message. -/
def new (thresholds : Thresholds) (destination : δ) (sources : SortedMap String κ)
    (retry : RetryPolicy) : Engine δ κ :=
  ⟨.new thresholds, destination, sources, .empty, retry⟩

/-- Takes in a message. -/
def ingest (e : Engine δ κ) (s : TopicSettings) (mode : Mode) (now : Instant) (m : Message) :
    Engine δ κ × Outcome (Option FlushReason) :=
  let (registry, outcome) := e.registry.ingest s mode now m
  ({ e with registry := registry }, outcome)

/-- Reads the source of a topic, if it has one. -/
def read [Source κ] (e : Engine δ κ) (topic : String) :
    Engine δ κ × Option (Outcome Arrival) :=
  match e.sources.get? topic with
  | none => (e, none)
  | some source =>
    let (arrival, source) := Source.read source
    ({ e with sources := e.sources.insert topic source }, some arrival)

/-- Goes on with a read of a topic that found nothing yet.  A topic without a source is closed. -/
def resume [Source κ] (e : Engine δ κ) (topic : String) : Engine δ κ × Arrival :=
  match e.sources.get? topic with
  | none => (e, .closed)
  | some source =>
    let (arrival, source) := Source.resume source
    ({ e with sources := e.sources.insert topic source }, arrival)

end Engine

end ChangeCapture
