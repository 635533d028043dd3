import ChangeCapture.Message.Basic
import ChangeCapture.SortedMap

/-!
# Message queues

The queue of a topic in memory.  Each partition gives its messages the offsets
0, 1, 2 and so on; commits are kept in order.
-/

namespace ChangeCapture

/-- A queue of messages. -/
structure MessageQueue where
  /-- The topic. -/
  topic : String
  /-- How new messages are acknowledged. -/
  ackMode : AckMode
  /-- The messages that were not read yet. -/
  pending : List Message
  /-- The next offset of each partition. -/
  nextOffsets : SortedMap Int Int
  /-- Whether no more messages follow. -/
  isClosed : Bool
  /-- The commits in order. -/
  commits : List (List Message)
  /-- The greatest offset that was committed in each partition. -/
  committed : SortedMap Int Int
  deriving Inhabited

/-- What reading a queue gives. -/
inductive Arrival where
  /-- A message. -/
  | message (m : Message)
  /-- Nothing yet. -/
  | waiting
  /-- Nothing any more. -/
  | closed
  deriving Inhabited

namespace MessageQueue

/-- The queue of a topic before the first message. -/
def new (topic : String) (ackMode : AckMode) : MessageQueue :=
  ⟨topic, ackMode, [], .empty, false, [], .empty⟩

/-- The offset of the next message of a partition. -/
def nextOffset (q : MessageQueue) (partition : Int) : Int := q.nextOffsets.getD partition 0

/-- The message that `push` adds. -/
def nextMessage (q : MessageQueue) (partition : Int) (key value : Option ByteArray) : Message where
  topic := q.topic
  partition := partition
  offset := q.nextOffset partition
  key := key
  value := value
  highWaterMark := q.nextOffset partition + 1
  isDated := true
  ackMode := q.ackMode

/-- Adds a message to a partition. -/
def push (q : MessageQueue) (partition : Int) (key value : Option ByteArray) : MessageQueue :=
  { q with
    pending := q.pending ++ [q.nextMessage partition key value]
    nextOffsets := q.nextOffsets.insert partition (q.nextOffset partition + 1) }

/-- Ends the queue.  What is pending can still be read. -/
def close (q : MessageQueue) : MessageQueue := { q with isClosed := true }

/-- A message as it is read, with the mark that its partition has reached by then. -/
def stamped (q : MessageQueue) (m : Message) : Message :=
  { m with highWaterMark := q.nextOffsets.getD m.partition (m.offset + 1) }

/-- Takes the first pending message. -/
def read (q : MessageQueue) : Arrival × MessageQueue :=
  match q.pending with
  | m :: rest => (.message (q.stamped m), { q with pending := rest })
  | [] => (if q.isClosed then .closed else .waiting, q)

/-- Raises the committed offset of the partition of a message. -/
def raise (committed : SortedMap Int Int) (m : Message) : SortedMap Int Int :=
  committed.alter m.partition fun offset => max (offset.getD m.offset) m.offset

/-- Commits messages. -/
def commit (q : MessageQueue) (ms : List Message) : MessageQueue :=
  { q with
    commits := q.commits ++ [ms]
    committed := ms.foldl raise q.committed }

end MessageQueue

end ChangeCapture
