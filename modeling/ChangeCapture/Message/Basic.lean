/-!
# Messages

A message stands at an offset in a partition of a topic.  Once its change is
written it is committed, so that the source does not deliver it again.
-/

namespace ChangeCapture

/-- What a commit of a message acknowledges. -/
inductive AckMode where
  /-- The message and all messages before it in its partition. -/
  | latestPerPartition
  /-- The message alone. -/
  | everyMessage
  deriving DecidableEq, Repr, Inhabited

/-- The name of a mode. -/
def AckMode.name : AckMode → String
  | .latestPerPartition => "latest"
  | .everyMessage => "every"

/-- A message of a topic. -/
structure Message where
  /-- The topic. -/
  topic : String
  /-- The partition of the topic. -/
  partition : Int
  /-- The place in the partition. -/
  offset : Int
  /-- The key. -/
  key : Option ByteArray
  /-- The value. -/
  value : Option ByteArray
  /-- The offset that the partition gives to its next message. -/
  highWaterMark : Int
  /-- Whether the source tells when the message was published. -/
  isDated : Bool
  /-- What a commit of the message acknowledges. -/
  ackMode : AckMode
  deriving Inhabited

namespace Message

/-- The partition and the offset. -/
def position (m : Message) : Int × Int := (m.partition, m.offset)

/-- Whether the message has no value, as one that follows a delete. -/
def isTombstone (m : Message) : Bool := m.value.all ByteArray.isEmpty

/-- The number of messages that stand after this one in its partition. -/
def lag (m : Message) : Int := max (m.highWaterMark - m.offset - 1) 0

end Message

end ChangeCapture
