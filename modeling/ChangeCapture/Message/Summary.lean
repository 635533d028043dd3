import ChangeCapture.Message.Basic
import ChangeCapture.SortedMap

/-!
# What to commit

The messages of a topic that remain to be committed.  A partition that
acknowledges up to an offset needs its greatest offset alone; one that
acknowledges message by message needs each offset once.
-/

namespace ChangeCapture

/-- The messages of one partition by offset. -/
abbrev OffsetMap := SortedMap Int Message

namespace OffsetMap

/-- The greatest offset. -/
def last? (p : OffsetMap) : Option Int := p.keys.getLast?

/-- Adds a message.  One that acknowledges up to its offset replaces all others if none of them
stands at its offset or after it. -/
def record (p : OffsetMap) (m : Message) : OffsetMap :=
  match m.ackMode with
  | .latestPerPartition =>
    if p.last?.all (· < m.offset) then SortedMap.empty.insert m.offset m else p
  | .everyMessage => p.insert m.offset m

end OffsetMap

/-- The messages of a topic by partition and offset. -/
abbrev PositionMap := SortedMap Int OffsetMap

namespace PositionMap

/-- Adds a message to its partition. -/
def record (ps : PositionMap) (m : Message) : PositionMap :=
  ps.alter m.partition fun p => (p.getD .empty).record m

/-- The messages in the order of partitions and offsets. -/
def messages (ps : PositionMap) : List Message := ps.values.flatMap SortedMap.values

end PositionMap

/-- The messages to commit for those of one topic. -/
def Message.summary (ms : List Message) : List Message :=
  PositionMap.messages (ms.foldl PositionMap.record .empty)

end ChangeCapture
