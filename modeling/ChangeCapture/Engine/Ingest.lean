import ChangeCapture.Debezium.Envelope
import ChangeCapture.RowEvent.Saving
import ChangeCapture.RowEvent.Shaping

/-!
# Taking in messages

A message is decoded, shaped into a row event and saved.  A tombstone follows
a delete that was taken in already, so it is passed over.
-/

namespace ChangeCapture

/-- The event that a message holds, or none if the message is a tombstone. -/
def RowEvent.ofMessage (s : TopicSettings) (mode : Mode) (now : Instant) (m : Message) :
    Outcome (Option RowEvent) :=
  if m.isTombstone then .ok none
  else
    match m.key with
    | none =>
      .error (.detailed .deserializationError "Message has no key"
        ("partition " ++ toString m.partition ++ " offset " ++ toString m.offset))
    | some key => do
      let key ← Debezium.readKey s.keyFormat key
      let change ← Debezium.readValue (m.value.getD .empty)
      some <$> RowEvent.ofChange s mode now key change

namespace TableRegistry

/-- Takes in a message.  The outcome tells why its topic must be flushed now, if it must. -/
def ingest (r : TableRegistry) (s : TopicSettings) (mode : Mode) (now : Instant) (m : Message) :
    TableRegistry × Outcome (Option FlushReason) :=
  match RowEvent.ofMessage s mode now m with
  | .error f => (r, .error f)
  | .ok none => (r, .ok none)
  | .ok (some e) => e.save s m r

end TableRegistry

end ChangeCapture
