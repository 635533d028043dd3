import ChangeCapture.Fault
import ChangeCapture.Message.Queue

/-!
# Sources

A source gives the messages of a topic one by one and takes back commits.
-/

namespace ChangeCapture

/-- A kind of source, as a state that operations change. -/
class Source (κ : Type) where
  /-- Takes the next message. -/
  read : κ → Outcome Arrival × κ
  /-- Goes on with a read that found nothing yet. -/
  resume : κ → Arrival × κ
  /-- Commits messages. -/
  commit : κ → List Message → Outcome Unit × κ

instance : Source MessageQueue where
  read q := (.ok q.read.1, q.read.2)
  resume := MessageQueue.read
  commit q ms := (.ok (), q.commit ms)

end ChangeCapture
