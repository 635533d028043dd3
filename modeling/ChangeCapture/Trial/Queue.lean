import ChangeCapture.Message.Source

/-!
# Queues with planned failures

A queue that fails reads and commits as planned.
-/

namespace ChangeCapture

/-- A queue with planned failures. -/
structure TrialQueue where
  /-- The queue. -/
  queue : MessageQueue
  /-- The number of reads that fail next. -/
  readFailures : Nat
  /-- The number of commits that fail next. -/
  commitFailures : Nat
  deriving Inhabited

namespace TrialQueue

/-- A queue without planned failures. -/
def new (queue : MessageQueue) : TrialQueue := ⟨queue, 0, 0⟩

/-- Adds a message to a partition. -/
def push (q : TrialQueue) (partition : Int) (key value : Option ByteArray) : TrialQueue :=
  { q with queue := q.queue.push partition key value }

/-- Takes the next message from the queue itself. -/
def readThrough (q : TrialQueue) : Arrival × TrialQueue :=
  let (arrival, queue) := q.queue.read
  (arrival, { q with queue := queue })

/-- Takes the next message, unless a failure is planned. -/
def read (q : TrialQueue) : Outcome Arrival × TrialQueue :=
  if 0 < q.readFailures then
    (.error (.plain .sourceError "Injected read failure"),
      { q with readFailures := q.readFailures - 1 })
  else
    let (arrival, q) := q.readThrough
    (.ok arrival, q)

/-- Commits messages, unless a failure is planned. -/
def commit (q : TrialQueue) (ms : List Message) : Outcome Unit × TrialQueue :=
  if 0 < q.commitFailures then
    (.error (.plain .commitFailed "Injected commit failure"),
      { q with commitFailures := q.commitFailures - 1 })
  else (.ok (), { q with queue := q.queue.commit ms })

instance : Source TrialQueue where
  read := read
  resume := readThrough
  commit := commit

end TrialQueue

end ChangeCapture
