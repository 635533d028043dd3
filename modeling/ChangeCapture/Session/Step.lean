import ChangeCapture.Session.Writer

/-!
# Steps of a session

What readers and tickers do when they can go on, and how time passes
(`Session.run`).  After a flush a reader pauses, so that a topic that flushes
all the time leaves room for others.  Reads that fail are tried again after
pauses that grow.
-/

namespace ChangeCapture

/-- The pauses of a reader whose reads fail. -/
def ReaderState.afterFailure : Backoff := ⟨100, 5000⟩

/-- The pause of a reader after a flush. -/
def ReaderState.afterFlush : Backoff := ⟨50, 50⟩

/-- The lateness that a ticker puts up with, in milliseconds. -/
def TickerState.tolerance : Nat := 5

/-- When a ticker is due again.  One that is late skips what it missed. -/
def TickerState.nextDue (interval due now : Nat) : Nat :=
  if now ≤ due + tolerance then due + interval else now + interval - (now - due) % interval

namespace Session

variable {δ κ : Type} [Destination δ] [Source κ]

/-! ## Readers -/

/-- The table that the row of a message is saved into, if another worker has it. -/
def contended? (s : Session δ κ) (settings : TopicSettings) (m : Message) : Option TableId :=
  match RowEvent.ofMessage settings s.mode s.now m with
  | .ok (some e) =>
    if e.isValid && !s.tableTurns.isFree e.tableId then some e.tableId else none
  | _ => none

/-- Takes in a message. -/
def ingest (s : Session δ κ) (settings : TopicSettings) (m : Message) :
    Session δ κ × Outcome (Option FlushReason) :=
  let (e, outcome) := s.engine.ingest settings s.mode s.now m
  ({ s with engine := e }, outcome)

/-- Takes in a message as a reader that has the topic.  The reader flushes the topic if it must,
or else gives it back. -/
def ingestAs (s : Session δ κ) (w : WorkerId) (settings : TopicSettings) (m : Message) :
    Session δ κ :=
  match s.ingest settings m with
  | (s, .ok (some reason)) =>
    (s.beginFlush w (.immediate settings.topic reason)).continueAs w (.reader settings .flushing)
  | (s, _) => (s.passTopic settings.topic).continueAs w (.reader settings (.reading 0))

/-- Goes on with what a read gave. -/
def receive (s : Session δ κ) (w : WorkerId) (settings : TopicSettings) : Arrival → Session δ κ
  | .message m =>
    let s := { s with topicTurns := s.topicTurns.ask settings.topic w }
    let s := s.become w (.reader settings (.queuing m))
    if s.topicTurns.has settings.topic w then s.proceed w else s
  | .waiting => s.become w (.reader settings .listening)
  | .closed => s.retire w

/-- Lets a reader go on. -/
def runReader (s : Session δ κ) (w : WorkerId) (settings : TopicSettings) :
    ReaderState → Session δ κ
  | .reading failures =>
    if s.isStopping then s.retire w
    else
      match s.engine.read settings.topic with
      | (_, none) => s.retire w
      | (e, some (.ok arrival)) => { s with engine := e }.receive w settings arrival
      | (e, some (.error _)) =>
        let wake := s.clock + ReaderState.afterFailure.pause failures
        { s with engine := e }.become w (.reader settings (.resting wake (failures + 1)))
  | .listening =>
    if s.isStopping then s.retire w
    else
      let (e, arrival) := s.engine.resume settings.topic
      { s with engine := e }.receive w settings arrival
  | .resting _ failures => s.continueAs w (.reader settings (.reading failures))
  | .queuing m =>
    match s.contended? settings m with
    | none => s.ingestAs w settings m
    | some t =>
      { s with tableTurns := s.tableTurns.ask t w }.become w (.reader settings (.saving m t))
  | .saving m t => (s.passTable t).ingestAs w settings m
  | .flushing =>
    match s.stepFlush w with
    | (s, none) => s
    | (s, some _) =>
      let wake := s.clock + ReaderState.afterFlush.pause 0
      (s.passTopic settings.topic).become w (.reader settings (.resting wake 0))

/-! ## Tickers -/

/-- Lets a ticker go on. -/
def runTicker (s : Session δ κ) (w : WorkerId) (interval : Nat) : TickerState → Session δ κ
  | .starting => s.continueAs w (.ticker interval (.waiting (s.clock + interval)))
  | .waiting due =>
    if s.isStopping then s.retire w
    else if s.clock < due then s
    else
      (s.beginFlush w (.sweep interval)).continueAs w
        (.ticker interval (.sweeping (TickerState.nextDue interval due s.clock)))
  | .sweeping due =>
    match s.stepFlush w with
    | (s, none) => s
    | (s, some _) => s.continueAs w (.ticker interval (.waiting due))

/-! ## The line and the clock -/

/-- Lets a worker go on. -/
def runWorker (s : Session δ κ) (w : WorkerId) : Session δ κ :=
  match s.workers.get? w with
  | none => s
  | some (.reader settings state) => s.runReader w settings state
  | some (.ticker interval state) => s.runTicker w interval state
  | some (.writer owner topic t cooldown state) => s.runWriter w owner topic t cooldown state

/-- When the next worker ends its pause. -/
def nextWake? (s : Session δ κ) : Option Nat :=
  (s.workers.values.filterMap Worker.wake?).min?

/-- Moves the clock.  Workers whose pause is over can go on. -/
def moveClock (s : Session δ κ) (clock : Nat) : Session δ κ :=
  { s with clock := clock }.awakenThose fun worker => worker.wake?.any (· ≤ clock)

/-- Lets the workers go on until the line is empty, for at most this many steps. -/
def drainLine : Nat → Session δ κ → Session δ κ
  | 0, s => s
  | steps + 1, s =>
    match s.ready with
    | [] => s
    | w :: rest => drainLine steps ({ s with ready := rest }.runWorker w)

/-- Whether the caller is done, as it sees the session when the line is empty. -/
abbrev Goal (δ κ α : Type) := Session δ κ → Session δ κ × Option α

/-- Lets the workers go on until the caller reaches its goal, or the clock reaches a limit, for at
most this many steps. -/
def runFor {α : Type} (goal : Goal δ κ α) (limit : Option Nat) :
    Nat → Session δ κ → Session δ κ × Option α
  | 0, s => (s, none)
  | steps + 1, s =>
    match s.ready with
    | w :: rest => runFor goal limit steps ({ s with ready := rest }.runWorker w)
    | [] =>
      match goal s with
      | (s, some a) => (s, some a)
      | (s, none) =>
        if !s.ready.isEmpty then runFor goal limit steps s
        else
          match s.nextWake?, limit with
          | none, none => (s, none)
          | none, some limit => (s.moveClock (max s.clock limit), none)
          | some wake, none => runFor goal limit steps (s.moveClock (max s.clock wake))
          | some wake, some limit =>
            if limit ≤ wake then (s.moveClock (max s.clock limit), none)
            else runFor goal (some limit) steps (s.moveClock (max s.clock wake))

/-- The number of steps after which a session is left alone. -/
def patience : Nat := 1000000000

/-- Lets the workers go on until the caller reaches its goal, or the clock reaches a limit.  A goal
that is met already takes no time. -/
def run {α : Type} (s : Session δ κ) (goal : Goal δ κ α) (limit : Option Nat) :
    Session δ κ × Option α :=
  match goal s with
  | (s, some a) => (s, some a)
  | (s, none) => runFor goal limit patience s

end Session

end ChangeCapture
