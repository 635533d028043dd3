import ChangeCapture.Session.Step

/-!
# What the caller of a session does

The caller starts readers and tickers, waits for them, and may flush or take in
messages itself.  A flush that meets no worker and does not pause goes through
in one go (`Engine.flush`).
-/

namespace ChangeCapture

namespace Session

variable {δ κ : Type}

/-! ## Starting workers -/

/-- Starts a reader for each topic that has a source. -/
def startReaders (s : Session δ κ) (topics : List TopicSettings) : Session δ κ :=
  topics.foldl (fun s settings =>
    if s.engine.sources.contains settings.topic then
      let s := s.spawn (.reader settings (.reading 0))
      { s with readers := s.readers ++ [(settings.topic, s.lastWorker)] }
    else s) s

/-- Starts a ticker. -/
def startTicker (s : Session δ κ) (interval : Nat) : Session δ κ :=
  let s := s.spawn (.ticker (max interval 1) .starting)
  { s with ticker := some s.lastWorker }

/-- Gives the signal to stop. -/
def signal (s : Session δ κ) : Session δ κ :=
  { s with isStopping := true }.awakenThose Worker.heedsSignal

variable [Destination δ] [Source κ]

/-! ## Waiting -/

/-- A goal that a look at the session decides. -/
def Goal.of (p : Session δ κ → Bool) : Goal δ κ Unit := fun s => (s, if p s then some () else none)

/-- Waits until something holds, for some milliseconds at most.  The flag tells whether it holds. -/
def waitUntil (s : Session δ κ) (p : Session δ κ → Bool) (limit : Option Nat) :
    Session δ κ × Bool :=
  let (s, reached) := s.run (Goal.of p) (limit.map (s.clock + ·))
  (s, reached.isSome)

/-- Waits some milliseconds. -/
def wait (s : Session δ κ) (ms : Nat) : Session δ κ :=
  let due := s.clock + ms
  (s.waitUntil (fun s => due ≤ s.clock) (some ms)).1

/-- Moves the clock at one stroke.  Only then do the workers notice. -/
def advance (s : Session δ κ) (ms : Nat) : Session δ κ :=
  let s := drainLine patience { s with clock := s.clock + ms }
  s.moveClock s.clock

/-- Waits until a worker is through, for some milliseconds at most. -/
def waitFor (s : Session δ κ) (w : WorkerId) (limit : Option Nat) : Session δ κ × Bool :=
  s.waitUntil (fun s => !s.workers.contains w) limit

/-- Waits for the reader of a topic, for some milliseconds at most.  There is no flag if there is
no reader. -/
def waitForReader (s : Session δ κ) (topic : String) (limit : Nat) : Session δ κ × Option Bool :=
  match s.readers.find? fun (name, _) => name == topic with
  | none => (s, none)
  | some (_, w) =>
    let (s, isThrough) := s.waitFor w (some limit)
    ({ s with
      readers := if isThrough then s.readers.filter fun (_, v) => v != w else s.readers },
      some isThrough)

/-- Waits for readers to be through. -/
def waitForReaders (s : Session δ κ) (those : List (String × WorkerId)) : Session δ κ :=
  let s := those.foldl (fun s (_, w) => (s.waitFor w none).1) s
  { s with readers := s.readers.filter fun (_, w) => !those.any fun (_, v) => v == w }

/-- Waits for the readers whose sources satisfy a condition, as those that are closed. -/
def drain (s : Session δ κ) (isClosed : κ → Bool) : Session δ κ :=
  s.waitForReaders <| s.readers.filter fun (topic, _) =>
    (s.engine.sources.get? topic).any isClosed

/-- Gives the signal to stop and waits for all readers and the ticker. -/
def stop (s : Session δ κ) : Session δ κ :=
  let s := s.signal
  let s := s.waitForReaders s.readers
  match s.ticker with
  | none => s
  | some w => { (s.waitFor w none).1 with ticker := none }

/-! ## Flushing -/

/-- Flushes the tables that an order selects. -/
def flush (s : Session δ κ) (order : FlushOrder) : Session δ κ × Outcome Unit :=
  if s.workers.isEmpty && s.engine.retry.backoff.isImmediate then
    let flushed := s.engine.flush order s.clock
    ({ s with engine := flushed.state }, flushed.outcome)
  else
    let (s, outcome) := (s.beginFlush caller order).run (fun s => s.stepFlush caller) none
    (s, outcome.getD (.ok ()))

/-- Stops the readers and the ticker, those of closed sources after they have read what is left,
and flushes all topics. -/
def shutdown (s : Session δ κ) (isClosed : κ → Bool) : Session δ κ × Outcome Unit :=
  ((s.drain isClosed).stop).flush .shutdown

/-! ## Taking in messages -/

/-- Takes in a message, once its table is free. -/
def process (s : Session δ κ) (settings : TopicSettings) (m : Message) :
    Session δ κ × Outcome (Option FlushReason) :=
  match s.contended? settings m with
  | none => s.ingest settings m
  | some t =>
    let s := { s with tableTurns := s.tableTurns.ask t caller }
    let (s, _) := s.waitUntil (fun s => s.tableTurns.has t caller) none
    (s.passTable t).ingest settings m

end Session

end ChangeCapture
