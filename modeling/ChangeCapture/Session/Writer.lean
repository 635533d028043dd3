import ChangeCapture.Session.Basic

/-!
# Flushes beside other work

A flush waits for its turn at each topic, then has a writer write each table,
and settles the topic once all its writers are through.  The topics of a flush
do not wait for each other.
-/

namespace ChangeCapture

namespace Session

variable {δ κ : Type}

/-! ## Writers -/

/-- A writer is through.  It gives back the table and reports to the flush that waits for it. -/
def finishWriter (s : Session δ κ) (w owner : WorkerId) (topic : String) (t : TableId)
    (outcome : Outcome TableFlush) : Session δ κ :=
  let s := (s.passTable t).retire w
  match s.flushes.get? owner with
  | none => s
  | some flush =>
    { s with flushes := s.flushes.insert owner (flush.note topic outcome) }.awaken owner

/-- Lets a writer that has its turn begin. -/
def beginWrite (s : Session δ κ) (w owner : WorkerId) (topic : String) (t : TableId)
    (cooldown : Option Nat) : Session δ κ :=
  match s.engine.registry.get? t with
  | none => s.finishWriter w owner topic t (.ok .nothing)
  | some b =>
    match b.startFlush cooldown s.clock with
    | .done flush => s.finishWriter w owner topic t (.ok flush)
    | .write window =>
      s.continueAs w (.writer owner topic t cooldown (.pausing s.clock (.describe b window) 0))

/-- Lets a writer go on. -/
def runWriter [Destination δ] (s : Session δ κ) (w owner : WorkerId) (topic : String) (t : TableId)
    (cooldown : Option Nat) : WriterState → Session δ κ
  | .queuing =>
    let s := if s.tableTurns.has t w then s else { s with tableTurns := s.tableTurns.ask t w }
    if s.tableTurns.has t w then s.beginWrite w owner topic t cooldown else s
  | .pausing _ stage n =>
    let (e, result) := s.engine.attempt stage n s.clock
    let s := { s with engine := e }
    match result with
    | .finished outcome => s.finishWriter w owner topic t outcome
    | .next pause stage n =>
      let worker := Worker.writer owner topic t cooldown (.pausing (s.clock + pause) stage n)
      if pause == 0 then s.continueAs w worker else s.become w worker

/-! ## Flushes -/

/-- Begins a flush for a worker. -/
def beginFlush (s : Session δ κ) (owner : WorkerId) (order : FlushOrder) : Session δ κ :=
  match s.engine.selection order with
  | .error f =>
    { s with flushes := s.flushes.insert owner ⟨order, [(order.topic.getD "", .done (.error f))]⟩ }
  | .ok topics =>
    let topics := topics.map fun (topic, tables) =>
      (topic, if s.engine.sources.contains topic then .queuing tables
        else .done (.error (Engine.strayTables topic)))
    let turns := if order.locks then
        topics.foldl (fun turns (topic, t) => match t with
          | TopicFlush.queuing _ => turns.ask topic owner
          | _ => turns) s.topicTurns
      else s.topicTurns
    { s with
      topicTurns := turns
      flushes := s.flushes.insert owner ⟨order, topics⟩ }

variable [Destination δ] [Source κ]

/-- Settles a topic whose writers are through, and gives back the topic. -/
def settle (s : Session δ κ) (order : FlushOrder) (topic : String)
    (outcomes : List (Outcome TableFlush)) : Session δ κ × TopicFlush :=
  let (e, outcome) := match s.engine.sources.get? topic with
    | none => (s.engine, .error (Engine.strayTables topic))
    | some source => s.engine.settle topic source outcomes
  let s := { s with engine := e }
  (if order.locks then s.passTopic topic else s, .done outcome)

/-- Takes the flush of a topic as far as it goes. -/
def stepTopic (s : Session δ κ) (owner : WorkerId) (order : FlushOrder) (topic : String) :
    TopicFlush → Session δ κ × TopicFlush
  | .queuing [] =>
    if !order.locks || s.topicTurns.has topic owner then s.settle order topic []
    else (s, .queuing [])
  | .queuing tables =>
    if !order.locks || s.topicTurns.has topic owner then
      (tables.foldl (fun s t => s.spawn (.writer owner topic t order.cooldown .queuing)) s,
        .writing tables.length [])
    else (s, .queuing tables)
  | .writing 0 outcomes => s.settle order topic outcomes
  | t => (s, t)

/-- Takes the flush of topics as far as it goes. -/
def stepTopics (s : Session δ κ) (owner : WorkerId) (order : FlushOrder) :
    List (String × TopicFlush) → Session δ κ × List (String × TopicFlush)
  | [] => (s, [])
  | (topic, t) :: rest =>
    let (s, t) := s.stepTopic owner order topic t
    let (s, rest) := s.stepTopics owner order rest
    (s, (topic, t) :: rest)

/-- Takes the flush that a worker waits for as far as it goes.  The outcome is there once the flush
is through. -/
def stepFlush (s : Session δ κ) (owner : WorkerId) : Session δ κ × Option (Outcome Unit) :=
  match s.flushes.get? owner with
  | none => (s, none)
  | some flush =>
    let (s, topics) := s.stepTopics owner flush.order flush.topics
    let flush := { flush with topics := topics }
    match flush.outcome? with
    | some outcome => ({ s with flushes := s.flushes.erase owner }, some outcome)
    | none => ({ s with flushes := s.flushes.insert owner flush }, none)

end Session

end ChangeCapture
