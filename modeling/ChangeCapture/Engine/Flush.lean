import ChangeCapture.Engine.Basic

/-!
# Flushes

A flush writes the windows of tables to the destination.  Each table is written
on its own: one that fails or is left alone keeps its window.  A topic commits
its messages only if none of its tables failed or was left alone.  Otherwise
the messages of the tables that were written are held for the next flush.

A flush reads the list of tables first (`Engine.selection`) and then goes
through the topics.  What it does to one table (`Engine.flushTable`) and what it
does once the tables of a topic are through (`Engine.settle`) are steps of
their own.
-/

namespace ChangeCapture

/-- What a flush did to a table that did not fail. -/
inductive TableFlush where
  /-- There was nothing to write. -/
  | nothing
  /-- The table was left alone, or the destination did not allow a commit. -/
  | kept
  /-- The rows were written.  These are the messages to commit. -/
  | written (ms : List Message)
  deriving Inhabited

namespace TableFlush

/-- The messages to commit. -/
def messages : TableFlush → List Message
  | written ms => ms
  | _ => []

/-- Whether rows stay buffered. -/
def isKept : TableFlush → Bool
  | kept => true
  | _ => false

end TableFlush

/-! ## Outcomes of the tables of a topic -/

namespace FlushOutcomes

/-- The faults. -/
def faults {α : Type} (outcomes : List (Outcome α)) : List Fault :=
  outcomes.filterMap fun
    | .error f => some f
    | .ok _ => none

/-- The messages of the tables that were written. -/
def messages (outcomes : List (Outcome TableFlush)) : List Message :=
  outcomes.flatMap fun
    | .ok flush => flush.messages
    | .error _ => []

/-- Whether no table failed or was left alone. -/
def areComplete (outcomes : List (Outcome TableFlush)) : Bool :=
  outcomes.all fun
    | .ok flush => !flush.isKept
    | .error _ => false

/-- The outcome of several steps. -/
def joined (fs : List Fault) : Outcome Unit := if fs.isEmpty then .ok () else .error (.ofList fs)

end FlushOutcomes

/-! ## One table -/

/-- What a flush finds in a buffer: a window to write, or nothing to do. -/
inductive FlushStart where
  /-- The flush of the table ends here. -/
  | done (flush : TableFlush)
  /-- The window is to be written. -/
  | write (w : Window)

/-- What a flush finds in a buffer. -/
def TableBuffer.startFlush (b : TableBuffer) (cooldown : Option Nat) (now : Nat) : FlushStart :=
  match b.window with
  | none => .done .nothing
  | some w =>
    if w.isEmpty then .done .nothing
    else if cooldown.any fun cooldown => b.isCooling cooldown now then .done .kept
    else .write w

/-- A step of a flush with the milliseconds that it spent in pauses. -/
structure Timed (ε α : Type) where
  /-- The state after the step. -/
  state : ε
  /-- The outcome. -/
  outcome : Outcome α
  /-- The milliseconds spent in pauses. -/
  paused : Nat

namespace Engine

variable {δ κ : Type}

/-- Replaces the window of a table. -/
def setWindow (e : Engine δ κ) (b : TableBuffer) (w : Window) : Engine δ κ :=
  { e with registry := e.registry.set b.tableId (b.setWindow w) }

/-- Ends a write that did not fail.  If the destination allows a commit, the buffer is wiped. -/
def finishWrite (e : Engine δ κ) (b : TableBuffer) (w : Window) (commits : Bool) (now : Nat) :
    Engine δ κ × TableFlush :=
  if commits then
    ({ e with registry := e.registry.set b.tableId (b.wipe now) }, .written w.lastMessages)
  else (e.setWindow b w, .kept)

variable [Destination δ]

/-- Writes a window, after its columns were matched with those of the destination. -/
def writeWindow (e : Engine δ κ) (b : TableBuffer) (w : Window) (now : Nat) :
    Timed (Engine δ κ) TableFlush :=
  let described := e.retry.run (fun _ d => Destination.describe d w.path) e.destination
  match described.outcome with
  | .error f => ⟨{ e with destination := described.state }, .error f, described.paused⟩
  | .ok description =>
    let w := w.adopt description.columns
    let written := e.retry.run (fun _ d => Destination.write d w) described.state
    let e := { e with destination := written.state }
    let paused := described.paused + written.paused
    match written.outcome with
    | .error f => ⟨e.setWindow b w, .error f, paused⟩
    | .ok commits =>
      let (e, flush) := e.finishWrite b w commits (now + paused)
      ⟨e, .ok flush, paused⟩

/-- Flushes a table. -/
def flushTable (e : Engine δ κ) (t : TableId) (cooldown : Option Nat) (now : Nat) :
    Timed (Engine δ κ) TableFlush :=
  match e.registry.get? t with
  | none => ⟨e, .ok .nothing, 0⟩
  | some b =>
    match b.startFlush cooldown now with
    | .done flush => ⟨e, .ok flush, 0⟩
    | .write w => e.writeWindow b w now

/-- Flushes tables one after the other.  They do not wait for each other's pauses. -/
def flushTables (e : Engine δ κ) (cooldown : Option Nat) (now : Nat) :
    List TableId → Engine δ κ × List (Outcome TableFlush) × Nat
  | [] => (e, [], 0)
  | t :: rest =>
    let first := e.flushTable t cooldown now
    let (e, outcomes, paused) := first.state.flushTables cooldown now rest
    (e, first.outcome :: outcomes, max first.paused paused)

/-! ## One topic -/

variable [Source κ]

/-- Commits messages to the source of a topic. -/
def commit (e : Engine δ κ) (topic : String) (source : κ) (ms : List Message) :
    Engine δ κ × Outcome Unit :=
  let (outcome, source) := Source.commit source ms
  ({ e with sources := e.sources.insert topic source }, outcome)

/-- Ends the flush of a topic: commits the messages of its tables and those that were held, or
holds them. -/
def settle (e : Engine δ κ) (topic : String) (source : κ) (outcomes : List (Outcome TableFlush)) :
    Engine δ κ × Outcome Unit :=
  let faults := FlushOutcomes.faults outcomes
  let ms := FlushOutcomes.messages outcomes ++ e.held.getD topic []
  let e := { e with held := e.held.erase topic }
  if ms.isEmpty then (e, FlushOutcomes.joined faults)
  else
    let ms := Message.summary ms
    if FlushOutcomes.areComplete outcomes then e.commit topic source ms
    else ({ e with held := e.held.insert topic ms }, FlushOutcomes.joined faults)

/-- The fault of a flush of tables whose topic has no source. -/
def strayTables (topic : String) : Fault :=
  .detailed .unknownTopic "Buffered tables belong to an unknown topic" topic

/-- Flushes tables of a topic. -/
def flushTopic (e : Engine δ κ) (topic : String) (tables : List TableId) (cooldown : Option Nat)
    (now : Nat) : Timed (Engine δ κ) Unit :=
  match e.sources.get? topic with
  | none => ⟨e, .error (strayTables topic), 0⟩
  | some source =>
    let (e, outcomes, paused) := e.flushTables cooldown now tables
    let (e, outcome) := e.settle topic source outcomes
    ⟨e, outcome, paused⟩

/-! ## All topics -/

/-- The tables that a flush takes, by topic. -/
def selection (e : Engine δ κ) (order : FlushOrder) : Outcome (List (String × List TableId)) :=
  match order.topic with
  | none => .ok e.registry.topics.toList
  | some topic =>
    if e.sources.contains topic then .ok [(topic, e.registry.tablesOf topic)]
    else .error (.detailed .unknownTopic "Flush requested for an unknown topic" topic)

/-- Flushes topics one after the other.  They do not wait for each other's pauses. -/
def flushTopics (e : Engine δ κ) (cooldown : Option Nat) (now : Nat) :
    List (String × List TableId) → Engine δ κ × List (Outcome Unit) × Nat
  | [] => (e, [], 0)
  | (topic, tables) :: rest =>
    let first := e.flushTopic topic tables cooldown now
    let (e, outcomes, paused) := first.state.flushTopics cooldown now rest
    (e, first.outcome :: outcomes, max first.paused paused)

/-- Flushes the tables that an order selects.  Every fault is reported. -/
def flush (e : Engine δ κ) (order : FlushOrder) (now : Nat) : Timed (Engine δ κ) Unit :=
  match e.selection order with
  | .error f => ⟨e, .error f, 0⟩
  | .ok topics =>
    let (e, outcomes, paused) := e.flushTopics order.cooldown now topics
    ⟨e, FlushOutcomes.joined (FlushOutcomes.faults outcomes), paused⟩

end Engine

end ChangeCapture
