import ChangeCapture.Engine.Flush

/-!
# Attempts of a write

The write of one table, attempt by attempt.  A flush beside other work pauses
between attempts, and others go on in its pauses; `Engine.writeWindow` makes
the same attempts at one stroke.
-/

namespace ChangeCapture

/-- What is tried next in the write of a table. -/
inductive WriteStage where
  /-- To ask the destination about the table. -/
  | describe (b : TableBuffer) (w : Window)
  /-- To write the window. -/
  | write (b : TableBuffer) (w : Window)

/-- What an attempt led to. -/
inductive AttemptResult where
  /-- The write is through. -/
  | finished (outcome : Outcome TableFlush)
  /-- The write goes on after a pause. -/
  | next (pause : Nat) (stage : WriteStage) (attempt : Nat)

/-- A failed attempt is followed by another one, or it ends the write. -/
def RetryPolicy.follow (p : RetryPolicy) (attempt : Nat) (f : Fault) (stage : WriteStage) :
    AttemptResult :=
  if p.goesOn attempt f then .next (p.backoff.pause attempt) stage (attempt + 1)
  else .finished (.error f)

namespace Engine

variable {δ κ : Type} [Destination δ]

/-- Makes an attempt, counted from zero. -/
def attempt (e : Engine δ κ) (stage : WriteStage) (attempt now : Nat) :
    Engine δ κ × AttemptResult :=
  match stage with
  | .describe b w =>
    let (outcome, destination) := Destination.describe e.destination w.path
    let e := { e with destination := destination }
    match outcome with
    | .ok description => (e, .next 0 (.write b (w.adopt description.columns)) 0)
    | .error f => (e, e.retry.follow attempt f stage)
  | .write b w =>
    let (outcome, destination) := Destination.write e.destination w
    let e := { e with destination := destination }
    match outcome with
    | .ok commits =>
      let (e, flush) := e.finishWrite b w commits now
      (e, .finished (.ok flush))
    | .error f => (e.setWindow b w, e.retry.follow attempt f stage)

end Engine

end ChangeCapture
