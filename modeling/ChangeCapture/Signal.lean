import ChangeCapture.Fault

/-!
# Stop signals

A sender tells any number of receivers to stop.  A receiver stops also when
the sender is gone.
-/

namespace ChangeCapture

/-- A sender with its receivers. -/
structure Signal where
  /-- Whether the signal was sent. -/
  isSent : Bool
  /-- Whether the sender is there. -/
  hasSender : Bool
  /-- Whether each receiver is there, in the order in which they were made. -/
  receivers : List Bool
  deriving DecidableEq, Repr, Inhabited

namespace Signal

/-- A sender with one receiver. -/
def new : Signal := ⟨false, true, [true]⟩

/-- Whether a receiver is there. -/
def hasReceiver (s : Signal) (receiver : Nat) : Bool := s.receivers.getD receiver false

/-- The fault of a signal that nobody receives. -/
def undelivered : Fault :=
  .detailed .invalidState "Shutdown signal could not be delivered" "no shutdown receiver is alive"

/-- Sends the signal, unless there is no receiver. -/
def send (s : Signal) : Signal × Outcome Unit :=
  if s.receivers.any id then ({ s with isSent := true }, .ok ()) else (s, .error undelivered)

/-- Adds a receiver.  It is there if the sender is. -/
def subscribe (s : Signal) : Signal := { s with receivers := s.receivers ++ [s.hasSender] }

/-- Adds a receiver beside another one.  It is there if the other one is. -/
def duplicate (s : Signal) (receiver : Nat) : Signal :=
  { s with receivers := s.receivers ++ [s.hasReceiver receiver] }

/-- Takes the sender away. -/
def dropSender (s : Signal) : Signal := { s with hasSender := false }

/-- Takes a receiver away. -/
def dropReceiver (s : Signal) (receiver : Nat) : Signal :=
  { s with receivers := s.receivers.set receiver false }

/-- Whether a receiver that waits is told to stop. -/
def stops (s : Signal) : Bool := s.isSent || !s.hasSender

end Signal

end ChangeCapture
