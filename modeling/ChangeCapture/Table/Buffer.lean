import ChangeCapture.Table.Window

/-!
# Table buffers

A buffer belongs to a table for the whole run.  It holds a window while there
is something to write, and it remembers when it was last flushed.
-/

namespace ChangeCapture

/-- The buffer of a table. -/
structure TableBuffer where
  /-- The table. -/
  tableId : TableId
  /-- The topic that feeds it. -/
  topic : String
  /-- The window, if rows were saved since the last flush. -/
  window : Option Window
  /-- When it was last flushed, in milliseconds. -/
  lastFlush : Option Nat
  deriving Inhabited

namespace TableBuffer

/-- A buffer before its first row. -/
def new (tableId : TableId) (topic : String) : TableBuffer := ⟨tableId, topic, none, none⟩

/-- Whether no row is buffered. -/
def isEmpty (b : TableBuffer) : Bool := b.window.all Window.isEmpty

/-- Starts a window. -/
def setWindow (b : TableBuffer) (w : Window) : TableBuffer := { b with window := some w }

/-- Drops the window after a flush. -/
def wipe (b : TableBuffer) (now : Nat) : TableBuffer :=
  { b with window := none, lastFlush := some now }

/-- The longest cooldown that holds in full, in milliseconds. -/
def fullCooldown : Nat := 60000

/-- Whether the buffer was flushed within a cooldown.  Of a long cooldown three quarters count, so
that a sweep does not miss a table that was flushed shortly before the last sweep. -/
def isCooling (b : TableBuffer) (cooldown now : Nat) : Bool :=
  match b.lastFlush with
  | none => false
  | some flushed =>
    if cooldown ≤ fullCooldown then now - flushed < cooldown
    else (now - flushed) * 4 < cooldown * 3

end TableBuffer

end ChangeCapture
