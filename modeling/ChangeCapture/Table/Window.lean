import ChangeCapture.Calendar.Instant
import ChangeCapture.Column.Registry
import ChangeCapture.Message.Basic
import ChangeCapture.Row
import ChangeCapture.Settings.Basic
import ChangeCapture.Table.Id
import ChangeCapture.Unicode.Lowercase

/-!
# Windows

A window holds what was saved for a table since its last flush: rows, columns,
and the messages to commit once the rows are written.

In replication mode there is one row for each key.  A later row goes over an
earlier one column by column, and a placeholder gives way to the earlier value
(`Row.carryOver`).  In history mode every row is kept in order.
-/

namespace ChangeCapture

/-- Why a flush takes place. -/
inductive FlushReason where
  /-- A table holds too many rows. -/
  | rows
  /-- A table has grown too large. -/
  | size
  /-- Time has passed. -/
  | time
  /-- The consumer stops. -/
  | shutdown
  deriving DecidableEq, Repr, Inhabited

/-- The name of a reason. -/
def FlushReason.name : FlushReason → String
  | .rows => "rows"
  | .size => "size"
  | .time => "time"
  | .shutdown => "shutdown"

/-- The size in bytes at which a table is flushed at once. -/
def Thresholds.flushBytes (t : Thresholds) : Nat := min (t.flushSizeKb * 1024) Row.maxBytes

/-- Puts one value of a later row over an earlier row.  A placeholder keeps the earlier value. -/
def Row.carry (previous : Row) (e : String × Json) : Row :=
  if e.2.isPlaceholder && previous.contains e.1 then previous else previous.insert e.1 e.2

/-- A row put over an earlier row of the same key. -/
def Row.carryOver (previous row : Row) : Row := row.entries.foldl Row.carry previous

/-- What was saved for a table since its last flush. -/
structure Window where
  /-- The table. -/
  tableId : TableId
  /-- The name of the table at the destination. -/
  name : String
  /-- How rows reach the destination. -/
  mode : Mode
  /-- The settings of the topic. -/
  settings : TopicSettings
  /-- The columns. -/
  columns : ColumnRegistry
  /-- The primary keys. -/
  primaryKeys : List String
  /-- The rows by key, in replication mode. -/
  keyed : SortedMap String Row
  /-- The rows in order, in history mode. -/
  appended : List Row
  /-- The messages to commit, by partition. -/
  messages : SortedMap Int (List Message)
  /-- The latest time of a change. -/
  latest : Option Instant
  /-- The estimated size of the rows. -/
  byteSize : Nat
  /-- Whether a row was saved that is not deleted. -/
  hasOtherOperations : Bool
  /-- Whether a deleted row was saved that must go from the destination. -/
  hasHardDeletes : Bool

namespace Window

/-- A window before its first row. -/
def new (tableId : TableId) (name : String) (mode : Mode) (columns : ColumnRegistry)
    (primaryKeys : List String) (settings : TopicSettings) : Window where
  tableId := tableId
  name := name
  mode := mode
  settings := settings
  columns := columns
  primaryKeys := primaryKeys
  keyed := .empty
  appended := []
  messages := .empty
  latest := none
  byteSize := 0
  hasOtherOperations := false
  hasHardDeletes := false

/-- The rows: by key in replication mode, in order in history mode. -/
def rows (w : Window) : List Row :=
  match w.mode with
  | .replication => w.keyed.values
  | .history => w.appended

/-- The number of rows. -/
def rowCount (w : Window) : Nat := w.rows.length

/-- Whether there is no row. -/
def isEmpty (w : Window) : Bool := w.rows.isEmpty

/-- Whether a flush has nothing to write. -/
def hasNothingToWrite (w : Window) : Bool := w.isEmpty || w.columns.isEmpty

/-- The name of the table at the destination. -/
def path (w : Window) : TablePath := .ofTopic w.settings w.name

/-! ## Saving -/

/-- Saves a row under its key, over what was saved for the key before. -/
def upsert (w : Window) (key : String) (row : Row) (deleted : Bool) : Window :=
  let previous := w.keyed.get? key
  let merged := (previous.map (Row.carryOver · row)).getD row
  { w with
    keyed := w.keyed.insert key merged
    byteSize := Row.addBytes w.byteSize merged.byteSize - (previous.map Row.byteSize).getD 0
    hasOtherOperations := w.hasOtherOperations || !deleted
    hasHardDeletes := w.hasHardDeletes || (deleted && !w.settings.softDelete) }

/-- Saves a row after all others. -/
def append (w : Window) (row : Row) : Window :=
  { w with
    appended := w.appended ++ [row]
    byteSize := Row.addBytes w.byteSize row.byteSize }

/-- Saves a row. -/
def insert (w : Window) (key : String) (row : Row) (deleted : Bool) : Window :=
  match w.mode with
  | .replication => w.upsert key row deleted
  | .history => w.append row

/-- Notes the time of a change. -/
def observe (w : Window) (time : Instant) : Window :=
  if w.latest.all (·.micros < time.micros) then { w with latest := some time } else w

/-- Records a message.  One that acknowledges up to its offset replaces those of its partition. -/
def record (w : Window) (m : Message) : Window :=
  { w with messages := w.messages.alter m.partition fun ms =>
      match m.ackMode with
      | .latestPerPartition => [m]
      | .everyMessage => ms.getD [] ++ [m] }

/-- The messages to commit, partition by partition. -/
def lastMessages (w : Window) : List Message := w.messages.values.flatten

/-- Why the window must be flushed now, if it must. -/
def flushReason? (w : Window) (t : Thresholds) : Option FlushReason :=
  if t.bufferRows ≤ w.rowCount then some .rows
  else if t.flushBytes ≤ w.byteSize then some .size
  else none

/-- Adds a column that is not there yet. -/
def addColumn (w : Window) (c : Column) : Window := { w with columns := w.columns.add c }

end Window

/-! ## Columns of the destination -/

/-- A column with what the destination knows about it.  The destination decides on the kind,
except that a decimal does not become an integer. -/
def Column.adopt (c known : Column) : Column :=
  let narrows := match c.kind, known.kind with
    | .decimal .., .integer => true
    | _, _ => false
  { c with
    kind := if narrows then c.kind else known.kind
    backfilled := known.backfilled }

/-- The columns with what the destination knows about them, by lower-case name. -/
def ColumnRegistry.adopt (r known : ColumnRegistry) : ColumnRegistry :=
  ⟨r.columns.map fun c =>
    match known.get? (Unicode.lowercase c.name) with
    | some k => c.adopt k
    | none => c⟩

/-- A window whose columns are those that the destination knows, as far as it knows them. -/
def Window.adopt (w : Window) (known : ColumnRegistry) : Window :=
  { w with columns := w.columns.adopt known }

end ChangeCapture
