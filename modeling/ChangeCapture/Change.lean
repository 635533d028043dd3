import ChangeCapture.Calendar.Instant
import ChangeCapture.Column.Inference
import ChangeCapture.Column.Registry
import ChangeCapture.Row

/-!
# Changes

A change of one row at the source, as a message reports it.
-/

namespace ChangeCapture

/-- What happened to a row. -/
inductive Operation where
  /-- It was inserted. -/
  | create
  /-- It was updated. -/
  | update
  /-- It was deleted. -/
  | delete
  /-- It was read for a snapshot. -/
  | read
  deriving DecidableEq, Repr, Inhabited

namespace Operation

/-- The one-letter code of an operation. -/
def code : Operation → String
  | .create => "c"
  | .update => "u"
  | .delete => "d"
  | .read => "r"

/-- The name of an operation. -/
def name : Operation → String
  | .create => "Create"
  | .update => "Update"
  | .delete => "Delete"
  | .read => "Read"

/-- The operation of a code. -/
def ofCode? : String → Option Operation
  | "c" => some .create
  | "u" => some .update
  | "d" => some .delete
  | "r" => some .read
  | _ => none

end Operation

/-- A change of one row. -/
structure Change where
  /-- The table, as the source names it. -/
  table : String
  /-- What happened. -/
  operation : Operation
  /-- When the source committed it. -/
  time : Instant
  /-- The row after the change. -/
  after : Option Row
  /-- The kinds of some columns. -/
  hints : Option KindHints
  /-- The columns that the message declares. -/
  columns : Option ColumnRegistry
  deriving Inhabited

/-- Whether a change deletes its row: there is no row after it. -/
def Change.isDelete (c : Change) : Bool := c.after.all SortedMap.isEmpty

end ChangeCapture
