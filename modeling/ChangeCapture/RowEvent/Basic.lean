import ChangeCapture.Change
import ChangeCapture.SystemColumn
import ChangeCapture.Table.Window

/-!
# Row events

A row event is a change in the form in which it is saved: system and static
columns are in its data, filters and digests are applied, and its primary keys
are sorted.
-/

namespace ChangeCapture

/-- A change in the form in which it is saved. -/
structure RowEvent where
  /-- The name of the table at the destination. -/
  table : String
  /-- The buffered table. -/
  tableId : TableId
  /-- The values by column. -/
  data : Row
  /-- The kinds of some columns. -/
  hints : Option KindHints
  /-- The columns that the change declares. -/
  columns : Option ColumnRegistry
  /-- Whether the change deletes its row. -/
  isDelete : Bool
  /-- The primary keys, sorted. -/
  primaryKeys : List String
  /-- When the source committed the change. -/
  time : Instant
  /-- How rows reach the destination. -/
  mode : Mode

namespace RowEvent

/-- A fault of an event. -/
def fault (description detail : String) : Fault := .detailed .invalidEvent description detail

/-- Checks that an event can be saved, and names the first rule that it breaks. -/
def validate (e : RowEvent) : Outcome Unit :=
  let invalid := fault "Event validation failed"
  if Unicode.isBlankText e.table then .error (invalid "table name is empty")
  else if e.primaryKeys.isEmpty then .error (invalid "primary keys are empty")
  else if e.data.isEmpty then .error (invalid "event has no data")
  else if e.mode != .history && !e.data.contains SystemColumn.deleted then
    .error (invalid "delete column marker does not exist")
  else .ok ()

/-- Whether an event can be saved. -/
def isValid (e : RowEvent) : Bool :=
  match e.validate with
  | .ok _ => true
  | .error _ => false

/-- The part of a row key for one primary key. -/
def keyPart (name : String) (value : Json) : String := name ++ "=" ++ value.keyText

/-- The key of a row of a table: its primary keys with their values. -/
def keyOf (table : String) (data : Row) : List String → Outcome String
  | [] => .ok ""
  | name :: rest =>
    match data.get? name with
    | none =>
      .error (fault "Primary key not found in event data"
        ("primary key '" ++ name ++ "' is missing from table '" ++ table ++ "'"))
    | some value => do .ok (keyPart name value ++ (← keyOf table data rest))

/-- The key of the row. -/
def rowKey (e : RowEvent) : Outcome String := keyOf e.table e.data e.primaryKeys

end RowEvent

end ChangeCapture
